import Egras.Jobs.Progress
import Egras.Jobs.Claiming
import Egras.Jobs.Cluster
import Egras.Jobs.Tickets
import Egras.Jobs.Leases
import Egras.Jobs.Fencing
import Egras.Jobs.Attempts
import Egras.Jobs.Dispatch
import Egras.Base.Text
import Egras.Db.Schema
import Egras.Lib.Prog
import Egras.Audit.Model
import Egras.Db.World
import Egras.Auth.Permissions
import Egras.Base.Platform
import Egras.Db.Constraints
import Egras.Auth.Extractors
import Egras.Auth.Jwt
import Egras.Security.Secrets
import Egras.Features.Evaluate
import Egras.Security.Repository
import Egras.Auth.Middleware
import Egras.Auth.Soundness
import Egras.Tenants.Interface
import Egras.Security.Interface
import Egras.Membership.Effect
import Egras.Membership.Isolation
import Egras.Db.Seeds
import Egras.Membership.Assignment
import Egras.Membership.Containment
import Egras.Tenants.Channels
import Egras.Features.Service
import Egras.Security.ServiceAccounts
import Egras.Security.Users
import Egras.Membership.Ownership
import Egras.Membership.Homes
import Egras.Membership.Roster
import Egras.Security.Bootstrap
import Egras.Security.Passwords
import Egras.Security.Identifiers
import Egras.Security.Seeding
import Egras.Security.Sentinel
import Egras.Lib.Interleave
import Egras.Features.Stepwise
import Egras.Features.ReadYourWrites
import Egras.Features.Staleness
import Egras.Security.Stepwise
import Egras.Security.Rehash
import Egras.Security.SingleUse
import Egras.Lib.Locks
import Egras.Membership.Removal
import Egras.Outbox.Model
import Egras.Lib.Cooperate
import Egras.Outbox.HandOff
import Egras.Resources.Requests
import Egras.Base.Codecs
import Egras.Lib.Paging
import Egras.Auth.Precedence
import Egras.Tenants.Listings
import Egras.Audit.Listing
import Egras.Listings.Keyset
import Egras.Listings.Channels
import Egras.Listings.ServiceAccounts
import Egras.Listings.Complete
import Egras.Listings.Search
import Egras.Features.Conformance
import Egras.Security.Keys
import Egras.Security.Revocation
import Egras.Security.Rotation
import Egras.Security.Replacement
import Egras.Resources.Outcome
import Egras.Resources.Confinement
import Egras.Resources.Replies
import Egras.Resources.Isolation
import Egras.Service.Operations
import Egras.Service.Logout
import Egras.Service.AllOrNothing
import Egras.Service.Attribution
import Egras.Service.Dismissal
import Egras.Security.ResetRequests
import Egras.Security.Pending
import Egras.Features.AuditChain
import Egras.Features.Agreement
import Egras.Audit.Delivery
import Egras.Audit.Scope
import Egras.Security.KeyFormat
import Egras.Jobs.Backoff
import Egras.Echo.Interface
import Egras.Service.Ledger
import Egras.Service.Gateway
import Egras.Service.Accountability
import Egras.Service.Grants
import Egras.Service.Admission
import Egras.Service.KeyLife
import Egras.Service.Logins
import Egras.Service.Records
import Egras.Service.Trail
import Egras.Service.Refusals
import Egras.Jobs.Waiting
import Egras.Jobs.Work
import Egras.Outbox.Pipeline
import Egras.Outbox.Delivery
