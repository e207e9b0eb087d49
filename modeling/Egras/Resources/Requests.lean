import Egras.Features.Service
import Egras.Membership.Homes
import Egras.Security.ServiceAccounts
import Egras.Security.Users
import Egras.Tenants.Channels

/-!
# Requests for guarded resources

The handlers of inbound channels, of the features of an organisation, of service accounts and API
keys and of the list of users as one family (`ResourceAction.serve`), with the identifiers that a
request names apart (`Names`), and what it means for such a request to stay within an organisation:
which rows it may change (`Confined`), what it may answer (`Within`) and which identifiers it must
not tell apart (`Alike`).
-/

namespace Egras
open Lib

/-- The identifiers in the path, the query or the body of a request; a handler reads those that its
request has. -/
structure Names where
  organisation : Uuid
  channel : Uuid
  serviceAccount : Uuid
  key : Uuid
deriving DecidableEq

/-- A request less the identifiers that it names. -/
inductive ResourceAction
  | createChannel (req : CreateChannelRequest)
  | listChannels (q : ListQuery)
  | getChannel
  | updateChannel (req : UpdateChannelRequest)
  | deleteChannel
  | listFeatures
  | putFeature (slug : String) (value : Value)
  | deleteFeature (slug : String)
  | createServiceAccount (name : String) (description : Option String)
  | listServiceAccounts (limit : Option ℕ) (after : Option String)
  | getServiceAccount
  | deleteServiceAccount
  | createApiKey (req : CreateApiKeyRequest)
  | listApiKeys
  | deleteApiKey
  | rotateApiKey (req : RotateApiKeyRequest)
  | listUsers (after : Option String) (limit : Option ℕ) (named : Bool) (q : Option String)
deriving DecidableEq

/-- The answers of the handlers. -/
inductive ResourceReply
  | channel (body : ChannelBody)
  | channels (body : PagedChannels)
  | feature (body : EvaluatedFeature)
  | features (body : List EvaluatedFeature)
  | serviceAccount (body : ServiceAccountResponse)
  | serviceAccounts (body : ListServiceAccountsResponse)
  | apiKey (body : CreateApiKeyResponse)
  | apiKeys (body : List ApiKeyResponse)
  | users (body : ListUsersOutput)
  | status (code : ℕ)
deriving DecidableEq

/-- A handler with its answer as one of the answers. -/
def answering {α : Type} (p : Action AppError α) (reply : α → ResourceReply) :
    Action AppError ResourceReply := do
  let a ← p
  return reply a

section Serve
variable [Argon2] [Base64] [CaseMapping] [CursorText]

/-- The handler of a request. -/
def ResourceAction.serve (ext : Extensions) (n : Names) :
    ResourceAction → Action AppError ResourceReply
  | createChannel req => answering (postCreateChannel ext n.organisation req) (.channel ·.2)
  | listChannels q => answering (getListChannels ext n.organisation q) .channels
  | getChannel => answering (Egras.getChannel ext n.organisation n.channel) .channel
  | updateChannel req =>
    answering (putUpdateChannel ext n.organisation n.channel req) .channel
  | deleteChannel => answering (Egras.deleteChannel ext n.organisation n.channel) .status
  | listFeatures => answering (getOrgFeatures ext n.organisation) .features
  | putFeature slug value => answering (putOrgFeature ext n.organisation slug value) .feature
  | deleteFeature slug => answering (deleteOrgFeature ext n.organisation slug) .status
  | createServiceAccount name description =>
    answering (postCreateServiceAccount ext ⟨n.organisation, name, description⟩)
      (.serviceAccount ·.2)
  | listServiceAccounts limit after =>
    answering (getListServiceAccounts ext ⟨n.organisation, limit, after⟩) .serviceAccounts
  | getServiceAccount =>
    answering (Egras.getServiceAccount ext n.serviceAccount) .serviceAccount
  | deleteServiceAccount =>
    answering (deleteServiceAccountHandler ext n.serviceAccount) .status
  | createApiKey req => answering (postCreateApiKey ext n.serviceAccount req) (.apiKey ·.2)
  | listApiKeys => answering (getListApiKeys ext n.serviceAccount) .apiKeys
  | deleteApiKey => answering (deleteApiKeyHandler ext n.serviceAccount n.key) .status
  | rotateApiKey req =>
    answering (postRotateApiKey ext n.serviceAccount n.key req) (.apiKey ·.2)
  | listUsers after limit named q =>
    answering (getListUsers ext ⟨after, limit, if named then some n.organisation else none, q⟩)
      .users

end Serve

/-! ## Whose rows they are -/

namespace Tables

/-- A channel of an organisation has this identifier. -/
def OwnsChannel (t : Tables) (org id : Uuid) : Prop :=
  ∃ c ∈ t.inboundChannels, c.id = id ∧ c.organisationId = org

/-- A service account of an organisation has this identifier. -/
def OwnsAccount (t : Tables) (org id : Uuid) : Prop :=
  ∃ sa ∈ t.serviceAccounts, sa.userId = id ∧ sa.organisationId = org

/-- A key of a service account of an organisation has this identifier. -/
def OwnsKey (t : Tables) (org id : Uuid) : Prop :=
  ∃ k ∈ t.apiKeys, k.id = id ∧ t.OwnsAccount org k.serviceAccountUserId

/-- A flag is one that organisations set themselves. -/
def SelfService (t : Tables) (slug : String) : Prop :=
  ∃ d ∈ t.featureDefinitions, d.slug = slug ∧ d.selfService = true

/-- Between two states of the tables only rows of an organisation differ: its channels, its
overrides of self-service flags, its service accounts with their users and keys, and what else hangs
on such a user. No role row is new. -/
structure Confined (org : Uuid) (t t' : Tables) : Prop where
  organisations : t'.organisations = t.organisations
  users : Table.ChangedIn (fun u => t.OwnsAccount org u.id) (fun u => t'.OwnsAccount org u.id)
    t.users t'.users
  passwordResetTokens : Table.ChangedIn (fun p => t.OwnsAccount org p.userId) (fun _ => False)
    t.passwordResetTokens t'.passwordResetTokens
  revokedTokens : Table.ChangedIn (fun r => t.OwnsAccount org r.userId) (fun _ => False)
    t.revokedTokens t'.revokedTokens
  roles : t'.roles = t.roles
  permissions : t'.permissions = t.permissions
  rolePermissions : t'.rolePermissions = t.rolePermissions
  userOrganisationRoles : Table.ChangedIn (fun r => r.organisationId = org) (fun _ => False)
    t.userOrganisationRoles t'.userOrganisationRoles
  inboundChannels : Table.ChangedIn (fun c => c.organisationId = org)
    (fun c => c.organisationId = org) t.inboundChannels t'.inboundChannels
  serviceAccounts : Table.ChangedIn (fun sa => sa.organisationId = org)
    (fun sa => sa.organisationId = org) t.serviceAccounts t'.serviceAccounts
  apiKeys : Table.ChangedIn (fun k => t.OwnsAccount org k.serviceAccountUserId)
    (fun k => t'.OwnsAccount org k.serviceAccountUserId) t.apiKeys t'.apiKeys
  featureDefinitions : t'.featureDefinitions = t.featureDefinitions
  organisationFeatures : Table.ChangedIn (fun f => f.organisationId = org ∧ t.SelfService f.slug)
    (fun f => f.organisationId = org ∧ t.SelfService f.slug)
    t.organisationFeatures t'.organisationFeatures
  auditEvents : t'.auditEvents = t.auditEvents

end Tables

/-! ## What an answer shows -/

/-- A value of a flag is one that an organisation's overrides, the cached values for it or the
default give. -/
def Tables.Shows (t : Tables) (cache : Table CachedValue CachedValue.key) (org : Uuid)
    (slug : String) (value : Value) : Prop :=
  (∃ e ∈ cache, e.organisationId = org ∧ e.slug = slug ∧ e.value = value) ∨
    (∃ ov ∈ t.organisationFeatures, ov.organisationId = org ∧ ov.slug = slug ∧ ov.value = value) ∨
    ∃ d ∈ t.featureDefinitions, d.slug = slug ∧ d.defaultValue = value

/-- A flag as an organisation sees it. -/
structure EvaluatedFeature.ShownTo (f : EvaluatedFeature) (org : Uuid)
    (cache : Table CachedValue CachedValue.key) (t : Tables) : Prop where
  defined : ∃ d ∈ t.featureDefinitions,
    d.slug = f.slug ∧ d.valueType = f.valueType ∧ d.selfService = f.selfService
  value : t.Shows cache org f.slug f.value
  source : f.source = .override →
    ∃ ov ∈ t.organisationFeatures, ov.organisationId = org ∧ ov.slug = f.slug

/-- A listed user is a member of an organisation, listed with its membership there only. -/
structure UserWithMemberships.ShownTo (u : UserWithMemberships) (org : Uuid) (t : Tables) :
    Prop where
  user : ∃ row ∈ t.users, row.id = u.id ∧ row.username = u.username ∧ row.email = u.email ∧
    row.createdAt = u.createdAt
  member : t.isMember u.id org = true
  memberships : ∀ m ∈ u.memberships, m.orgId = org ∧
    ∃ o ∈ t.organisations, t.membership u.id o = some m

/-- An answer tells of rows of an organisation only. -/
def ResourceReply.Within [Base64] [CursorText] (org : Uuid)
    (cache : Table CachedValue CachedValue.key) (t : Tables) : ResourceReply → Prop
  | channel c => c ∈ t.inboundChannels ∧ c.organisationId = org
  | channels page =>
    (∀ c ∈ page.items, c ∈ t.inboundChannels ∧ c.organisationId = org) ∧
    ∀ s, page.nextCursor = some s → ∃ c ∈ t.inboundChannels, c.organisationId = org ∧
      s = CursorText.encodeIdCursor ⟨c.createdAt, c.id⟩
  | feature f => f.ShownTo org cache t
  | features fs => ∀ f ∈ fs, f.ShownTo org cache t
  | serviceAccount r => ∃ sa ∈ t.serviceAccounts, sa.organisationId = org ∧ r = sa.toResponse
  | serviceAccounts page =>
    (∀ r ∈ page.items, ∃ sa ∈ t.serviceAccounts, sa.organisationId = org ∧ r = sa.toResponse) ∧
    ∀ s, page.nextCursor = some s → ∃ sa ∈ t.serviceAccounts, sa.organisationId = org ∧
      s = encodeSaCursor ⟨sa.createdAt, sa.userId⟩
  | apiKey r => ∃ k ∈ t.apiKeys, t.OwnsAccount org k.serviceAccountUserId ∧
    r.key = k.toApiKey.toResponse
  | apiKeys rs => ∀ r ∈ rs, ∃ k ∈ t.apiKeys, t.OwnsAccount org k.serviceAccountUserId ∧
    r = k.toApiKey.toResponse
  | users out => (∀ u ∈ out.items, u.ShownTo org t) ∧
    ∀ s, out.nextCursor = some s → ∃ row ∈ t.users, t.isMember row.id org = true ∧
      s = CursorText.encodeUserCursor ⟨row.createdAt, row.id⟩
  | status _ => True

/-! ## What a request must not tell apart -/

/-- Two identifiers are the same, or neither has a property. -/
def Indistinct (p : Uuid → Prop) (id id' : Uuid) : Prop := id = id' ∨ ¬ p id ∧ ¬ p id'

/-- Two requests name the same, but for identifiers that nothing in an organisation has: those that
exist only outside it and those that do not exist at all. -/
structure Names.Alike (org : Uuid) (t : Tables) (n n' : Names) : Prop where
  organisation : Indistinct (· = org) n.organisation n'.organisation
  channel : Indistinct (t.OwnsChannel org) n.channel n'.channel
  serviceAccount : Indistinct (t.OwnsAccount org) n.serviceAccount n'.serviceAccount
  key : Indistinct (t.OwnsKey org) n.key n'.key

end Egras
