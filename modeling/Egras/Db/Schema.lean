import Egras.Audit.Model
import Egras.Base.Time
import Egras.Lib.Table

/-!
# The tables

The rows of the migrations, one structure a table, and the state of the database as the record of
its tables (`Tables`). A primary key is carried by the table itself (`Lib.Table`), so that no two
rows of a table share one; the other constraints are checked by the statements that write.

Columns that no statement of the modelled functions reads are left out: names and descriptions of
roles and permissions, the stamps of a feature definition, `audit_events.recorded_at`.

Rust → Lean naming: the structures keep the names of the Rust models (`User`, `Role`,
`InboundChannel`, `ServiceAccount`, `ApiKey`, `OrgFeatureOverride`); a field keeps its column's
words.
-/

namespace Egras
open Lib

/-- A row of `organisations`. -/
structure Organisation where
  id : Uuid
  name : String
  business : String
  isOperator : Bool
  createdAt : Timestamp
  updatedAt : Timestamp
deriving DecidableEq

/-- `users.kind`. -/
inductive UserKind
  | human
  | serviceAccount
deriving DecidableEq

/-- A row of `users`. -/
structure User where
  id : Uuid
  username : String
  email : String
  passwordHash : String
  kind : UserKind
  createdAt : Timestamp
  updatedAt : Timestamp
deriving DecidableEq

/-- A row of `password_reset_tokens`. -/
structure PasswordResetToken where
  id : Uuid
  userId : Uuid
  tokenHash : String
  expiresAt : Timestamp
  usedAt : Option Timestamp
  createdAt : Timestamp
deriving DecidableEq

/-- A row of `revoked_tokens`. -/
structure RevokedToken where
  jti : Uuid
  userId : Uuid
  expiresAt : Timestamp
deriving DecidableEq

/-- A row of `roles`. -/
structure Role where
  id : Uuid
  code : String
deriving DecidableEq

/-- A row of `permissions`. -/
structure PermissionRow where
  id : Uuid
  code : String
deriving DecidableEq

/-- A row of `role_permissions`. -/
structure RolePermission where
  roleId : Uuid
  permissionId : Uuid
deriving DecidableEq

/-- A row of `user_organisation_roles`. -/
structure UserOrganisationRole where
  userId : Uuid
  organisationId : Uuid
  roleId : Uuid
  createdAt : Timestamp
deriving DecidableEq

/-- `inbound_channels.channel_type`. -/
inductive ChannelType
  | vast
  | sensor
  | websocket
  | rest
deriving DecidableEq

/-- A row of `inbound_channels`. -/
structure InboundChannel where
  id : Uuid
  organisationId : Uuid
  name : String
  description : Option String
  channelType : ChannelType
  apiKey : String
  isActive : Bool
  createdAt : Timestamp
  updatedAt : Timestamp
deriving DecidableEq

/-- A row of `service_accounts`. -/
structure ServiceAccount where
  userId : Uuid
  organisationId : Uuid
  name : String
  description : Option String
  createdAt : Timestamp
  createdBy : Uuid
  lastUsedAt : Option Timestamp
deriving DecidableEq

/-- The columns of `api_keys` that leave the repository. -/
structure ApiKey where
  id : Uuid
  serviceAccountUserId : Uuid
  keyPrefix : String
  name : String
  scopes : Option (List String)
  createdAt : Timestamp
  createdBy : Uuid
  lastUsedAt : Option Timestamp
  revokedAt : Option Timestamp
deriving DecidableEq

/-- A row of `api_keys`. -/
structure ApiKeyRecord extends ApiKey where
  secretHash : String
deriving DecidableEq

/-- `feature_definitions.value_type`. -/
inductive FeatureValueType
  | bool
  | string
  | int
  | enumSet
  | json
deriving DecidableEq

/-- A row of `feature_definitions`. -/
structure FeatureDefinition where
  slug : String
  valueType : FeatureValueType
  defaultValue : Value
  description : String
  selfService : Bool
deriving DecidableEq

/-- A row of `organisation_features`. -/
structure OrgFeatureOverride where
  organisationId : Uuid
  slug : String
  value : Value
  updatedAt : Timestamp
  updatedBy : Uuid
deriving DecidableEq

/-- Primary key of `role_permissions`. -/
def RolePermission.key (r : RolePermission) : Uuid × Uuid := (r.roleId, r.permissionId)

/-- Primary key of `user_organisation_roles`. -/
def UserOrganisationRole.key (r : UserOrganisationRole) : Uuid × Uuid × Uuid :=
  (r.userId, r.organisationId, r.roleId)

/-- Primary key of `organisation_features`. -/
def OrgFeatureOverride.key (r : OrgFeatureOverride) : Uuid × String := (r.organisationId, r.slug)

/-- Primary key of `api_keys`. -/
def ApiKeyRecord.key (r : ApiKeyRecord) : Uuid := r.id

/-- The state of the database. -/
structure Tables where
  organisations : Table Organisation Organisation.id
  users : Table User User.id
  passwordResetTokens : Table PasswordResetToken PasswordResetToken.id
  revokedTokens : Table RevokedToken RevokedToken.jti
  roles : Table Role Role.id
  permissions : Table PermissionRow PermissionRow.id
  rolePermissions : Table RolePermission RolePermission.key
  userOrganisationRoles : Table UserOrganisationRole UserOrganisationRole.key
  inboundChannels : Table InboundChannel InboundChannel.id
  serviceAccounts : Table ServiceAccount ServiceAccount.userId
  apiKeys : Table ApiKeyRecord ApiKeyRecord.key
  featureDefinitions : Table FeatureDefinition FeatureDefinition.slug
  organisationFeatures : Table OrgFeatureOverride OrgFeatureOverride.key
  auditEvents : Table AuditEvent AuditEvent.id
deriving DecidableEq

end Egras
