import Egras.Base.Json
import Egras.Base.Text

/-!
# Audit events

The events that the use cases record and the bounded channel they are recorded on. Every
constructor of `AuditEvent` is `base` with some fields set; the identifier and the instant that
`base` draws are handed in as a `Stamp`.

Rust → Lean naming: `organisation_member_added` → `organisationMemberAdded` and so on, `record` →
`AuditChannel.record`.
-/

namespace Egras

/-- What an event is about. -/
inductive AuditCategory
  | securityStateChange
  | securityAuth
  | securityPermissionDenial
  | dataAccess
  | tenantsStateChange
deriving DecidableEq

/-- How an operation ended. -/
inductive Outcome
  | success
  | failure
  | denied
deriving DecidableEq

/-- An audit event (Rust `AuditEvent`). -/
structure AuditEvent where
  id : Uuid
  occurredAt : Timestamp
  category : AuditCategory
  eventType : String
  actorUserId : Option Uuid
  actorOrganisationId : Option Uuid
  targetType : Option String
  targetId : Option Uuid
  targetOrganisationId : Option Uuid
  requestId : Option String
  ipAddress : Option String
  userAgent : Option String
  outcome : Outcome
  reasonCode : Option String
  payload : Value
deriving DecidableEq

/-- What an event draws when it is built: `Uuid::now_v7()` and `Utc::now()`. -/
structure Stamp where
  id : Uuid
  at_ : Timestamp

/-- What is built at an instant under an identifier that is drawn for it. -/
def Stamped {α : Type} (now : Timestamp) (event : Stamp → α) (a : α) : Prop := ∃ id, event ⟨id, now⟩ = a

/-- What was built is there. -/
lemma Stamped.some {α : Type} {now : Timestamp} {event : Stamp → α} {a : α}
    (h : Stamped now event a) : Stamped now (fun s => Option.some (event s)) (Option.some a) :=
  h.imp fun _ => congrArg Option.some

/-- What was built from something that is found. -/
lemma Stamped.of_found {α β : Type} {now : Timestamp} {found : Option β} {b : β}
    {event : β → Stamp → α} {a : α} (hfound : found = Option.some b) (h : Stamped now (event b) a) :
    Stamped now (fun s => found.map (event · s)) (Option.some a) := by
  rw [hfound]
  exact h.some

namespace AuditEvent

/-- A JSON object of strings (`json!({ ... })`). -/
def texts (fields : List (String × String)) : Value :=
  .object (fields.map (fun f => (f.1, .string f.2)))

/-- An event with its stamp, and nothing else known. -/
def base (s : Stamp) (category : AuditCategory) (eventType : String) (outcome : Outcome) :
    AuditEvent where
  id := s.id
  occurredAt := s.at_
  category := category
  eventType := eventType
  actorUserId := none
  actorOrganisationId := none
  targetType := none
  targetId := none
  targetOrganisationId := none
  requestId := none
  ipAddress := none
  userAgent := none
  outcome := outcome
  reasonCode := none
  payload := .object []

/-- The events about an object of an organisation: who acted and on what. -/
def onTarget (s : Stamp) (category : AuditCategory) (eventType : String) (actor actorOrg : Uuid)
    (targetType : String) (targetId : Option Uuid) (targetOrg : Uuid) (payload : Value) :
    AuditEvent :=
  { base s category eventType .success with
    actorUserId := some actor
    actorOrganisationId := some actorOrg
    targetType := some targetType
    targetId := targetId
    targetOrganisationId := some targetOrg
    payload := payload }

/-- A user was registered. -/
def userRegisteredSuccess (s : Stamp) (actorUser actorOrg targetUser targetOrg : Uuid)
    (roleCode : String) : AuditEvent :=
  onTarget s .securityStateChange "user.registered" actorUser actorOrg "user" (some targetUser)
    targetOrg (texts [("role_code", roleCode)])

/-- A login succeeded. -/
def loginSuccess (s : Stamp) (userId activeOrg : Uuid) : AuditEvent :=
  { base s .securityAuth "login.success" .success with
    actorUserId := some userId
    actorOrganisationId := some activeOrg
    targetType := some "user"
    targetId := some userId }

/-- A login failed, with the reason and the name that was given. -/
def loginFailed (s : Stamp) (reasonCode usernameOrEmail : String) : AuditEvent :=
  { base s .securityAuth "login.failed" .failure with
    reasonCode := some reasonCode
    payload := texts [("username_or_email", usernameOrEmail)] }

/-- A session moved to another organisation. -/
def sessionSwitchedOrg (s : Stamp) (userId fromOrg toOrg : Uuid) : AuditEvent :=
  onTarget s .securityAuth "session.switched_org" userId toOrg "organisation" (some toOrg) toOrg
    (texts [("from_org", uuidToString fromOrg)])

/-- An organisation was created. -/
def organisationCreated (s : Stamp) (actor actorOrg orgId : Uuid) (name : String) : AuditEvent :=
  onTarget s .tenantsStateChange "organisation.created" actor actorOrg "organisation" (some orgId)
    orgId (texts [("name", name)])

/-- A member was added with a role. -/
def organisationMemberAdded (s : Stamp) (actor actorOrg orgId userId : Uuid) (roleCode : String) :
    AuditEvent :=
  onTarget s .tenantsStateChange "organisation.member_added" actor actorOrg "user" (some userId)
    orgId (texts [("role_code", roleCode)])

/-- A member was removed. -/
def organisationMemberRemoved (s : Stamp) (actor actorOrg orgId userId : Uuid) : AuditEvent :=
  onTarget s .tenantsStateChange "organisation.member_removed" actor actorOrg "user" (some userId)
    orgId (.object [])

/-- A role was assigned. -/
def organisationRoleAssigned (s : Stamp) (actor actorOrg orgId userId : Uuid)
    (roleCode : String) : AuditEvent :=
  onTarget s .tenantsStateChange "organisation.role_assigned" actor actorOrg "user" (some userId)
    orgId (texts [("role_code", roleCode)])

/-- A token was revoked by its user. -/
def logout (s : Stamp) (userId org jti : Uuid) : AuditEvent :=
  { base s .securityAuth "logout" .success with
    actorUserId := some userId
    actorOrganisationId := some org
    payload := texts [("jti", uuidToString jti)] }

/-- A user changed its password. -/
def passwordChanged (s : Stamp) (userId : Uuid) : AuditEvent :=
  { base s .securityStateChange "password.changed" .success with
    actorUserId := some userId
    targetType := some "user"
    targetId := some userId }

/-- A reset was requested for an email. -/
def passwordResetRequested (s : Stamp) (email : String) : AuditEvent :=
  { base s .securityStateChange "password.reset_requested" .success with
    payload := texts [("email", email)] }

/-- A reset was confirmed, or refused with a reason. -/
def passwordResetConfirmed (s : Stamp) (userId : Option Uuid) (outcome : Outcome)
    (reason : Option String) : AuditEvent :=
  { base s .securityStateChange "password.reset_confirmed" outcome with
    actorUserId := userId
    reasonCode := reason }

/-- The administrator was seeded. -/
def adminSeeded (s : Stamp) (userId orgId : Uuid) (roleCode : String) : AuditEvent :=
  { base s .securityStateChange "user.registered" .success with
    targetType := some "user"
    targetId := some userId
    targetOrganisationId := some orgId
    payload := texts [("role_code", roleCode), ("via", "seed-admin")] }

/-- The users were listed. -/
def usersList (s : Stamp) (actorUserId actorOrgId : Uuid) : AuditEvent :=
  { base s .dataAccess "users.list" .success with
    actorUserId := some actorUserId
    actorOrganisationId := some actorOrgId
    targetType := some "user" }

/-- A channel was created. -/
def channelCreated (s : Stamp) (actor actorOrg channelId orgId : Uuid) (name : String) :
    AuditEvent :=
  onTarget s .tenantsStateChange "channel.created" actor actorOrg "inbound_channel"
    (some channelId) orgId (texts [("name", name)])

/-- A channel was updated. -/
def channelUpdated (s : Stamp) (actor actorOrg channelId orgId : Uuid) (name : String) :
    AuditEvent :=
  onTarget s .tenantsStateChange "channel.updated" actor actorOrg "inbound_channel"
    (some channelId) orgId (texts [("name", name)])

/-- A channel was deleted. -/
def channelDeleted (s : Stamp) (actor actorOrg channelId orgId : Uuid) : AuditEvent :=
  onTarget s .tenantsStateChange "channel.deleted" actor actorOrg "inbound_channel"
    (some channelId) orgId (.object [])

/-- A service account was created. -/
def serviceAccountCreated (s : Stamp) (actor actorOrg saUserId orgId : Uuid) (name : String) :
    AuditEvent :=
  onTarget s .securityStateChange "service_account.created" actor actorOrg "service_account"
    (some saUserId) orgId (texts [("name", name)])

/-- A service account was deleted. -/
def serviceAccountDeleted (s : Stamp) (actor actorOrg saUserId orgId : Uuid) : AuditEvent :=
  onTarget s .securityStateChange "service_account.deleted" actor actorOrg "service_account"
    (some saUserId) orgId (.object [])

/-- A key was created; only its prefix is told. -/
def apiKeyCreated (s : Stamp) (actor actorOrg saUserId orgId keyId : Uuid) (keyPrefix : String) :
    AuditEvent :=
  onTarget s .securityStateChange "api_key.created" actor actorOrg "api_key" (some saUserId) orgId
    (texts [("key_id", uuidToString keyId), ("prefix", keyPrefix)])

/-- A key was revoked. -/
def apiKeyRevoked (s : Stamp) (actor actorOrg saUserId orgId keyId : Uuid) : AuditEvent :=
  onTarget s .securityStateChange "api_key.revoked" actor actorOrg "api_key" (some saUserId) orgId
    (texts [("key_id", uuidToString keyId)])

/-- A key was replaced by another one. -/
def apiKeyRotated (s : Stamp) (actor actorOrg saUserId orgId oldKeyId newKeyId : Uuid) :
    AuditEvent :=
  onTarget s .securityStateChange "api_key.rotated" actor actorOrg "api_key" (some saUserId) orgId
    (texts [("old_key_id", uuidToString oldKeyId), ("new_key_id", uuidToString newKeyId)])

/-- A flag was set, with the value before and after. -/
def featureSet (s : Stamp) (actor actorOrg orgId : Uuid) (slug : String) (oldValue : Option Value)
    (newValue : Value) (selfService : Bool) : AuditEvent :=
  onTarget s .tenantsStateChange "feature.set" actor actorOrg "feature" none orgId
    (.object [("slug", .string slug), ("old_value", oldValue.getD .null), ("new_value", newValue),
      ("self_service", .bool selfService)])

/-- A flag was cleared, with the value before. -/
def featureCleared (s : Stamp) (actor actorOrg orgId : Uuid) (slug : String)
    (oldValue : Option Value) (selfService : Bool) : AuditEvent :=
  onTarget s .tenantsStateChange "feature.cleared" actor actorOrg "feature" none orgId
    (.object [("slug", .string slug), ("old_value", oldValue.getD .null),
      ("self_service", .bool selfService)])

end AuditEvent

/-- Why an event is not accepted (Rust `RecorderError`). -/
inductive RecorderError
  | channelFull
  | closed
deriving DecidableEq

/-- The bounded channel between the use cases and the audit worker. -/
structure AuditChannel where
  events : List AuditEvent
  capacity : ℕ
  closed : Bool
deriving DecidableEq

/-- Enqueue an event without waiting (`ChannelAuditRecorder::record`, a `try_send`). -/
def AuditChannel.record (c : AuditChannel) (e : AuditEvent) :
    Except RecorderError Unit × AuditChannel :=
  if c.closed then (.error .closed, c)
  else if c.events.length < c.capacity then (.ok (), { c with events := c.events ++ [e] })
  else (.error .channelFull, c)

end Egras
