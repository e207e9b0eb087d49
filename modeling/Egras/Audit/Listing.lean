import Egras.Security.Repository

/-!
# Listing audit events

`list_events` with its dynamic filters and the use case `list_audit_events`, which resolves the
organisation that the caller may read.

Rust → Lean naming: `AuditRepositoryPg::list_events` → `listEvents`, `ListAuditEventsImpl::execute`
→ `listAuditEvents`, `AuditCursor::encode` → `encodeAuditCursor`, `is_audit_read_all` →
`isAuditReadAll`.
-/

namespace Egras
open Lib

/-- The text of a category. -/
def AuditCategory.asStr : AuditCategory → String
  | .securityStateChange => "security.state_change"
  | .securityAuth => "security.auth"
  | .securityPermissionDenial => "security.permission_denial"
  | .dataAccess => "data.access"
  | .tenantsStateChange => "tenants.state_change"

/-- The text of an outcome. -/
def Outcome.asStr : Outcome → String
  | .success => "success"
  | .failure => "failure"
  | .denied => "denied"

/-- The text form of an audit cursor: base64 of JSON with `occurred_at` and `id`. -/
class AuditCursorText where
  encodeAuditCursor : Cursor → String
  decodeAuditCursor : String → Option Cursor

/-- The filters of a query. -/
structure AuditFilter where
  organisationId : Option Uuid
  actorUserId : Option Uuid
  eventType : Option String
  category : Option String
  outcome : Option String
  from_ : Option Timestamp
  to_ : Option Timestamp
deriving DecidableEq

/-- The filters with the position and the number of rows. -/
structure AuditQueryFilter extends AuditFilter where
  cursor : Option Cursor
  limit : ℕ
deriving DecidableEq

/-- Whether an event passes the filters that are given. -/
def AuditFilter.passes (f : AuditFilter) (e : AuditEvent) : Bool :=
  f.organisationId.all (fun org => e.targetOrganisationId = some org) &&
  f.actorUserId.all (fun actor => e.actorUserId = some actor) &&
  f.eventType.all (fun et => e.eventType = et) &&
  f.category.all (fun cat => e.category.asStr = cat) &&
  f.outcome.all (fun out => e.outcome.asStr = out) &&
  f.from_.all (fun first => first ≤ e.occurredAt) &&
  f.to_.all (fun last => e.occurredAt ≤ last)

/-- A page of events with the cursor of the next one. -/
structure AuditQueryPage where
  items : List AuditEvent
  nextCursor : Option Cursor
deriving DecidableEq

/-- `SELECT ... FROM audit_events WHERE 1=1 AND ... ORDER BY occurred_at DESC, id DESC LIMIT`. -/
def listEvents (f : AuditQueryFilter) : Action SqlError AuditQueryPage := do
  let rows ← query (fun w =>
    let rows := w.tables.auditEvents.select (fun e =>
      f.passes e && f.cursor.all (fun c => c.after e.occurredAt e.id))
    (rows.insertionSort (fun a b => b.occurredAt < a.occurredAt ∨
      b.occurredAt = a.occurredAt ∧ b.id ≤ a.id)).take (f.limit + 1))
  let items := rows.take f.limit
  return ⟨items,
    if f.limit < rows.length then items.getLast?.map (fun last => ⟨last.occurredAt, last.id⟩)
    else none⟩

/-- Whether the permissions let read the events of all organisations. -/
def PermissionSet.isAuditReadAll (s : PermissionSet) : Bool := s.has "audit.read_all"

/-- The query of a listing. -/
structure ListAuditEventsRequest extends AuditFilter where
  cursor : Option String
  limit : Option Int
deriving DecidableEq

/-- A page as it is answered. -/
structure ListAuditEventsResponse where
  items : List AuditEvent
  nextCursor : Option String
deriving DecidableEq

/-- The organisation whose events the caller reads: the one it asks for when it may read all, else
its own. -/
def effectiveOrgFilter (organisationId : Option Uuid) (callerOrg : Uuid) (perms : PermissionSet) :
    Except AppError (Option Uuid) :=
  if perms.isAuditReadAll then .ok organisationId
  else if perms.has "audit.read_own_org" then
    match organisationId with
    | none => .ok (some callerOrg)
    | some o => if o = callerOrg then .ok (some o) else .error (.notFound "organisation")
  else .error (.permissionDenied "audit.read_own_org")

/-- List the events that the caller may see. -/
def listAuditEvents [AuditCursorText] (req : ListAuditEventsRequest) (callerOrg : Uuid)
    (perms : PermissionSet) : Action AppError ListAuditEventsResponse := do
  let org ← Prog.ofExcept (effectiveOrgFilter req.organisationId callerOrg perms)
  let limit := (max 1 (min (req.limit.getD 100) 200)).toNat
  let cursor ← Prog.ofExcept (decodeCursor AuditCursorText.decodeAuditCursor req.cursor
    (AppError.fieldError "cursor" "invalid"))
  let page ← (listEvents { req.toAuditFilter with
    organisationId := org, cursor := cursor, limit := limit }).mapErr (fun _ => AppError.internal)
  return ⟨page.items, page.nextCursor.map AuditCursorText.encodeAuditCursor⟩

end Egras
