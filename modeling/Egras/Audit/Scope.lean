import Egras.Listings.Complete

/-!
# Which audit events a caller reads

A caller without `audit.read_all` reads the events of its own organisation, whatever it asks for:
every filter only narrows the query, the organisation predicate is always there, and a cursor, forged
or not, is a position to start from. So two tables with the same events of that organisation answer
alike (`listAuditEvents_scoped`). `run_listAuditEvents` says what a request answers in terms of the
events that match, from which everything else follows.
-/

namespace Egras
open Lib

/-- The number of events asked for: 100 if nothing is said, at least one and at most 200. -/
def auditLimit (limit : Option Int) : ℕ := (max 1 (min (limit.getD 100) 200)).toNat

/-- The events past a position that pass some filters, in the order of the listing. -/
def Tables.eventsPast (t : Tables) (filter : AuditFilter) (after : Option Cursor) :
    List AuditEvent :=
  since AuditEvent.position Cursor.gt (t.eventsOf filter) after

section Scope
variable [AuditCursorText] {req : ListAuditEventsRequest} {callerOrg : Uuid} {perms : PermissionSet}
  {w v : World} {t t' : Tables} {filter : AuditFilter} {after : Option Cursor} {e : AuditEvent}

/-- The response that holds the first events of some. -/
def eventsResponse (found : List AuditEvent) (limit : ℕ) : ListAuditEventsResponse where
  items := found.take limit
  nextCursor := (if limit < found.length then (found.take limit).getLast?.map AuditEvent.position
    else none).map AuditCursorText.encodeAuditCursor

omit [AuditCursorText] in
/-- An event lies past a position in descending order. -/
lemma after_iff {c : Cursor} {at_ : Timestamp} {id : Uuid} :
    c.after at_ id = true ↔ at_ < c.createdAt ∨ at_ = c.createdAt ∧ id < c.id := by
  simp [Cursor.after]

omit [AuditCursorText] in
/-- The events after a cursor that pass the filter. -/
lemma mem_eventsPast : e ∈ t.eventsPast filter after ↔
    e ∈ t.auditEvents ∧ filter.passes e = true ∧
      ∀ c, after = some c → c.after e.occurredAt e.id = true := by
  unfold Tables.eventsPast since
  rw [List.mem_filter, mem_eventsOf, and_assoc, Option.all_eq_true]
  rfl

omit [AuditCursorText] in
/-- They come in the order of their positions. -/
lemma ascending_eventsPast : Ascending AuditEvent.position Cursor.gt (t.eventsPast filter after) :=
  ascending_eventsOf.sublist List.filter_sublist

omit [AuditCursorText] in
/-- Tables with the same matching events list them alike. -/
lemma eventsPast_congr (h : ∀ e, filter.passes e = true → (e ∈ t.auditEvents ↔ e ∈ t'.auditEvents)) :
    t.eventsPast filter after = t'.eventsPast filter after := by
  refine ascending_unique Cursor.keyOrder_gt ascending_eventsPast ascending_eventsPast fun e => ?_
  rw [mem_eventsPast, mem_eventsPast]
  constructor
  · rintro ⟨hmem, hpasses, hafter⟩
    exact ⟨(h e hpasses).mp hmem, hpasses, hafter⟩
  · rintro ⟨hmem, hpasses, hafter⟩
    exact ⟨(h e hpasses).mpr hmem, hpasses, hafter⟩

/-- What a request answers. -/
lemma run_listAuditEvents : (listAuditEvents req callerOrg perms).run w =
    match effectiveOrgFilter req.organisationId callerOrg perms with
    | .error e => (.error e, w)
    | .ok org =>
      match decodeCursor AuditCursorText.decodeAuditCursor req.cursor
        (AppError.fieldError "cursor" "invalid") with
      | .error e => (.error e, w)
      | .ok after =>
        if w.answers then
          (.ok (eventsResponse (w.tables.eventsPast
            { req.toAuditFilter with organisationId := org } after) (auditLimit req.limit)), w.tick)
        else (.error .internal, w.tick) := by
  unfold listAuditEvents
  rw [Prog.run_bind, Prog.run_ofExcept]
  cases effectiveOrgFilter req.organisationId callerOrg perms with
  | error e => rfl
  | ok org =>
    dsimp only
    rw [Prog.run_bind, Prog.run_ofExcept]
    cases decodeCursor AuditCursorText.decodeAuditCursor req.cursor
      (AppError.fieldError "cursor" "invalid") with
    | error e => rfl
    | ok after =>
      have hrows : (w.tables.auditEvents.select (fun e =>
          { req.toAuditFilter with organisationId := org }.passes e &&
            after.all (fun c => c.after e.occurredAt e.id))).insertionSort
          (fun a b => b.occurredAt < a.occurredAt ∨ b.occurredAt = a.occurredAt ∧ b.id ≤ a.id) =
          w.tables.eventsPast { req.toAuditFilter with organisationId := org } after :=
        Cursor.keyOrder_gt.insertionSort_since
          (fun a b => Cursor.descending_iff a.position b.position) eventPosition_injective after
      unfold listEvents
      dsimp only
      rw [Prog.run_bind, Prog.run_mapErr, Prog.run_bind, run_query, hrows]
      generalize w.tables.eventsPast { req.toAuditFilter with organisationId := org } after = found
      -- the row that is fetched to look ahead is cut off again
      have hcut : (found.take (auditLimit req.limit + 1)).take (auditLimit req.limit) =
          found.take (auditLimit req.limit) := by
        rw [List.take_take, Nat.min_eq_left (Nat.le_succ _)]
      have hmore : auditLimit req.limit < (found.take (auditLimit req.limit + 1)).length ↔
          auditLimit req.limit < found.length := by
        rw [List.length_take]
        omega
      cases w.answers with
      | false => rfl
      | true =>
        simp only [if_true]
        change (Except.ok (ListAuditEventsResponse.mk
          ((found.take (auditLimit req.limit + 1)).take (auditLimit req.limit))
          ((if auditLimit req.limit < (found.take (auditLimit req.limit + 1)).length then
            ((found.take (auditLimit req.limit + 1)).take (auditLimit req.limit)).getLast?.map
              AuditEvent.position else none).map AuditCursorText.encodeAuditCursor)), w.tick) = _
        rw [hcut, if_congr hmore rfl rfl]
        rfl

/-! ## The organisation predicate -/

omit [AuditCursorText] in
/-- Whoever may not read all reads its own organisation. -/
lemma effectiveOrgFilter_own {organisationId org : Option Uuid} (hall : perms.isAuditReadAll = false)
    (h : effectiveOrgFilter organisationId callerOrg perms = .ok org) : org = some callerOrg := by
  unfold effectiveOrgFilter at h
  rw [hall, if_neg Bool.false_ne_true] at h
  split at h
  · split at h
    · cases h
      rfl
    · rename_i o
      split at h
      · rename_i hown
        cases h
        rw [hown]
      · cases h
  · cases h

omit [AuditCursorText] in
/-- The events that match are those that pass the filters of the request and that the caller may
read. -/
lemma passes_effective {org : Option Uuid}
    (h : effectiveOrgFilter filter.organisationId callerOrg perms = .ok org) :
    { filter with organisationId := org }.passes e = true ↔ filter.passes e = true ∧
      (perms.isAuditReadAll = true ∨ e.targetOrganisationId = some callerOrg) := by
  cases hall : perms.isAuditReadAll with
  | true =>
    unfold effectiveOrgFilter at h
    rw [hall] at h
    cases h
    simp
  | false =>
    obtain rfl := effectiveOrgFilter_own hall h
    unfold effectiveOrgFilter at h
    rw [hall, if_neg Bool.false_ne_true] at h
    cases horg : filter.organisationId with
    | none =>
      simp only [AuditFilter.passes, horg, Option.all_some, Option.all_none, Bool.and_eq_true,
        decide_eq_true_iff, Bool.false_eq_true, false_or]
      tauto
    | some o =>
      rw [horg] at h
      dsimp only at h
      split at h
      · split at h
        · rename_i hown
          subst hown
          simp only [AuditFilter.passes, horg, Option.all_some, Bool.and_eq_true,
            decide_eq_true_iff, Bool.false_eq_true, false_or]
          tauto
        · cases h
      · cases h

/-- What a page that comes back tells. -/
lemma listAuditEvents_eq_ok {res : ListAuditEventsResponse}
    (h : (listAuditEvents req callerOrg perms).run w = (.ok res, v)) : ∃ org after,
    effectiveOrgFilter req.organisationId callerOrg perms = .ok org ∧
      decodeCursor AuditCursorText.decodeAuditCursor req.cursor
        (AppError.fieldError "cursor" "invalid") = .ok after ∧
      res.items = (w.tables.eventsPast { req.toAuditFilter with organisationId := org } after).take
        (auditLimit req.limit) := by
  rw [run_listAuditEvents] at h
  split at h
  · cases h
  · rename_i org horg
    split at h
    · cases h
    · rename_i after hafter
      split at h
      · cases h
        exact ⟨org, after, horg, hafter, rfl⟩
      · cases h

omit [AuditCursorText] in
/-- The position that a cursor decodes to. -/
lemma decodeCursor_eq_ok {ε : Type} {decode : String → Option Cursor} {raw : Option String}
    {invalid : ε} (h : decodeCursor decode raw invalid = .ok after) :
    after = raw.bind decode := by
  unfold decodeCursor at h
  split at h
  · cases h
    rfl
  · split at h
    · rename_i hdecode
      cases h
      exact hdecode.symm
    · cases h

/-- A caller without `audit.read_all` gets events of its own organisation only, the same whatever the
other events are; without any permission it gets an error and nothing is asked of the database; and
a page holds the first of the matching events past the cursor, from the latest to the earliest. -/
theorem listAuditEvents_scoped (req : ListAuditEventsRequest) (callerOrg : Uuid)
    (perms : PermissionSet) :
    (perms.isAuditReadAll = false → ∀ w res w',
      (listAuditEvents req callerOrg perms).run w = (.ok res, w') →
        ∀ e ∈ res.items, e.targetOrganisationId = some callerOrg) ∧
    (perms.isAuditReadAll = false → ∀ w v : World, w.answers = v.answers →
      (∀ e, e.targetOrganisationId = some callerOrg →
        (e ∈ w.tables.auditEvents ↔ e ∈ v.tables.auditEvents)) →
      ((listAuditEvents req callerOrg perms).run w).1 =
        ((listAuditEvents req callerOrg perms).run v).1) ∧
    (perms.isAuditReadAll = false → perms.has "audit.read_own_org" = false → ∀ w,
      (listAuditEvents req callerOrg perms).run w =
        (.error (.permissionDenied "audit.read_own_org"), w)) ∧
    ∀ w res w', (listAuditEvents req callerOrg perms).run w = (.ok res, w') →
      ∃ matching : List AuditEvent,
        matching.Pairwise (fun a b => b.occurredAt < a.occurredAt ∨
          b.occurredAt = a.occurredAt ∧ b.id < a.id) ∧
        (∀ e, e ∈ matching ↔ e ∈ w.tables.auditEvents ∧ req.passes e = true ∧
          (perms.isAuditReadAll = true ∨ e.targetOrganisationId = some callerOrg) ∧
          ∀ c, req.cursor.bind AuditCursorText.decodeAuditCursor = some c →
            e.occurredAt < c.createdAt ∨ e.occurredAt = c.createdAt ∧ e.id < c.id) ∧
        res.items = matching.take (auditLimit req.limit) := by
  refine ⟨fun hall w res w' hrun e he => ?_, fun hall w v hanswers hagree => ?_,
    fun hall hown w => ?_, fun w res w' hrun => ?_⟩
  -- an event that is returned passes the filter with the organisation predicate in it
  · obtain ⟨org, after, horg, -, hitems⟩ := listAuditEvents_eq_ok hrun
    rw [hitems] at he
    obtain ⟨-, hpasses, -⟩ := mem_eventsPast.mp (List.mem_of_mem_take he)
    refine ((passes_effective horg).mp hpasses).2.resolve_left ?_
    rw [hall]
    exact Bool.false_ne_true
  -- the two runs go through the same checks and select the same events
  · rw [run_listAuditEvents, run_listAuditEvents, ← hanswers]
    split
    · rfl
    · rename_i org horg
      split
      · rfl
      · rename_i after hafter
        have hsame : w.tables.eventsPast { req.toAuditFilter with organisationId := org } after =
            v.tables.eventsPast { req.toAuditFilter with organisationId := org } after := by
          refine eventsPast_congr fun e hpasses => hagree e ?_
          refine ((passes_effective horg).mp hpasses).2.resolve_left ?_
          rw [hall]
          exact Bool.false_ne_true
        rw [hsame]
        cases w.answers <;> rfl
  -- the check comes before the cursor is decoded
  · rw [run_listAuditEvents]
    unfold effectiveOrgFilter
    rw [hall, hown]
    rfl
  · obtain ⟨org, after, horg, hafter, hitems⟩ := listAuditEvents_eq_ok hrun
    obtain rfl := decodeCursor_eq_ok hafter
    refine ⟨_, ?_, fun e => ?_, hitems⟩
    · exact ascending_eventsPast.imp fun hgt => after_iff.mp hgt
    · rw [mem_eventsPast, passes_effective horg, and_assoc]
      simp only [after_iff]

end Scope

/-- A table with an event of each of two tenants. -/
def twoTrails : Tables :=
  { Tables.twoTenants with
    auditEvents := ⟨[.organisationCreated ⟨0x51, 1⟩ 0x11 0xa 0xa "acme",
      .organisationCreated ⟨0x52, 2⟩ 0x12 0xb 0xb "globex"], by decide⟩ }

/-- A request for all events. -/
def anyEvents : ListAuditEventsRequest := ⟨⟨none, none, none, none, none, none, none⟩, none, none⟩

/-- A tenant that asks for all events gets its own. -/
theorem listAuditEvents_scoped_twoTrails :
    ∃ res w', (@listAuditEvents pagingAudit anyEvents 0xa (.fromCodes ["audit.read_own_org"])).run
        (.calm twoTrails 0) = (.ok res, w') ∧ res.items.map AuditEvent.id = [0x51] ∧
      ∀ e ∈ res.items, e.targetOrganisationId = some 0xa := by
  let _ : AuditCursorText := pagingAudit
  have hids : ((listAuditEvents anyEvents 0xa (.fromCodes ["audit.read_own_org"])).run
      (.calm twoTrails 0)).1.toOption.map (fun res => res.items.map AuditEvent.id) =
        some [0x51] := by decide +kernel
  cases hrun : (listAuditEvents anyEvents 0xa (.fromCodes ["audit.read_own_org"])).run
      (.calm twoTrails 0) with
  | mk r w' =>
    rw [hrun] at hids
    cases r with
    | error e => cases hids
    | ok res =>
      exact ⟨res, w', rfl, Option.some.inj hids,
        (listAuditEvents_scoped anyEvents 0xa _).1 (by decide +kernel) _ res w' hrun⟩

end Egras
