import Egras.Audit.Worker
import Egras.Db.Seeds

/-!
# Delivery of audit events

The worker handles the events that the channel has accepted one after the other, in their order. A
`Handling` is an event with what became of each of its inserts, and whether its identifier was
already taken when the worker came to it; what the inserts report follows from these alone
(`replies`), so nothing that happens to one event matters to another one with its own identifier.

`Working` is the invariant of all runs, `Delivered` what follows for a reader of the state, and
`remaining` bounds the turns that the worker still takes once the channel is closed
(`audit_delivery`).
-/

namespace Egras
open Lib

/-- What the inserts of an event report, in order. -/
def replies (taken : Bool) : List InsertFate → List Bool
  | [] => []
  | fate :: fates =>
    (decide (fate = .answered) && !taken) :: replies (taken || decide (fate ≠ .lost)) fates

/-- How the worker handles an event: whether its identifier is taken already, and what becomes of
its inserts. -/
structure Handling where
  event : AuditEvent
  taken : Bool
  fates : List InsertFate

namespace Handling

/-- What the inserts report. -/
def replies (h : Handling) : List Bool := Egras.replies h.taken h.fates

/-- The inserts with their fates and what they report. -/
def calls (h : Handling) : List InsertCall := List.zipWith (InsertCall.mk h.event) h.fates h.replies

/-- One of the inserts has its effect, if the identifier is free. -/
def reaches (h : Handling) : Bool := h.fates.any (fun fate => fate ≠ .lost)

/-- The event gets its row. -/
def stores (h : Handling) : Bool := !h.taken && h.reaches

/-- The worker is done with the event: an insert has reported success, or all attempts are used
up. -/
def Complete (maxRetries : ℕ) (h : Handling) : Prop :=
  (∃ k ≤ maxRetries, h.replies = List.replicate k false ++ [true]) ∨
    h.replies = List.replicate (maxRetries + 1) false

/-- One more insert. -/
def again (h : Handling) (fate : InsertFate) : Handling := { h with fates := h.fates ++ [fate] }

end Handling

/-! ## One event -/

section One
variable {taken : Bool} {fate : InsertFate} {fates : List InsertFate} {h : Handling} {m : ℕ}

/-- Every insert reports. -/
lemma length_replies : (replies taken fates).length = fates.length := by
  induction fates generalizing taken with
  | nil => rfl
  | cons fate fates ih => simp [replies, ih]

/-- One more insert succeeds if it is answered and the identifier is still free. -/
lemma replies_append : replies taken (fates ++ [fate]) = replies taken fates ++
    [decide (fate = .answered) && !(taken || fates.any (fun fate => fate ≠ .lost))] := by
  induction fates generalizing taken with
  | nil => simp [replies]
  | cons f fates ih =>
    rw [List.cons_append, replies, replies, ih, List.any_cons, Bool.or_assoc]
    rfl

/-- An insert that reports success has put the row there. -/
lemma stores_of_reply (h : true ∈ replies taken fates) :
    taken = false ∧ fates.any (fun fate => fate ≠ .lost) = true := by
  induction fates generalizing taken with
  | nil => cases h
  | cons fate fates ih =>
    rcases List.mem_cons.mp h with hnow | hlater
    · have hfree := Bool.and_eq_true_iff.mp hnow.symm
      have hanswered : fate = .answered := of_decide_eq_true hfree.1
      refine ⟨by simpa using hfree.2, ?_⟩
      rw [hanswered]
      rfl
    · obtain ⟨hfree, hany⟩ := ih hlater
      refine ⟨(Bool.or_eq_false_iff.mp hfree).1, ?_⟩
      rw [List.any_cons, hany, Bool.or_true]

/-- One more insert reports success when it is answered and the identifier was free. -/
lemma Handling.replies_again : (h.again fate).replies =
    h.replies ++ [decide (fate = .answered) && !(h.taken || h.reaches)] := replies_append

/-- One more insert is one more call. -/
lemma Handling.calls_again : (h.again fate).calls = h.calls ++
    [⟨h.event, fate, decide (fate = .answered) && !(h.taken || h.reaches)⟩] := by
  unfold calls
  rw [replies_again]
  exact List.zipWith_append length_replies.symm

/-- Every insert is a call. -/
lemma Handling.length_calls : h.calls.length = h.fates.length := by
  unfold calls replies
  rw [List.length_zipWith, length_replies, Nat.min_self]

/-- One more insert that is not lost has its effect. -/
lemma Handling.reaches_again : (h.again fate).reaches = (h.reaches || decide (fate ≠ .lost)) := by
  unfold reaches again
  rw [List.any_append]
  simp

/-- At most one insert more than there are retries. -/
lemma Handling.Complete.length_le (hc : h.Complete m) : h.fates.length ≤ m + 1 := by
  have hlength : h.replies.length = h.fates.length := length_replies
  rcases hc with ⟨k, hk, heq⟩ | heq
  · rw [heq] at hlength
    simp at hlength
    omega
  · rw [heq] at hlength
    simp at hlength
    omega

end One

/-! ## All events -/

namespace Handling

/-- The identifier of an event is there, from the start or with an event handled before. -/
def Taken (t₀ : Tables) (before : List Handling) (e : AuditEvent) : Prop :=
  (∃ r ∈ t₀.auditEvents, r.id = e.id) ∨ ∃ g ∈ before, g.event.id = e.id ∧ g.stores = true

/-- Each event has met the rows that were there when the worker came to it. -/
inductive Consistent (t₀ : Tables) : List Handling → Prop
  | nil : Consistent t₀ []
  | snoc {hs h} (before : Consistent t₀ hs) (taken : h.taken = true ↔ Taken t₀ hs h.event) :
      Consistent t₀ (hs ++ [h])

section Tables
variable [IpNetwork] {t₀ t : Tables} {hs done : List Handling} {h : Handling} {e : AuditEvent}
  {fate : InsertFate}

/-- The rows of the events after some handlings. -/
def rows (t₀ : Tables) (hs : List Handling) : List AuditEvent :=
  t₀.auditEvents.rows ++ (hs.filter stores).map (fun h => h.event.row)

/-- One more event adds its row if it is stored. -/
lemma rows_snoc : rows t₀ (hs ++ [h]) = rows t₀ hs ++ if h.stores then [h.event.row] else [] := by
  unfold rows
  rw [List.filter_append, List.map_append, List.append_assoc]
  cases hstores : h.stores <;> simp [hstores]

/-- An identifier is there when it is taken. -/
lemma taken_iff (hrows : t.auditEvents.rows = rows t₀ hs) :
    (∃ r ∈ t.auditEvents, r.id = e.id) ↔ Taken t₀ hs e := by
  unfold Taken rows at *
  constructor
  · rintro ⟨r, hr, hid⟩
    rw [← Table.mem_rows, hrows] at hr
    rcases List.mem_append.mp hr with hold | hnew
    · exact Or.inl ⟨r, Table.mem_rows.mp hold, hid⟩
    · obtain ⟨g, hg, rfl⟩ := List.mem_map.mp hnew
      obtain ⟨hmem, hstores⟩ := List.mem_filter.mp hg
      exact Or.inr ⟨g, hmem, hid, hstores⟩
  · rintro (⟨r, hr, hid⟩ | ⟨g, hg, hid, hstores⟩)
    · refine ⟨r, ?_, hid⟩
      rw [← Table.mem_rows, hrows]
      exact List.mem_append_left _ (Table.mem_rows.mpr hr)
    · refine ⟨g.event.row, ?_, hid⟩
      rw [← Table.mem_rows, hrows]
      exact List.mem_append_right _ (List.mem_map.mpr ⟨g, List.mem_filter.mpr ⟨hg, hstores⟩, rfl⟩)

omit [IpNetwork] in
/-- After an event its identifier is taken if it was or an insert has reached the table. -/
lemma taken_snoc (htaken : h.taken = true ↔ Taken t₀ hs h.event) :
    Taken t₀ (hs ++ [h]) h.event ↔ (h.taken || h.reaches) = true := by
  have hmore : Taken t₀ (hs ++ [h]) h.event ↔ Taken t₀ hs h.event ∨ h.stores = true := by
    unfold Taken
    constructor
    · rintro (hold | ⟨g, hg, hid, hstores⟩)
      · exact Or.inl (Or.inl hold)
      · rcases List.mem_append.mp hg with hg | hg
        · exact Or.inl (Or.inr ⟨g, hg, hid, hstores⟩)
        · cases List.mem_singleton.mp hg
          exact Or.inr hstores
    · rintro ((hold | ⟨g, hg, hid, hstores⟩) | hstores)
      · exact Or.inl hold
      · exact Or.inr ⟨g, List.mem_append_left _ hg, hid, hstores⟩
      · exact Or.inr ⟨h, by simp, rfl, hstores⟩
  rw [hmore, ← htaken]
  unfold stores
  cases h.taken <;> simp

omit [IpNetwork] in
/-- What each event has met, also in the middle. -/
lemma Consistent.taken_of_split {before after : List Handling} (hc : Consistent t₀ hs)
    (heq : hs = before ++ h :: after) : h.taken = true ↔ Taken t₀ before h.event := by
  induction hc generalizing after with
  | nil => simp at heq
  | @snoc hs g _ taken ih =>
    rcases List.eq_nil_or_concat after with rfl | ⟨rest, last, rfl⟩
    · obtain ⟨rfl, hlast⟩ := List.append_inj' heq rfl
      cases hlast
      exact taken
    · have hsplit : hs ++ [g] = (before ++ h :: rest) ++ [last] := by simp [heq]
      exact ih (List.append_inj' hsplit rfl).1

/-- An insert does what the handling says. -/
lemma insertEvent_again (fate : InsertFate) (hrows : t.auditEvents.rows = rows t₀ (done ++ [h]))
    (htaken : h.taken = true ↔ Taken t₀ done h.event) :
    (insertEvent fate t h.event).1 = (decide (fate = .answered) && !(h.taken || h.reaches)) ∧
      (insertEvent fate t h.event).2.auditEvents.rows = rows t₀ (done ++ [h.again fate]) := by
  have hthere : (∃ r ∈ t.auditEvents, r.id = h.event.id) ↔ (h.taken || h.reaches) = true :=
    (taken_iff hrows).trans (taken_snoc htaken)
  have hstores : (h.again fate).stores = (!h.taken && (h.reaches || decide (fate ≠ .lost))) := by
    unfold stores
    rw [reaches_again]
    rfl
  rw [rows_snoc] at hrows ⊢
  rw [hstores]
  cases hoccupied : h.taken || h.reaches with
  | true =>
    -- the primary key refuses the row
    have hsame : insertEvent fate t h.event = (false, t) := by
      obtain ⟨r, hr, hid⟩ := hthere.mpr hoccupied
      unfold insertEvent
      split
      · rename_i t' hinsert
        exact absurd hid ((Tables.insertAuditEvent_eq_ok hinsert).1 r hr)
      · rename_i t' hinsert
        exact absurd hid ((Tables.insertAuditEvent_eq_ok hinsert).1 r hr)
      · rfl
    rw [hsame, Bool.not_true, Bool.and_false, hrows]
    unfold stores
    revert hoccupied
    cases h.taken <;> cases h.reaches <;> simp [again]
  | false =>
    -- the row is new
    obtain ⟨hfree, hnone⟩ := Bool.or_eq_false_iff.mp hoccupied
    have hfresh : ∀ r ∈ t.auditEvents, r.id ≠ h.event.row.id := by
      intro r hr hid
      rw [hthere.mp ⟨r, hr, hid⟩] at hoccupied
      cases hoccupied
    obtain ⟨t', hinsert⟩ := Tables.insertAuditEvent_of_fresh hfresh
    have happend := (Tables.insertAuditEvent_eq_ok hinsert).2.1
    unfold stores at hrows
    rw [hfree, hnone] at hrows ⊢
    unfold insertEvent
    rw [hinsert]
    cases fate with
    | answered => exact ⟨rfl, by rw [happend, hrows]; simp [again]⟩
    | lost => exact ⟨rfl, hrows⟩
    | unconfirmed => exact ⟨rfl, by rw [happend, hrows]; simp [again]⟩

end Tables
end Handling

/-! ## Runs -/

namespace AuditDelivery

/-- How far the worker is with the events that it has taken off the channel. -/
def Phase (maxRetries : ℕ) (s : AuditDelivery) (handled : List Handling) : Prop :=
  match s.worker with
  | .receiving => ∀ h ∈ handled, h.Complete maxRetries
  | .stopped => (∀ h ∈ handled, h.Complete maxRetries) ∧ s.channel.closed = true ∧
      s.channel.events = []
  | .inserting e attempt _ | .sleeping e attempt _ => ∃ done h, handled = done ++ [h] ∧
      (∀ g ∈ done, g.Complete maxRetries) ∧ h.event = e ∧ h.replies = List.replicate attempt false ∧
      attempt ≤ maxRetries

section Invariant
variable [IpNetwork] {worker : AuditWorker} {t₀ : Tables} {s s' : AuditDelivery}
  {handled : List Handling}

/-- The invariant: what the worker has done is the handling of the first events accepted. -/
structure Working (worker : AuditWorker) (t₀ : Tables) (s : AuditDelivery)
    (handled : List Handling) : Prop where
  ordered : s.accepted = handled.map Handling.event ++ s.channel.events
  calls : s.calls = handled.flatMap Handling.calls
  rows : s.tables.auditEvents.rows = Handling.rows t₀ handled
  consistent : Handling.Consistent t₀ handled
  phase : s.Phase worker.maxRetries handled

/-- At the start the worker has handled nothing. -/
lemma working_start {capacity : ℕ} : Working worker t₀ (start capacity t₀) [] :=
  ⟨rfl, rfl, by simp [Handling.rows, start], .nil, fun _ hh => nomatch hh⟩

omit [IpNetwork] in
/-- After an insert the worker is done with the event, or goes on with one attempt more. -/
lemma afterInsert_cases (e : AuditEvent) (ok : Bool) {attempt backoffMs : ℕ}
    (hworker : worker.maxRetries < 2 ^ 32 - 1) (hattempt : attempt ≤ worker.maxRetries) :
    (ok = true ∨ attempt = worker.maxRetries) ∧
        worker.afterInsert e attempt backoffMs ok = .receiving ∨
      ok = false ∧ attempt < worker.maxRetries ∧
        worker.afterInsert e attempt backoffMs ok = .sleeping e (attempt + 1) backoffMs := by
  have hcount : (attempt + 1) % 2 ^ 32 = attempt + 1 := Nat.mod_eq_of_lt (by omega)
  unfold AuditWorker.afterInsert
  rw [hcount]
  cases ok with
  | true => exact Or.inl ⟨Or.inl rfl, rfl⟩
  | false =>
    by_cases hlast : worker.maxRetries < attempt + 1
    · exact Or.inl ⟨Or.inr (by omega), if_pos hlast⟩
    · exact Or.inr ⟨rfl, by omega, if_neg hlast⟩

omit [IpNetwork] in
/-- After one more insert the worker goes on or is done with the event. -/
lemma phase_again {done : List Handling} {h : Handling} {fate : InsertFate} {attempt backoffMs : ℕ}
    {ok : Bool} (hworker : worker.maxRetries < 2 ^ 32 - 1)
    (hdone : ∀ g ∈ done, g.Complete worker.maxRetries)
    (hreplies : h.replies = List.replicate attempt false) (hattempt : attempt ≤ worker.maxRetries)
    (hok : (h.again fate).replies = h.replies ++ [ok])
    (hpos : s.worker = worker.afterInsert h.event attempt backoffMs ok) :
    s.Phase worker.maxRetries (done ++ [h.again fate]) := by
  rw [hreplies] at hok
  unfold Phase
  rw [hpos]
  rcases afterInsert_cases h.event ok hworker hattempt with
    ⟨hends, hafter⟩ | ⟨rfl, hless, hafter⟩
  · rw [hafter]
    intro g hg
    rcases List.mem_append.mp hg with hg | hg
    · exact hdone g hg
    · cases List.mem_singleton.mp hg
      cases ok with
      | true => exact Or.inl ⟨attempt, hattempt, hok⟩
      | false =>
        obtain rfl := hends.resolve_left Bool.false_ne_true
        exact Or.inr (hok.trans List.replicate_succ'.symm)
  · rw [hafter]
    exact ⟨done, _, rfl, hdone, rfl, hok.trans List.replicate_succ'.symm, hless⟩

/-- Every step keeps the invariant. -/
lemma Working.step {turn : DeliveryTurn} (hworker : worker.maxRetries < 2 ^ 32 - 1)
    (hstep : s.Step worker turn s') (hs : Working worker t₀ s handled) :
    ∃ handled', Working worker t₀ s' handled' := by
  obtain ⟨hordered, hcalls, hrows, hconsistent, hphase⟩ := hs
  cases cause_of_step hstep with
  | refuses => exact ⟨handled, hordered, hcalls, hrows, hconsistent, hphase⟩
  | @accepts e opened =>
    refine ⟨handled, ?_, hcalls, hrows, hconsistent, ?_⟩
    · rw [hordered, List.append_assoc]
    · -- the worker only stops once the channel is closed
      unfold Phase at hphase ⊢
      dsimp only
      split at hphase
      · exact hphase
      · rw [hphase.2.1] at opened
        cases opened
      · exact hphase
      · exact hphase
  | closes =>
    refine ⟨handled, hordered, hcalls, hrows, hconsistent, ?_⟩
    unfold Phase at hphase ⊢
    dsimp only
    split at hphase
    · exact hphase
    · exact ⟨hphase.1, rfl, hphase.2.2⟩
    · exact hphase
    · exact hphase
  | @takes e events waits queue =>
    -- a new handling begins, without a reply so far
    unfold Phase at hphase
    rw [waits] at hphase
    rw [queue] at hordered
    refine ⟨handled ++ [⟨e, s.tables.auditEvents.any (fun r => r.id = e.id), []⟩], ?_, ?_, ?_,
      hconsistent.snoc ?_, handled, _, rfl, hphase, rfl, rfl, Nat.zero_le _⟩
    · rw [hordered, List.map_append, List.append_assoc]
      rfl
    · rw [List.flatMap_append, ← hcalls]
      simp [Handling.calls]
    · rw [Handling.rows_snoc, ← hrows]
      simp [Handling.stores, Handling.reaches]
    · rw [← Handling.taken_iff hrows, Table.any_eq_true]
      simp
  | stops waits queue closed =>
    unfold Phase at hphase
    rw [waits] at hphase
    exact ⟨handled, hordered, hcalls, hrows, hconsistent, hphase, closed, queue⟩
  | @inserts fate e attempt backoffMs stands =>
    unfold Phase at hphase
    rw [stands] at hphase
    -- the insert is one more attempt of the last handling
    obtain ⟨done, h, rfl, hdone, rfl, hreplies, hattempt⟩ := hphase
    generalize hlist : done ++ [h] = list at hconsistent
    cases hconsistent with
    | nil => simp at hlist
    | snoc before taken =>
      obtain ⟨rfl, hlast⟩ := List.append_inj' hlist rfl
      cases hlast
      obtain ⟨hok, hinserted⟩ := Handling.insertEvent_again fate hrows taken
      refine ⟨done ++ [h.again fate], ?_, ?_, hinserted, before.snoc taken, ?_⟩
      · rw [hordered, List.map_append, List.map_append]
        rfl
      · rw [List.flatMap_append, List.flatMap_singleton, Handling.calls_again, hcalls,
          List.flatMap_append, List.flatMap_singleton, List.append_assoc, hok]
      · exact phase_again hworker hdone hreplies hattempt Handling.replies_again
          (congrArg (worker.afterInsert h.event attempt backoffMs) hok)
  | wakes stands =>
    unfold Phase at hphase
    rw [stands] at hphase
    exact ⟨handled, hordered, hcalls, hrows, hconsistent, hphase⟩

/-- How many turns the worker still takes at most when the channel is closed. -/
def remaining (worker : AuditWorker) (s : AuditDelivery) : ℕ :=
  match s.worker with
  | .receiving => (2 * worker.maxRetries + 2) * s.channel.events.length + 1
  | .inserting _ attempt _ => (2 * worker.maxRetries + 2) * s.channel.events.length + 1 +
      (2 * (worker.maxRetries - attempt) + 1)
  | .sleeping _ attempt _ => (2 * worker.maxRetries + 2) * s.channel.events.length + 1 +
      (2 * (worker.maxRetries - attempt) + 2)
  | .stopped => 0

omit [IpNetwork] in
/-- A bound on the turns that are left. -/
lemma remaining_le (worker : AuditWorker) (s : AuditDelivery) : s.remaining worker ≤
    (2 * worker.maxRetries + 2) * (s.channel.events.length + 1) + 1 := by
  unfold remaining
  rw [Nat.mul_add_one]
  split <;> omega

/-- The worker is within its attempts. -/
lemma Working.attempt_le (hs : Working worker t₀ s handled) {e : AuditEvent}
    {attempt backoffMs : ℕ} (h : s.worker = .inserting e attempt backoffMs) :
    attempt ≤ worker.maxRetries := by
  obtain ⟨-, -, -, -, hphase⟩ := hs
  unfold Phase at hphase
  rw [h] at hphase
  obtain ⟨-, -, -, -, -, -, hattempt⟩ := hphase
  exact hattempt

/-- Once the channel is closed a turn of the worker brings it closer to its end. -/
lemma remaining_of_step {turn : DeliveryTurn} (hworker : worker.maxRetries < 2 ^ 32 - 1)
    (hs : Working worker t₀ s handled) (hclosed : s.channel.closed = true)
    (hstep : s.Step worker turn s') : s'.channel.closed = true ∧
      (if turn.ofWorker then 1 else 0) + s'.remaining worker ≤ s.remaining worker := by
  cases cause_of_step hstep with
  | refuses => exact ⟨hclosed, by simp [DeliveryTurn.ofWorker]⟩
  | accepts opened =>
    rw [hclosed] at opened
    cases opened
  | closes => exact ⟨rfl, by simp [DeliveryTurn.ofWorker, remaining]⟩
  | takes waits queue =>
    refine ⟨hclosed, ?_⟩
    unfold remaining
    rw [waits, queue, List.length_cons, Nat.mul_add_one]
    simp only [DeliveryTurn.ofWorker, if_true]
    omega
  | stops waits queue closed =>
    refine ⟨hclosed, ?_⟩
    unfold remaining
    rw [waits, queue]
    exact Nat.le_refl 1
  | inserts stands =>
    refine ⟨hclosed, ?_⟩
    unfold remaining
    rw [stands]
    simp only [DeliveryTurn.ofWorker, if_true]
    rcases afterInsert_cases _ _ hworker (hs.attempt_le stands) with
      ⟨-, hafter⟩ | ⟨-, hless, hafter⟩
    · rw [hafter]
      dsimp only
      omega
    · rw [hafter]
      dsimp only
      omega
  | wakes stands =>
    refine ⟨hclosed, ?_⟩
    unfold remaining
    rw [stands]
    simp only [DeliveryTurn.ofWorker, if_true]
    omega

/-- Once the channel is closed, each turn of the worker leaves fewer of them. -/
lemma turns_le {ns : List (Move AuditDelivery DeliveryTurn)}
    (hworker : worker.maxRetries < 2 ^ 32 - 1) (hs : Working worker t₀ s handled)
    (hclosed : s.channel.closed = true) (run : Run (Step worker) s ns s') :
    ((∃ handled', Working worker t₀ s' handled') ∧ s'.channel.closed = true) ∧
      ns.countP (fun n => n.label.ofWorker) + s'.remaining worker ≤ s.remaining worker := by
  induction run with
  | nil => exact ⟨⟨⟨handled, hs⟩, hclosed⟩, by simp⟩
  | snoc run step ih =>
    obtain ⟨⟨⟨handled', hworking⟩, hclosed'⟩, hcount⟩ := ih
    obtain ⟨hstays, hless⟩ := remaining_of_step hworker hworking hclosed' step
    refine ⟨⟨hworking.step hworker step, hstays⟩, ?_⟩
    rw [List.countP_append, List.countP_singleton]
    dsimp only
    omega

/-! ## What a reader of the state sees -/

/-- The state of a delivery: the events handled so far and how. -/
structure Delivered (maxRetries : ℕ) (t₀ : Tables) (s : AuditDelivery) (handled : List Handling) :
    Prop where
  /-- The worker handles the accepted events in order. -/
  ordered : s.accepted = handled.map Handling.event ++ s.channel.events
  /-- One after the other. -/
  calls : s.calls = handled.flatMap Handling.calls
  bounded : ∀ h ∈ handled, h.calls.length ≤ maxRetries + 1
  /-- The rows are those of the start and those of the events stored, each once. -/
  rows : s.tables.auditEvents.rows =
    t₀.auditEvents.rows ++ (handled.filter Handling.stores).map (fun h => h.event.row)
  once : (s.tables.auditEvents.rows.map AuditEvent.id).Nodup
  /-- An event one of whose inserts reports success is persisted. -/
  persisted : ∀ h ∈ handled, true ∈ h.replies → h.event.row ∈ s.tables.auditEvents
  /-- What the inserts of an event report depends on earlier events with its identifier only. -/
  independent : ∀ before h after, handled = before ++ h :: after →
    (h.taken = true ↔ Handling.Taken t₀ before h.event)
  /-- An event is given up only after `max_retries + 1` errors. -/
  complete : ∀ before h after, handled = before ++ h :: after →
    after ≠ [] ∨ s.worker = .receiving ∨ s.worker = .stopped → h.Complete maxRetries
  stopped : s.worker = .stopped → s.accepted = handled.map Handling.event

omit [IpNetwork] in
/-- All events are handled to the end, or the worker is at the last one. -/
lemma Phase.split {m : ℕ} (h : s.Phase m handled) : (∀ g ∈ handled, g.Complete m) ∨
    (s.worker ≠ .receiving ∧ s.worker ≠ .stopped) ∧ ∃ done last, handled = done ++ [last] ∧
      (∀ g ∈ done, g.Complete m) ∧ last.fates.length ≤ m := by
  have hlength : ∀ {g : Handling} {k : ℕ}, g.replies = List.replicate k false → g.fates.length = k := by
    intro g k hreplies
    have hsame : g.replies.length = g.fates.length := length_replies
    rw [hreplies, List.length_replicate] at hsame
    exact hsame.symm
  unfold Phase at h
  split at h
  · exact Or.inl h
  · exact Or.inl h.1
  · rename_i hpos
    obtain ⟨done, last, hlist, hdone, -, hreplies, hattempt⟩ := h
    exact Or.inr ⟨by simp [hpos], done, last, hlist, hdone, (hlength hreplies).trans_le hattempt⟩
  · rename_i hpos
    obtain ⟨done, last, hlist, hdone, -, hreplies, hattempt⟩ := h
    exact Or.inr ⟨by simp [hpos], done, last, hlist, hdone, (hlength hreplies).trans_le hattempt⟩

/-- Every event that the worker has left behind is handled completely. -/
lemma Working.complete (hs : Working worker t₀ s handled) {before after : List Handling}
    {h : Handling} (heq : handled = before ++ h :: after)
    (hend : after ≠ [] ∨ s.worker = .receiving ∨ s.worker = .stopped) :
    h.Complete worker.maxRetries := by
  rcases hs.phase.split with hall | ⟨⟨hreceiving, hstopped⟩, done, last, hlist, hdone, -⟩
  · exact hall h (by simp [heq])
  · rcases List.eq_nil_or_concat after with rfl | ⟨rest, last', rfl⟩
    · rcases hend with hnil | hpos | hpos
      · exact absurd rfl hnil
      · exact absurd hpos hreceiving
      · exact absurd hpos hstopped
    · have hsplit : done ++ [last] = (before ++ h :: rest) ++ [last'] := by
        rw [← hlist, heq]
        simp
      refine hdone h ?_
      rw [(List.append_inj' hsplit rfl).1]
      simp

/-- What has been handled has been delivered. -/
lemma Working.delivered (hs : Working worker t₀ s handled) :
    s.Delivered worker.maxRetries t₀ handled := by
  refine ⟨hs.ordered, hs.calls, fun h hh => ?_, hs.rows, s.tables.auditEvents.nodup,
    fun h hh hreply => ?_, fun before h after heq => hs.consistent.taken_of_split heq,
    fun before h after heq hend => hs.complete heq hend, fun hstopped => ?_⟩
  · rw [Handling.length_calls]
    rcases hs.phase.split with hall | ⟨-, done, last, rfl, hdone, hlast⟩
    · exact (hall h hh).length_le
    · rcases List.mem_append.mp hh with hh | hh
      · exact (hdone h hh).length_le
      · cases List.mem_singleton.mp hh
        omega
  · obtain ⟨hfree, hreaches⟩ := stores_of_reply hreply
    have hstores : h.stores = true := by
      unfold Handling.stores Handling.reaches
      rw [hfree, hreaches]
      rfl
    rw [← Table.mem_rows, hs.rows]
    exact List.mem_append_right _ (List.mem_map.mpr ⟨h, List.mem_filter.mpr ⟨hh, hstores⟩, rfl⟩)
  · have hphase := hs.phase
    unfold Phase at hphase
    rw [hstopped] at hphase
    have hordered := hs.ordered
    rw [hphase.2.2, List.append_nil] at hordered
    exact hordered

/-- The worker handles the accepted events in order, each with at most `max_retries + 1` inserts and
at most one row, persists each that one insert reports to be there, and deals with each regardless of
the others; once the channel is closed it takes a bounded number of turns, is never stuck, and has
handled all accepted events to the end when it stops. -/
theorem audit_delivery (worker : AuditWorker) (hworker : worker.maxRetries < 2 ^ 32 - 1)
    (capacity : ℕ) (t₀ : Tables) (ms : List (Move AuditDelivery DeliveryTurn)) (s : AuditDelivery)
    (run : Run (Step worker) (start capacity t₀) ms s) :
    (∃ handled, s.Delivered worker.maxRetries t₀ handled) ∧
      (s.channel.closed = true →
        (∀ ns t, Run (Step worker) s ns t → ns.countP (fun n => n.label.ofWorker) ≤
          (2 * worker.maxRetries + 2) * (s.channel.events.length + 1) + 1) ∧
        (s.worker ≠ .stopped → ∀ fate,
          ∃ turn ∈ [.receives, .inserts fate, .wakes], (s.next worker turn).isSome = true)) := by
  obtain ⟨handled, hs⟩ : ∃ handled, Working worker t₀ s handled :=
    run.invariant (fun s => ∃ handled, Working worker t₀ s handled) (fun _ => True)
      ⟨[], working_start⟩ (fun _ _ _ step _ ⟨_, hs⟩ => hs.step hworker step) (fun _ _ => trivial)
  refine ⟨⟨handled, hs.delivered⟩, fun hclosed => ⟨fun ns t rest => ?_, fun hworks fate =>
    goes_on hclosed hworks fate⟩⟩
  have hcount := (turns_le hworker hs hclosed rest).2
  have hbound := remaining_le worker s
  omega

end Invariant

/-- A channel for two events: a third one is refused, the first one is inserted twice as the first
answer gets lost, the second one twice as its first insert does. -/
def twoDeliveries : List DeliveryTurn :=
  [.records (.loginSuccess ⟨0x51, 0⟩ 0x11 0xa), .records (.loginSuccess ⟨0x52, 0⟩ 0x12 0xb),
    .records (.loginSuccess ⟨0x53, 0⟩ 0x12 0xb), .closes, .receives, .inserts .unconfirmed, .wakes,
    .inserts .answered, .receives, .inserts .lost, .wakes, .inserts .answered, .receives]

/-- Both events get their rows, in order. -/
theorem audit_delivery_two :
    ∃ s, @perform ⟨some⟩ ⟨1, 100⟩ (start 2 .twoTenants) twoDeliveries = some s ∧
      s.tables.auditEvents.rows.map AuditEvent.id = [0x51, 0x52] ∧ s.worker = .stopped ∧
      ∃ handled, @Delivered ⟨some⟩ 1 .twoTenants s handled := by
  let _ : IpNetwork := ⟨some⟩
  have hends : (perform ⟨1, 100⟩ (start 2 .twoTenants) twoDeliveries).map
      (fun s => (s.tables.auditEvents.rows.map AuditEvent.id, s.worker)) =
      some ([0x51, 0x52], .stopped) := by decide +kernel
  obtain ⟨s, hs, heq⟩ := Option.map_eq_some_iff.mp hends
  obtain ⟨hrows, hstopped⟩ := Prod.mk.inj heq
  obtain ⟨ms, run⟩ := run_of_perform hs
  exact ⟨s, hs, hrows, hstopped, (audit_delivery ⟨1, 100⟩ (by decide) 2 .twoTenants ms s run).1⟩

end AuditDelivery
end Egras
