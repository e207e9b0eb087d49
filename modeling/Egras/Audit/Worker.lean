import Egras.Base.Time
import Egras.Db.Constraints
import Egras.Lib.Transition

/-!
# The audit worker

The recorder puts audit events on a bounded channel, one worker takes them off and writes each to
`audit_events`, again after a pause when the insert reports an error, until it has tried
`max_retries` times more. An insert may get lost, and it may take effect while its answer gets lost
(`InsertFate`); the primary key refuses an event that is there already.

One turn is one thing that happens to the channel or to the worker. The state also keeps which
events the channel has accepted and which inserts the worker has made, in order; no turn looks at
these.

Rust → Lean naming: `ChannelAuditRecorder::record` → `AuditDelivery.record`, `rx.recv` →
`DeliveryTurn.receives`, `repo.insert` → `DeliveryTurn.inserts`, `tokio::time::sleep` →
`WorkerPos.sleeping`, the error arm of `write_with_retry` → `AuditWorker.afterInsert`.
-/

namespace Egras
open Lib

/-- The `ipnetwork` crate: the address in a text, if there is one, as the database gives it back. -/
class IpNetwork where
  host : String → Option String

/-- The row of an event; a text that is not an address is left out. -/
def AuditEvent.row [IpNetwork] (e : AuditEvent) : AuditEvent :=
  { e with ipAddress := e.ipAddress.bind IpNetwork.host }

/-- The row of an event has its id. -/
@[simp] lemma AuditEvent.row_id [IpNetwork] {e : AuditEvent} : e.row.id = e.id := rfl

/-- What becomes of an insert: the database answers it, nothing comes of it, or it has its effect
and the answer gets lost. The last two report an error. -/
inductive InsertFate
  | answered
  | lost
  | unconfirmed
deriving DecidableEq

/-- Insert an event, with whether the insert reports success. -/
def insertEvent [IpNetwork] (fate : InsertFate) (t : Tables) (e : AuditEvent) : Bool × Tables :=
  match fate, t.insertAuditEvent e.row with
  | .answered, .ok t' => (true, t')
  | .unconfirmed, .ok t' => (false, t')
  | _, _ => (false, t)

/-- How often the worker retries, and how long it waits first. -/
structure AuditWorker where
  maxRetries : ℕ
  backoffInitialMs : ℕ

/-- Where the worker stands. -/
inductive WorkerPos
  | receiving
  | inserting (event : AuditEvent) (attempt backoffMs : ℕ)
  | sleeping (event : AuditEvent) (attempt backoffMs : ℕ)
  | stopped
deriving DecidableEq

/-- The worker after an insert; `attempt` is a `u32`. -/
def AuditWorker.afterInsert (worker : AuditWorker) (event : AuditEvent) (attempt backoffMs : ℕ)
    (ok : Bool) : WorkerPos :=
  if ok then .receiving
  else if worker.maxRetries < (attempt + 1) % 2 ^ 32 then .receiving
  else .sleeping event ((attempt + 1) % 2 ^ 32) backoffMs

/-- An insert that the worker has made and what it reported. -/
structure InsertCall where
  event : AuditEvent
  fate : InsertFate
  ok : Bool
deriving DecidableEq

/-- The channel, the worker and the tables, with the events accepted and the inserts made so far. -/
structure AuditDelivery where
  channel : AuditChannel
  worker : WorkerPos
  tables : Tables
  accepted : List AuditEvent
  calls : List InsertCall

/-- What happens next. -/
inductive DeliveryTurn
  | records (event : AuditEvent)
  | closes
  | receives
  | inserts (fate : InsertFate)
  | wakes

/-- The turns of the worker. -/
def DeliveryTurn.ofWorker : DeliveryTurn → Bool
  | records _ => false
  | closes => false
  | _ => true

namespace AuditDelivery

/-- An open, empty channel and a worker that waits. -/
def start (capacity : ℕ) (t : Tables) : AuditDelivery where
  channel := ⟨[], capacity, false⟩
  worker := .receiving
  tables := t
  accepted := []
  calls := []

/-- Record an event; the channel accepts it or not. -/
def record (s : AuditDelivery) (e : AuditEvent) : AuditDelivery :=
  match s.channel.record e with
  | (.ok _, channel) => { s with channel := channel, accepted := s.accepted ++ [e] }
  | (.error _, channel) => { s with channel := channel }

section Step
variable [IpNetwork] (worker : AuditWorker)

/-- One turn. -/
def next (s : AuditDelivery) : DeliveryTurn → Option AuditDelivery
  | .records e => some (s.record e)
  | .closes => some { s with channel := { s.channel with closed := true } }
  | .receives =>
    match s.worker, s.channel.events with
    | .receiving, e :: events =>
      some { s with
        channel := { s.channel with events := events }
        worker := .inserting e 0 worker.backoffInitialMs }
    | .receiving, [] => if s.channel.closed then some { s with worker := .stopped } else none
    | _, _ => none
  | .inserts fate =>
    match s.worker with
    | .inserting e attempt backoffMs =>
      let r := insertEvent fate s.tables e
      some { s with
        worker := worker.afterInsert e attempt backoffMs r.1
        tables := r.2
        calls := s.calls ++ [⟨e, fate, r.1⟩] }
    | _ => none
  | .wakes =>
    match s.worker with
    | .sleeping e attempt backoffMs =>
      some { s with worker := .inserting e attempt (satMul backoffMs 4) }
    | _ => none

/-- A turn as a step of runs. -/
def Step (s : AuditDelivery) (turn : DeliveryTurn) (s' : AuditDelivery) : Prop :=
  s.next worker turn = some s'

/-- Everything that a turn can do. -/
inductive Cause (s : AuditDelivery) : DeliveryTurn → AuditDelivery → Prop
  | refuses {e} : Cause s (.records e) s
  | accepts {e} (opened : s.channel.closed = false) : Cause s (.records e)
      { s with
        channel := { s.channel with events := s.channel.events ++ [e] }
        accepted := s.accepted ++ [e] }
  | closes : Cause s .closes { s with channel := { s.channel with closed := true } }
  | takes {e events} (waits : s.worker = .receiving) (queue : s.channel.events = e :: events) :
      Cause s .receives
        { s with
          channel := { s.channel with events := events }
          worker := .inserting e 0 worker.backoffInitialMs }
  | stops (waits : s.worker = .receiving) (queue : s.channel.events = [])
      (closed : s.channel.closed = true) : Cause s .receives { s with worker := .stopped }
  | inserts {fate e attempt backoffMs} (stands : s.worker = .inserting e attempt backoffMs) :
      Cause s (.inserts fate)
        { s with
          worker := worker.afterInsert e attempt backoffMs (insertEvent fate s.tables e).1
          tables := (insertEvent fate s.tables e).2
          calls := s.calls ++ [⟨e, fate, (insertEvent fate s.tables e).1⟩] }
  | wakes {e attempt backoffMs} (stands : s.worker = .sleeping e attempt backoffMs) :
      Cause s .wakes { s with worker := .inserting e attempt (satMul backoffMs 4) }

/-- Some turns, one after the other. -/
def perform (s : AuditDelivery) : List DeliveryTurn → Option AuditDelivery
  | [] => some s
  | turn :: turns => (s.next worker turn).bind (fun s => s.perform turns)

variable {worker} in
/-- Turns that can be performed are a run. -/
lemma run_of_perform {s t : AuditDelivery} {turns : List DeliveryTurn}
    (h : s.perform worker turns = some t) : ∃ ms, Run (Step worker) s ms t := by
  induction turns generalizing s with
  | nil =>
    cases h
    exact ⟨[], .nil⟩
  | cons turn turns ih =>
    obtain ⟨u, hnext, hrest⟩ := Option.bind_eq_some_iff.mp h
    obtain ⟨ms, run⟩ := ih hrest
    exact ⟨_, run.cons hnext⟩

end Step

/-! ## What a turn does -/

section Turns
variable [IpNetwork] {worker : AuditWorker} {s s' : AuditDelivery} {e : AuditEvent}

omit [IpNetwork] in
/-- A recording leaves all as it was, or an open channel accepts the event. -/
lemma record_cases : s.record e = s ∨
    s.channel.closed = false ∧ s.record e =
      { s with
        channel := { s.channel with events := s.channel.events ++ [e] }
        accepted := s.accepted ++ [e] } := by
  unfold record AuditChannel.record
  by_cases hclosed : s.channel.closed = true
  · rw [if_pos hclosed]
    exact Or.inl rfl
  · rw [if_neg hclosed]
    by_cases hroom : s.channel.events.length < s.channel.capacity
    · rw [if_pos hroom]
      exact Or.inr ⟨eq_false_of_ne_true hclosed, rfl⟩
    · rw [if_neg hroom]
      exact Or.inl rfl

/-- Every turn does one of these. -/
lemma cause_of_step {turn : DeliveryTurn} (h : s.Step worker turn s') : Cause worker s turn s' := by
  unfold Step at h
  cases turn with
  | records e =>
    cases h
    rcases record_cases (s := s) (e := e) with hsame | ⟨hopen, haccepts⟩
    · rw [hsame]
      exact .refuses
    · rw [haccepts]
      exact .accepts hopen
  | closes =>
    cases h
    exact .closes
  | receives =>
    simp only [next] at h
    split at h
    · rename_i hwaits hqueue
      cases h
      exact .takes hwaits hqueue
    · rename_i hwaits hqueue
      split at h
      · rename_i hclosed
        cases h
        exact .stops hwaits hqueue hclosed
      · cases h
    · cases h
  | inserts fate =>
    simp only [next] at h
    split at h
    · rename_i hstands
      cases h
      exact .inserts hstands
    · cases h
  | wakes =>
    simp only [next] at h
    split at h
    · rename_i hstands
      cases h
      exact .wakes hstands
    · cases h

/-- A worker that has not stopped can go on once the channel is closed, whatever becomes of its
insert. -/
lemma goes_on (hclosed : s.channel.closed = true) (hworks : s.worker ≠ .stopped)
    (fate : InsertFate) :
    ∃ turn ∈ [.receives, .inserts fate, .wakes], (s.next worker turn).isSome = true := by
  cases hpos : s.worker with
  | receiving =>
    refine ⟨.receives, by simp, ?_⟩
    unfold next
    rw [hpos]
    cases s.channel.events with
    | nil => simp [hclosed]
    | cons e events => rfl
  | inserting e attempt backoffMs =>
    refine ⟨.inserts fate, by simp, ?_⟩
    unfold next
    rw [hpos]
    rfl
  | sleeping e attempt backoffMs =>
    refine ⟨.wakes, by simp, ?_⟩
    unfold next
    rw [hpos]
    rfl
  | stopped => exact absurd hpos hworks

end Turns
end AuditDelivery
end Egras
