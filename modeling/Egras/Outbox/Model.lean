import Egras.Jobs.Repository

/-!
# Outbox: data model and statements

Port of `outbox/model.rs` and of the statements of `outbox_repository_pg.rs`: the event row, the
request that appends one, and the three statements as functions of the `outbox_events` table. The
claim is split in two, as its `FOR UPDATE SKIP LOCKED` locks row after row: `unrelayed` gives the
rows that it goes through, in order, and the relayer locks them.

Rust → Lean naming: `append_in_tx` → `appendInTx`, `mark_relayed_in_tx` → `markRelayedInTx`; columns
and fields in camel case.
-/

namespace Egras.Outbox
open Egras.Lib Egras.Jobs

/-- A row of `outbox_events` (Rust `OutboxEvent`). -/
structure OutboxEvent where
  id : Uuid
  aggregateType : Option String
  aggregateId : Option Uuid
  eventType : String
  payload : Value
  createdAt : Timestamp
  relayedAt : Option Timestamp
  relayAttempts : Int
  lastError : Option String
deriving DecidableEq

/-- The `outbox_events` table under its primary key. -/
abbrev OutboxTable := Table OutboxEvent OutboxEvent.id

/-- An event that is to be recorded (Rust `AppendRequest`). -/
structure AppendRequest where
  aggregateType : Option String
  aggregateId : Option Uuid
  eventType : String
  payload : Value
deriving DecidableEq

namespace AppendRequest

/-- An event of no aggregate (Rust `AppendRequest::new`). -/
def new (eventType : String) (payload : Value) : AppendRequest := ⟨none, none, eventType, payload⟩

/-- The row that an append inserts. -/
def event (req : AppendRequest) (id : Uuid) (now : Timestamp) : OutboxEvent where
  id := id
  aggregateType := req.aggregateType
  aggregateId := req.aggregateId
  eventType := req.eventType
  payload := req.payload
  createdAt := now
  relayedAt := none
  relayAttempts := 0
  lastError := none

end AppendRequest

/-- Insert an event (Rust `append_in_tx`). -/
def appendInTx (t : OutboxTable) (id : Uuid) (req : AppendRequest) (now : Timestamp) :
    Option OutboxTable :=
  t.insert? (req.event id now)

/-- The rows of the claim in its order: `WHERE relayed_at IS NULL ORDER BY created_at ASC, id ASC`. -/
def unrelayed (t : OutboxTable) : List OutboxEvent :=
  (t.select (fun e => e.relayedAt = none)).insertionSort
    (fun a b => a.createdAt < b.createdAt ∨ a.createdAt = b.createdAt ∧ a.id ≤ b.id)

/-- An event that has been relayed. -/
def OutboxEvent.relayed (e : OutboxEvent) (now : Timestamp) : OutboxEvent :=
  { e with relayedAt := some now }

/-- A relayed event keeps its id. -/
@[simp] lemma relayed_id {e : OutboxEvent} {now : Timestamp} : (e.relayed now).id = e.id := rfl

/-- Mark events as relayed (Rust `mark_relayed_in_tx`). -/
def markRelayedInTx (t : OutboxTable) (ids : List Uuid) (now : Timestamp) : OutboxTable :=
  t.updateWhere (fun e => e.id ∈ ids) (fun e => e.relayed now) (fun _ => relayed_id)

/-- The row that `enqueue_in_tx` inserts. -/
def pendingJob (id : Uuid) (req : EnqueueRequest) (now : Timestamp) : Job where
  id := id
  kind := req.kind
  payload := req.payload
  state := .pending
  attempts := 0
  maxAttempts := req.maxAttempts
  runAt := req.runAt
  lockedUntil := none
  lockedBy := none
  lastError := none
  createdAt := now
  updatedAt := now

/-- A job is enqueued as a pending row. -/
lemma enqueueInTx_eq {t : JobsTable} {id : Uuid} {req : EnqueueRequest} {now : Timestamp} :
    enqueueInTx t id req now = t.insert? (pendingJob id req now) := rfl

section Claim
variable {t : OutboxTable} {e : OutboxEvent} {ids : List Uuid} {now : Timestamp}

/-- The claim goes through no event twice. -/
lemma nodup_unrelayed : ((unrelayed t).map OutboxEvent.id).Nodup := by
  have hselect : ((t.select (fun e => e.relayedAt = none)).map OutboxEvent.id).Nodup :=
    (List.filter_sublist.map OutboxEvent.id).nodup t.nodup
  exact ((List.perm_insertionSort _ _).map OutboxEvent.id).nodup_iff.mpr hselect

/-- The named events are relayed, the others stay. -/
lemma mem_markRelayedInTx : e ∈ markRelayedInTx t ids now ↔
    ∃ q ∈ t, (if q.id ∈ ids then q.relayed now else q) = e := by
  refine (@Table.mem_updateWhere _ _ _ t _ _ (fun _ => relayed_id) e).trans ?_
  simp only [decide_eq_true_eq]

/-- Events keep their identifier, and no other appears. -/
lemma id_of_mem_markRelayedInTx (h : e ∈ markRelayedInTx t ids now) : ∃ q ∈ t, q.id = e.id := by
  obtain ⟨q, hq, rfl⟩ := mem_markRelayedInTx.mp h
  refine ⟨q, hq, ?_⟩
  split <;> rfl

end Claim
end Egras.Outbox
