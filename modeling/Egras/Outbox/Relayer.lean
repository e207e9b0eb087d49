import Egras.Lib.Interleave
import Egras.Lib.Locks
import Egras.Outbox.Model
import Egras.Security.Secrets

/-!
# Outbox: the relayer

Port of `OutboxRelayer::tick` and of the transactions that append events, as transactions that
interleave. What a transaction writes becomes visible with its commit. Until then it holds the locks
on the events that it has claimed and on the identifiers that it has inserted; `SKIP LOCKED` passes
over an event that another transaction holds, while an insertion under a held identifier waits. At
any point a transaction may be dropped, which rolls it back.

`source` records from which event a committed job was created; no step looks at it.

Rust → Lean naming: `OutboxRelayerConfig` keeps its name; the fields `batch_size` and
`job_max_attempts` in camel case.
-/

namespace Egras.Outbox
open Egras.Lib Egras.Jobs

/-- How a relayer is set up (Rust `OutboxRelayerConfig`). -/
structure OutboxRelayerConfig where
  batchSize : ℕ
  jobMaxAttempts : Int
deriving DecidableEq

/-- The job that a tick creates from an event: what `enqueue_in_tx` inserts for
`EnqueueRequest::now(..).with_max_attempts(..)`. -/
def OutboxRelayerConfig.job (cfg : OutboxRelayerConfig) (e : OutboxEvent) (id : Uuid)
    (start now : Timestamp) : Job :=
  pendingJob id ((EnqueueRequest.now e.eventType e.payload now).withMaxAttempts cfg.jobMaxAttempts)
    start

/-- What a transaction locks: a claimed event, or the identifier of a row that it inserts. -/
inductive RowRef
  | event (id : Uuid)
  | job (id : Uuid)
deriving DecidableEq

/-- The committed tables, the locks of the open transactions, the clock and the identifiers that
will be drawn. -/
structure OutboxState (ι : Type) where
  outbox : OutboxTable
  jobs : JobsTable
  source : Uuid → Option Uuid
  locks : Locks ι RowRef
  now : Timestamp
  uuids : List Uuid

/-- Where a tick stands: its transaction's `now()`, the events it has still to look at or to
enqueue, the events it has claimed and the jobs it has created from them. -/
inductive TickPos
  | claim
  | claiming (start : Timestamp) (rows events : List OutboxEvent)
  | enqueue (start : Timestamp) (events todo : List OutboxEvent)
      (created : List (OutboxEvent × Job))
  | mark (start : Timestamp) (events : List OutboxEvent) (created : List (OutboxEvent × Job))
  | commit (start : Timestamp) (events : List OutboxEvent) (created : List (OutboxEvent × Job))
  | done (r : Except Anyhow ℕ)
deriving DecidableEq

/-- Where a transaction stands that appends events. -/
inductive AppendPos
  | start (reqs : List AppendRequest)
  | insert (start : Timestamp) (reqs : List AppendRequest) (appended : List OutboxEvent)
  | commit (appended : List OutboxEvent)
  | done (r : Except Anyhow (List Uuid))
deriving DecidableEq

/-- Where a transaction on the outbox stands. -/
inductive OutboxPos
  | ticking (cfg : OutboxRelayerConfig) (p : TickPos)
  | appending (p : AppendPos)
deriving DecidableEq

namespace OutboxState
variable {ι : Type} [DecidableEq ι]

/-- The state with a row locked by a transaction. -/
def lock (d : OutboxState ι) (i : ι) (k : RowRef) : OutboxState ι :=
  { d with locks := d.locks.take i k }

/-- A transaction ends. -/
def release (d : OutboxState ι) (i : ι) : OutboxState ι :=
  { d with locks := d.locks.releaseAll i }

/-- A new identifier has been drawn. -/
def draw (d : OutboxState ι) : OutboxState ι := { d with uuids := d.uuids.tail }

/-- The jobs that were created from events and the marks on these events become visible. -/
def commitTick (d : OutboxState ι) (start : Timestamp) (events : List OutboxEvent)
    (created : List (OutboxEvent × Job)) : OutboxState ι :=
  { d with
    outbox := markRelayedInTx d.outbox (events.map OutboxEvent.id) start
    jobs := d.jobs.insertAll (created.map Prod.snd)
    source := fun id => match created.find? (fun c => c.2.id = id) with
      | some c => some c.1.id
      | none => d.source id }

/-- The appended events become visible. -/
def commitAppend (d : OutboxState ι) (appended : List OutboxEvent) : OutboxState ι :=
  { d with outbox := d.outbox.insertAll appended }

end OutboxState

section Next
variable {ι : Type} [DecidableEq ι] (cfg : OutboxRelayerConfig) (i : ι)

/-- The claim of a tick is complete; without any event the tick is over. -/
def claimed (start : Timestamp) (events : List OutboxEvent) (d : OutboxState ι) :
    TickPos × OutboxState ι :=
  if events.isEmpty then (.done (.ok 0), d.release i) else (.enqueue start events events [], d)

/-- One step of a tick; there is none when it waits for a lock. -/
def tickNext : TickPos → OutboxState ι → Option (TickPos × OutboxState ι)
  | .claim, d => some (.claiming d.now (unrelayed d.outbox) [], d)
  | .claiming start [] events, d => some (claimed i start events d)
  | .claiming start (r :: rows) events, d =>
    if cfg.batchSize ≤ events.length then some (claimed i start events d)
    else if d.locks.grants i (.event r.id) then
      -- the newest version of the row has to be unrelayed as well
      match (d.outbox.find? r.id).filter (fun e => e.relayedAt = none) with
      | some e => some (.claiming start rows (events ++ [e]), d.lock i (.event r.id))
      | none => some (.claiming start rows events, d)
    else some (.claiming start rows events, d)
  | .enqueue start events [] created, d => some (.mark start events created, d)
  | .enqueue start events (e :: todo) created, d =>
    let id := d.uuids.headD 0
    if d.locks.grants i (.job id) then
      if d.jobs.any (fun j => j.id = id) || created.any (fun c => c.2.id = id) then
        some (.done (.error .mk), d.draw.release i)
      else
        some (.enqueue start events todo (created ++ [(e, cfg.job e id start d.now)]),
          d.draw.lock i (.job id))
    else none
  | .mark start events created, d => some (.commit start events created, d)
  | .commit start events created, d =>
    some (.done (.ok events.length), (d.commitTick start events created).release i)
  | .done _, _ => none

/-- One step of a transaction that appends events. -/
def appendNext : AppendPos → OutboxState ι → Option (AppendPos × OutboxState ι)
  | .start reqs, d => some (.insert d.now reqs [], d)
  | .insert _ [] appended, d => some (.commit appended, d)
  | .insert start (req :: reqs) appended, d =>
    let id := d.uuids.headD 0
    if d.locks.grants i (.event id) then
      if d.outbox.any (fun e => e.id = id) || appended.any (fun e => e.id = id) then
        some (.done (.error .mk), d.draw.release i)
      else
        some (.insert start reqs (appended ++ [req.event id start]), d.draw.lock i (.event id))
    else none
  | .commit appended, d =>
    some (.done (.ok (appended.map OutboxEvent.id)), (d.commitAppend appended).release i)
  | .done _, _ => none

/-- An append inserts with `appendInTx` into what its transaction sees, the committed events and those
that it has appended. -/
theorem appendNext_insert {d : OutboxState ι} {start : Timestamp} {req : AppendRequest}
    {reqs : List AppendRequest} {appended : List OutboxEvent}
    (hgrants : d.locks.grants i (.event (d.uuids.headD 0)) = true) :
    appendNext i (.insert start (req :: reqs) appended) d =
      match appendInTx (d.outbox.insertAll appended) (d.uuids.headD 0) req start with
      | none => some (.done (.error .mk), d.draw.release i)
      | some _ => some (.insert start reqs (appended ++ [req.event (d.uuids.headD 0) start]),
          d.draw.lock i (.event (d.uuids.headD 0))) := by
  have htaken : (d.outbox.any (fun e => e.id = d.uuids.headD 0) ||
      appended.any (fun e => e.id = d.uuids.headD 0)) = true ↔
      appendInTx (d.outbox.insertAll appended) (d.uuids.headD 0) req start = none := by
    rw [appendInTx, Table.insert?_eq_none, Bool.or_eq_true, Table.any_eq_true, List.any_eq_true]
    simp only [decide_eq_true_eq]
    exact Table.taken_insertAll.symm
  rw [appendNext, if_pos hgrants]
  cases hins : appendInTx (d.outbox.insertAll appended) (d.uuids.headD 0) req start with
  | none => rw [if_pos (htaken.mpr hins)]
  | some t =>
    rw [if_neg fun h => ?_]
    rw [htaken.mp h] at hins
    cases hins

omit [DecidableEq ι] in
/-- What it sees afterwards has the event. -/
lemma appendInTx_insertAll {t t' : OutboxTable} {id : Uuid} {req : AppendRequest} {start : Timestamp}
    {appended : List OutboxEvent} (h : appendInTx (t.insertAll appended) id req start = some t') :
    t.insertAll (appended ++ [req.event id start]) = t' := by
  rw [Table.insertAll_snoc, show (t.insertAll appended).insert? _ = _ from h]
  rfl

end Next

namespace OutboxPos

/-- Where transactions begin. -/
def starts : OutboxPos → Bool
  | ticking _ .claim => true
  | appending (.start _) => true
  | _ => false

/-- Where transactions end. -/
def final : OutboxPos → Bool
  | ticking _ (.done _) => true
  | appending (.done _) => true
  | _ => false

/-- A transaction that has been dropped. -/
def dropped : OutboxPos → OutboxPos
  | ticking cfg _ => ticking cfg (.done (.error .mk))
  | appending _ => appending (.done (.error .mk))

/-- One step of a transaction of its own. -/
def next {ι : Type} [DecidableEq ι] (i : ι) : OutboxPos → OutboxState ι →
    Option (OutboxPos × OutboxState ι)
  | ticking cfg p, d => (tickNext cfg i p d).map (fun r => (ticking cfg r.1, r.2))
  | appending p, d => (appendNext i p d).map (fun r => (appending r.1, r.2))

end OutboxPos

/-- What one step of a transaction does: the next one of its own, or it is dropped and rolls back. -/
inductive OutboxStep {ι : Type} [DecidableEq ι] (i : ι) :
    OutboxPos → OutboxState ι → OutboxPos → OutboxState ι → Prop
  | next {p q d d'} (h : p.next i d = some (q, d')) : OutboxStep i p d q d'
  | drops {p d} (h : p.final = false) : OutboxStep i p d p.dropped (d.release i)

/-- What else happens to the jobs: they are worked on, and new ones are enqueued under identifiers
that nobody is about to insert. -/
structure OtherWork {ι : Type} (d d' : OutboxState ι) : Prop where
  outbox : d'.outbox = d.outbox
  source : d'.source = d.source
  locks : d'.locks = d.locks
  kept : ∀ j ∈ d.jobs, ∃ k ∈ d'.jobs, k.id = j.id ∧ k.kind = j.kind ∧ k.payload = j.payload
  added : ∀ k ∈ d'.jobs, (∃ j ∈ d.jobs, j.id = k.id) ∨ ∀ i, ¬ d.locks.Holds i (.job k.id)

/-- Any number of relayers and of transactions that append events. -/
def outboxSystem (ι : Type) [DecidableEq ι] : System ι (OutboxState ι) OutboxPos where
  starts := OutboxPos.starts
  step := OutboxStep
  env := OtherWork
  decisive _ _ := false
  final := OutboxPos.final
  stops h := by
    cases h with
    | drops h => exact h
    | next h =>
      unfold OutboxPos.final
      split
      · cases h
      · cases h
      · rfl

end Egras.Outbox
