import Egras.Jobs.Repository
import Egras.Lib.Transition

/-!
# Jobs: the shared table under any statements

The `jobs` table together with the clock, and every statement of the repository as one atomic step
that any client may take at any time with any parameters: marks by workers that no longer hold the
job, repeated marks and marks of unknown jobs included. A statement's `now()` is the beginning of
its transaction, so it may lie behind the clock. A statement that Postgres refuses changes nothing
and is not a step.

`Step.frame` says which rows a step can touch; `LocksMatch` is the invariant of the lock columns.
-/

namespace Egras.Jobs
open Egras.Lib

/-- The table and the time. -/
structure Store where
  table : JobsTable
  clock : Timestamp

/-- The statements, with the rows a claim returned. -/
inductive Op
  | enqueue (id : Uuid) (req : EnqueueRequest) (now : Timestamp)
  | claim (req : ClaimRequest) (now : Timestamp) (locked : Uuid → Bool) (returned : List Job)
  | mark (m : Mark) (now : Timestamp)
  | tick

namespace Store

/-- One statement, or the passing of time. -/
inductive Step : Store → Op → Store → Prop
  | enqueue {s id req now t}
      (past : now ≤ s.clock)
      (stmt : enqueueInTx s.table id req now = some t) :
      Step s (.enqueue id req now) { s with table := t }
  | claim {s req now scan locked t rows returned}
      (past : now ≤ s.clock)
      (perm : scan.Perm s.table.rows)
      (stmt : claimDue s.table req now scan locked = some (t, rows))
      (order : returned.Perm rows) :
      Step s (.claim req now locked returned) { s with table := t }
  | mark {s m now t}
      (past : now ≤ s.clock)
      (stmt : m.exec s.table now = some t) :
      Step s (.mark m now) { s with table := t }
  | tick {s clock}
      (le : s.clock ≤ clock) :
      Step s .tick { s with clock := clock }

/-- The table as the migration creates it. -/
def init (clock : Timestamp) : Store := ⟨Table.empty, clock⟩

end Store

/-- `ClaimSpec` does not depend on the order of the returned rows. -/
lemma ClaimSpec.perm {t t' : JobsTable} {req now locked} {rows returned : List Job}
    (spec : ClaimSpec t req now locked t' rows) (order : returned.Perm rows) :
    ClaimSpec t req now locked t' returned where
  length_le := order.length_eq ▸ spec.length_le
  empty_iff := by
    rw [← spec.empty_iff]
    exact ⟨fun h => (h ▸ order).symm.eq_nil, fun h => (h ▸ order).eq_nil⟩
  nodup := (order.map _).nodup_iff.mpr spec.nodup
  eligible j hj := spec.eligible j (order.mem_iff.mp hj)
  written j hj := spec.written j (order.mem_iff.mp hj)
  frame k hk := spec.frame k (fun j hj => hk j (order.mem_iff.mpr hj))

namespace Store.Step
variable {s s' : Store}

/-- What a claim step can do. -/
lemma claim_inv {req now locked returned} (step : Step s (.claim req now locked returned) s') :
    now ≤ s.clock ∧ s'.clock = s.clock ∧
      ClaimSpec s.table req now locked s'.table returned := by
  cases step with
  | claim past perm stmt order =>
    exact ⟨past, rfl, (claimDue_spec perm stmt).perm order⟩

/-- What a mark step can do. -/
lemma mark_inv {m now} (step : Step s (.mark m now) s') :
    now ≤ s.clock ∧ s'.clock = s.clock ∧ m.exec s.table now = some s'.table := by
  cases step with
  | mark past stmt => exact ⟨past, rfl, stmt⟩

/-- What an enqueue step can do. -/
lemma enqueue_inv {id req now} (step : Step s (.enqueue id req now) s') :
    now ≤ s.clock ∧ s'.clock = s.clock ∧ enqueueInTx s.table id req now = some s'.table := by
  cases step with
  | enqueue past stmt => exact ⟨past, rfl, stmt⟩

/-- Time passes and the table stays. -/
lemma tick_inv (step : Step s .tick s') : s'.table = s.table ∧ s.clock ≤ s'.clock := by
  cases step with
  | tick le => exact ⟨rfl, le⟩

end Store.Step

/-- An existing row changes only by a claim that returns it or by a mark about it. -/
lemma Store.Step.frame {s s' : Store} {op id j} (step : Store.Step s op s')
    (hj : s.table.find? id = some j)
    (unclaimed : ∀ req now locked returned, op = .claim req now locked returned →
      ∀ k ∈ returned, k.id ≠ id)
    (unmarked : ∀ m now, op = .mark m now → m.id ≠ id) :
    s'.table.find? id = some j := by
  cases op with
  | enqueue id' req now =>
    obtain ⟨-, -, stmt⟩ := step.enqueue_inv
    have fresh := (Table.insert?_eq_some stmt).1 j (Table.find?_eq_some.mp hj).1
    have hid := (Table.find?_eq_some.mp hj).2
    rw [Table.find?_insert? stmt, if_neg (fun e => fresh (hid.trans e.symm)), hj]
  | claim req now locked returned =>
    obtain ⟨-, -, spec⟩ := step.claim_inv
    rw [spec.frame id (unclaimed req now locked returned rfl), hj]
  | mark m now =>
    obtain ⟨-, -, stmt⟩ := step.mark_inv
    rw [Mark.exec_find?_ne stmt (Ne.symm (unmarked m now rfl)), hj]
  | tick => rw [step.tick_inv.1, hj]

/-- The lock columns say whether the job is running: both set, or both null. -/
def Job.LocksMatch (j : Job) : Prop :=
  (j.state = .running ∧ j.lockedUntil.isSome ∧ j.lockedBy.isSome) ∨
    (j.state ≠ .running ∧ j.lockedUntil = none ∧ j.lockedBy = none)

/-- A running job has its lock columns set. -/
lemma Job.LocksMatch.lockedUntil {j : Job} (h : j.LocksMatch) (run : j.state = .running) :
    ∃ u, j.lockedUntil = some u := by
  rcases h with ⟨-, hu, -⟩ | ⟨hne, -, -⟩
  · exact Option.isSome_iff_exists.mp hu
  · exact absurd run hne

/-- A job is running when both of its lock columns are set. -/
lemma Job.LocksMatch.iff {j : Job} (h : j.LocksMatch) :
    j.state = .running ↔ j.lockedUntil.isSome ∧ j.lockedBy.isSome := by
  rcases h with ⟨hs, hu, hb⟩ | ⟨hs, hu, hb⟩
  · simp [hs, hu, hb]
  · simp [hs, hu]

/-- Every row has matching lock columns. -/
def Store.LocksMatch (s : Store) : Prop := ∀ j ∈ s.table, j.LocksMatch

/-- Each statement sets the lock columns to match the state it writes. -/
lemma Store.Step.locksMatch {s s' : Store} {op} (step : Store.Step s op s')
    (inv : s.LocksMatch) : s'.LocksMatch := by
  intro j hj
  have hfind := Table.find?_key hj
  cases op with
  | enqueue id req now =>
    obtain ⟨-, -, stmt⟩ := step.enqueue_inv
    rcases (Table.mem_insert? stmt).mp hj with h | rfl
    · exact inv j h
    · exact Or.inr ⟨JobState.noConfusion, rfl, rfl⟩
  | claim req now locked returned =>
    obtain ⟨-, -, spec⟩ := step.claim_inv
    by_cases hret : ∃ k ∈ returned, k.id = j.id
    · obtain ⟨k, hk, hid⟩ := hret
      have hw := spec.written k hk
      rw [hid, hfind] at hw
      cases hw
      obtain ⟨q, -, -, -, -, rfl⟩ := spec.eligible j hk
      exact Or.inl ⟨rfl, rfl, rfl⟩
    · have hkeep := spec.frame j.id (fun k hk e => hret ⟨k, hk, e⟩)
      rw [hfind] at hkeep
      exact inv j (Table.find?_eq_some.mp hkeep.symm).1
  | mark m now =>
    obtain ⟨-, -, stmt⟩ := step.mark_inv
    rw [Mark.exec_find? stmt] at hfind
    obtain ⟨q, hq, hqj⟩ := Option.map_eq_some_iff.mp hfind
    split at hqj
    · subst hqj
      exact Or.inr ⟨Mark.apply_state_ne, Mark.apply_unlocked.1, Mark.apply_unlocked.2⟩
    · subst hqj
      exact inv q (Table.find?_eq_some.mp hq).1
  | tick =>
    rw [step.tick_inv.1] at hj
    exact inv j hj

/-- The lock columns match the state in every reachable table. -/
lemma Store.locksMatch_of_run {clock ms s} (run : Run Store.Step (Store.init clock) ms s) :
    s.LocksMatch :=
  run.invariant Store.LocksMatch (fun _ => True) (fun _ hj => absurd hj Table.not_mem_empty)
    (fun _ _ _ step _ inv => step.locksMatch inv) (fun _ _ => trivial)

/-! ## A job to run the statements on -/

/-- A job due at the epoch. -/
def emailJob : Job where
  id := 1
  kind := "email.send"
  payload := .null
  state := .pending
  attempts := 0
  maxAttempts := 5
  runAt := 0
  lockedUntil := none
  lockedBy := none
  lastError := none
  createdAt := 0
  updatedAt := 0

/-- A table that holds one row. -/
def oneRow (j : Job) : JobsTable := ⟨[j], List.nodup_singleton _⟩

/-- A claim of `emailJob`'s kind. -/
def emailClaim (workerId : String) (visibility : Duration) : ClaimRequest where
  workerId := workerId
  kinds := ["email.send"]
  visibility := visibility
  limit := 16

end Egras.Jobs
