import Egras.Base.Json
import Egras.Base.Time

/-!
# Jobs: data model

Port of `jobs/model.rs` and of the `jobs` table of migration `0009_jobs.sql`: the states of a job,
the job row and the request that enqueues one. The table stores the state as text under the check
`jobs_state_check`, which admits exactly the four texts of `JobState.asStr`; a row of the model
carries the `JobState` itself, and `JobState.fromStr_asStr` says that nothing is lost by it.

Rust → Lean naming: `as_str` → `asStr`, `from_str` → `fromStr`, `with_max_attempts` →
`withMaxAttempts`; columns and fields in camel case.
-/

namespace Egras.Jobs

/-- The states of a job (Rust `JobState`). -/
inductive JobState
  | pending
  | running
  | done
  | dead
deriving DecidableEq, Repr

namespace JobState

/-- The text of a state (Rust `JobState::as_str`). -/
def asStr : JobState → String
  | .pending => "pending"
  | .running => "running"
  | .done => "done"
  | .dead => "dead"

/-- Read a state back from its text (Rust `JobState::from_str`). -/
def fromStr (s : String) : Except String JobState :=
  if s = "pending" then .ok .pending
  else if s = "running" then .ok .running
  else if s = "done" then .ok .done
  else if s = "dead" then .ok .dead
  else .error ("unknown job state: " ++ s)

/-- Every stored state text decodes to the state it was written from. -/
@[simp] lemma fromStr_asStr (st : JobState) : fromStr st.asStr = .ok st := by
  cases st <;> rfl

/-- No further work is done on a job in a final state. -/
def Final (st : JobState) : Prop := st = .done ∨ st = .dead

/-- Being final can be decided. -/
instance : DecidablePred Final := fun _ => inferInstanceAs (Decidable (_ ∨ _))

end JobState

/-- A row of the `jobs` table (Rust `Job`). -/
structure Job where
  id : Uuid
  kind : String
  payload : Value
  state : JobState
  attempts : Int
  maxAttempts : Int
  runAt : Timestamp
  lockedUntil : Option Timestamp
  lockedBy : Option String
  lastError : Option String
  createdAt : Timestamp
  updatedAt : Timestamp
deriving DecidableEq

/-- What a caller asks to be run (Rust `EnqueueRequest`). -/
structure EnqueueRequest where
  kind : String
  payload : Value
  maxAttempts : Int
  runAt : Timestamp
deriving DecidableEq

namespace EnqueueRequest

/-- A request to run as soon as possible, five attempts at most (Rust `EnqueueRequest::now`). -/
def now (kind : String) (payload : Value) (utcNow : Timestamp) : EnqueueRequest :=
  { kind, payload, maxAttempts := 5, runAt := utcNow }

/-- Set the attempt bound (Rust `with_max_attempts`). -/
def withMaxAttempts (req : EnqueueRequest) (n : Int) : EnqueueRequest :=
  { req with maxAttempts := n }

end EnqueueRequest
end Egras.Jobs
