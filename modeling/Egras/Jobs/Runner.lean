import Egras.Jobs.Repository

/-!
# Jobs: the runner

Port of `jobs/runner.rs`: the configuration of a runner, the backoff of a retry, and what
`dispatch` writes back for each outcome of a handler. A handler is code of another part of the
program, so all that is known of it is that it may return any outcome.

`dispatch` reads the attempt count from the row as it was claimed, adds one to it in `i32`
arithmetic, and computes the next run time from the host's clock; `none` is the panic of
`DateTime + Duration` past the last representable instant.

Rust → Lean naming: `compute_backoff` → `computeBackoff`, `registered_kinds` → `registeredKinds`,
`visibility_timeout` → `visibilityTimeout`; the two parts of `dispatch` are `dispatchOutcome`
(choose the handler) and `dispatchMark` (choose the `mark_*` call).
-/

namespace Egras.Jobs
open Egras.Lib

/-- How a handler fails (Rust `JobError`). -/
inductive JobError
  | retryable (msg : String)
  | permanent (msg : String)
deriving DecidableEq

/-- What a handler returns. -/
abbrev Outcome := Except JobError Unit

/-- Rust `JobRunnerConfig`. -/
structure JobRunnerConfig where
  pollInterval : Duration
  visibilityTimeout : Duration
  batchSize : ℕ
  backoffInitial : Duration
  backoffFactor : ℕ
  backoffMax : Duration

/-- The defaults of the configuration (Rust `JobRunnerConfig::default`). -/
def JobRunnerConfig.default : JobRunnerConfig where
  pollInterval := .fromMillis 500
  visibilityTimeout := .fromSecs 60
  batchSize := 16
  backoffInitial := .fromSecs 5
  backoffFactor := 4
  backoffMax := .fromSecs 3600

/-- Rust `JobRunner`; of the registered handlers only the kinds matter. -/
structure JobRunner where
  workerId : String
  registeredKinds : List String
  cfg : JobRunnerConfig

/-- The delay before a retry, exponential up to a cap (Rust `compute_backoff`). -/
def computeBackoff (attempt : ℕ) (initial : Duration) (factor : ℕ) (max : Duration) : Duration :=
  let exp := attempt - 1
  let mult := satPow factor exp
  let secs := satMul initial.secs mult
  let d := Duration.fromSecs secs (by unfold secs satMul u64Max; omega)
  if max.asNanos < d.asNanos then max else d

/-- Longest `chrono::Duration`, `i64::MAX` milliseconds, in nanoseconds. -/
def chronoDurationMax : ℕ := (2 ^ 63 - 1) * 1000000

/-- First instant past the range of `chrono::DateTime<Utc>`. -/
def chronoEnd : Timestamp := 8210266876800000000

/-- When the next attempt runs (Rust `Utc::now() + chrono::Duration::from_std(backoff)`). -/
def nextRunAt (utcNow : Timestamp) (backoff : Duration) : Option Timestamp :=
  let delay : Int := if backoff.asNanos ≤ chronoDurationMax then backoff.asMicros else 5000000
  if utcNow + delay < chronoEnd then some (utcNow + delay) else none

/-- The outcome of a job: its handler's, or a permanent error when there is no handler. -/
def dispatchOutcome (runner : JobRunner) (job : Job) (handled : Outcome) : Outcome :=
  if runner.registeredKinds.contains job.kind then handled
  else .error (.permanent ("no handler for kind '" ++ job.kind ++ "'"))

/-- The attempt a failed run of the job was (Rust `job.attempts + 1`). -/
def nextAttempt (job : Job) : Int := wrapI32 (job.attempts + 1)

/-- The `mark_*` call that `dispatch` makes for an outcome. -/
def dispatchMark (runner : JobRunner) (job : Job) (outcome : Outcome) (utcNow : Timestamp) :
    Option Mark :=
  match outcome with
  | .ok () => some (.done job.id)
  | .error (.permanent msg) => some (.dead job.id msg)
  | .error (.retryable msg) =>
    if job.maxAttempts ≤ nextAttempt job then
      some (.dead job.id msg)
    else
      -- `next_attempt as u32`
      let attempt := (nextAttempt job % 2 ^ 32).toNat
      let backoff := computeBackoff attempt runner.cfg.backoffInitial runner.cfg.backoffFactor
        runner.cfg.backoffMax
      (nextRunAt utcNow backoff).map (fun at' => .failedRetry job.id msg at')

/-- The claim a runner makes at the top of its loop. -/
def JobRunner.claimRequest (runner : JobRunner) : ClaimRequest where
  workerId := runner.workerId
  kinds := runner.registeredKinds
  visibility := runner.cfg.visibilityTimeout
  limit := runner.cfg.batchSize

section Dispatch
variable {runner : JobRunner} {job : Job} {outcome : Outcome} {utcNow : Timestamp} {m : Mark}

/-- A dispatched job is marked, and no other. -/
lemma dispatchMark_id (h : dispatchMark runner job outcome utcNow = some m) : m.id = job.id := by
  unfold dispatchMark at h
  split at h
  · cases h
    rfl
  · cases h
    rfl
  · split at h
    · cases h
      rfl
    · obtain ⟨_, -, rfl⟩ := Option.map_eq_some_iff.mp h
      rfl

/-- A retry is written only while attempts remain. -/
lemma dispatchMark_failedRetry {id error next}
    (h : dispatchMark runner job outcome utcNow = some (.failedRetry id error next)) :
    nextAttempt job < job.maxAttempts := by
  unfold dispatchMark at h
  split at h
  · cases h
  · cases h
  · split at h
    · cases h
    · rename_i hlt
      exact lt_of_not_ge hlt

end Dispatch
end Egras.Jobs
