import Egras.Jobs.Runner

/-!
# The delay before a retry

A retry is due to wait `min(backoff_max, backoff_initial * backoff_factor^(attempt - 1))`
(`exactDelay`). The runner multiplies the whole seconds of `backoff_initial` only, in saturating
arithmetic, and replaces a delay that `chrono` cannot hold by five seconds. `computeBackoff_eq` is the
delay in exact arithmetic, so that the two can be compared: they agree, and the retry is scheduled, on
the attempts of `FollowsFormula` and no others (`backoff_follows_iff`).
-/

namespace Egras.Jobs
open Egras.Lib

/-- The delay before a retry in nanoseconds, by its formula. -/
def exactDelay (attempt : ℕ) (initial : Duration) (factor : ℕ) (max : Duration) : ℕ :=
  min max.asNanos (initial.asNanos * factor ^ (attempt - 1))

/-- The delay in nanoseconds that is added to the clock (Rust
`chrono::Duration::from_std(backoff).unwrap_or(chrono::Duration::seconds(5))`). -/
def scheduledDelay (backoff : Duration) : ℕ :=
  if backoff.asNanos ≤ chronoDurationMax then backoff.asNanos else 5000000000

/-- The initial backoff has no part below a second, or that part does not matter; `chrono` can hold
the delay, and the instant of the retry as well. -/
def FollowsFormula (initial : Duration) (factor : ℕ) (max : Duration) (utcNow : Timestamp)
    (attempt : ℕ) : Prop :=
  (initial.nanos = 0 ∨ factor ^ (attempt - 1) = 0 ∨
    max.asNanos ≤ initial.secs * factor ^ (attempt - 1) * 1000000000) ∧
  (max.asNanos ≤ chronoDurationMax ∨
    initial.asNanos * factor ^ (attempt - 1) ≤ chronoDurationMax) ∧
  utcNow + (exactDelay attempt initial factor max / 1000 : ℕ) < chronoEnd

/-! ## The delay -/

section Delay
variable {attempt a b : ℕ} {initial max : Duration} {factor : ℕ} {utcNow : Timestamp}

/-- The delay in exact arithmetic: the whole seconds are multiplied. -/
lemma computeBackoff_eq : (computeBackoff attempt initial factor max).asNanos =
    min max.asNanos (min (initial.secs * factor ^ (attempt - 1)) u64Max * 1000000000) := by
  have hsecs : satMul initial.secs (satPow factor (attempt - 1)) =
      min (initial.secs * factor ^ (attempt - 1)) u64Max := by
    rw [satPow_eq, satMul_min]
    rfl
  unfold computeBackoff
  simp only [hsecs]
  have hnanos : ∀ secs h, (Duration.fromSecs secs h).asNanos = secs * 1000000000 :=
    fun _ _ => Nat.add_zero _
  split
  · rename_i hless
    rw [hnanos] at hless
    exact (Nat.min_eq_left hless.le).symm
  · rename_i hge
    rw [hnanos] at hge ⊢
    exact (Nat.min_eq_right (Nat.le_of_not_lt hge)).symm

/-- What the formula gives, by the parts of the initial backoff. -/
lemma exactDelay_eq : exactDelay attempt initial factor max =
    min max.asNanos (initial.secs * factor ^ (attempt - 1) * 1000000000 +
      initial.nanos * factor ^ (attempt - 1)) := by
  unfold exactDelay
  congr 1
  rw [Duration.asNanos, Nat.add_mul, Nat.mul_right_comm]

/-- The delay is never longer than the formula says. -/
lemma computeBackoff_le :
    (computeBackoff attempt initial factor max).asNanos ≤ exactDelay attempt initial factor max := by
  rw [computeBackoff_eq, exactDelay_eq]
  omega

/-- It is as long when no part below a second gets lost, as far as `chrono` can hold it. -/
lemma computeBackoff_eq_iff (hfits : exactDelay attempt initial factor max ≤ chronoDurationMax) :
    (computeBackoff attempt initial factor max).asNanos = exactDelay attempt initial factor max ↔
      initial.nanos = 0 ∨ factor ^ (attempt - 1) = 0 ∨
        max.asNanos ≤ initial.secs * factor ^ (attempt - 1) * 1000000000 := by
  rw [← or_assoc, ← Nat.mul_eq_zero]
  rw [exactDelay_eq] at hfits ⊢
  rw [computeBackoff_eq]
  unfold u64Max
  unfold chronoDurationMax at hfits
  omega

/-- The delay that is scheduled is the one of the formula exactly when nothing gets lost and `chrono`
can hold it. -/
lemma scheduledDelay_eq_iff :
    scheduledDelay (computeBackoff attempt initial factor max) =
        exactDelay attempt initial factor max ↔
      (initial.nanos = 0 ∨ factor ^ (attempt - 1) = 0 ∨
        max.asNanos ≤ initial.secs * factor ^ (attempt - 1) * 1000000000) ∧
      exactDelay attempt initial factor max ≤ chronoDurationMax := by
  have hle : (computeBackoff attempt initial factor max).asNanos ≤
      exactDelay attempt initial factor max := computeBackoff_le
  by_cases hfits : exactDelay attempt initial factor max ≤ chronoDurationMax
  · rw [← computeBackoff_eq_iff hfits, scheduledDelay, if_pos (hle.trans hfits)]
    exact (and_iff_left hfits).symm
  · refine iff_of_false (fun heq => ?_) (fun h => hfits h.2)
    unfold scheduledDelay at heq
    unfold chronoDurationMax at heq hfits
    split at heq <;> omega

/-- A delay is never above the cap. -/
lemma scheduledDelay_le :
    scheduledDelay (computeBackoff attempt initial factor max) ≤ max.asNanos := by
  have hle : (computeBackoff attempt initial factor max).asNanos ≤ max.asNanos := by
    rw [computeBackoff_eq]
    exact Nat.min_le_left _ _
  unfold scheduledDelay
  split
  · exact hle
  · rename_i hmore
    unfold chronoDurationMax at hmore
    omega

/-- The formula grows with the attempts. -/
lemma exactDelay_mono (hfactor : 1 ≤ factor) (h : a ≤ b) :
    exactDelay a initial factor max ≤ exactDelay b initial factor max := by
  have hpow : factor ^ (a - 1) ≤ factor ^ (b - 1) := Nat.pow_le_pow_right hfactor (by omega)
  have hmul := Nat.mul_le_mul_left initial.asNanos hpow
  unfold exactDelay
  omega

/-- The next run is the delay after the clock, as long as `chrono` can represent it. -/
lemma nextRunAt_eq {backoff : Duration} : nextRunAt utcNow backoff =
    if utcNow + (scheduledDelay backoff / 1000 : ℕ) < chronoEnd then
      some (utcNow + (scheduledDelay backoff / 1000 : ℕ)) else none := by
  unfold nextRunAt scheduledDelay Duration.asMicros
  by_cases hfits : backoff.asNanos ≤ chronoDurationMax
  · rw [if_pos hfits, if_pos hfits]
  · rw [if_neg hfits, if_neg hfits]
    rfl

/-- A failed attempt that is not the last one is retried after the delay. -/
lemma dispatchMark_retries {runner : JobRunner} {job : Job} {msg : String}
    (hattempt : nextAttempt job = attempt) (hmore : nextAttempt job < job.maxAttempts) :
    dispatchMark runner job (.error (.retryable msg)) utcNow =
      (nextRunAt utcNow (computeBackoff attempt runner.cfg.backoffInitial runner.cfg.backoffFactor
        runner.cfg.backoffMax)).map (fun at' => .failedRetry job.id msg at') := by
  have hsmall : (nextAttempt job % 2 ^ 32).toNat = attempt := by
    have hbound : nextAttempt job < 2 ^ 31 := by
      unfold nextAttempt wrapI32
      have hlt := Int.bmod_lt (x := job.attempts + 1) (m := 2 ^ 32) (by decide)
      omega
    rw [hattempt] at hbound ⊢
    omega
  unfold dispatchMark
  dsimp only
  rw [if_neg (Int.not_le.mpr hmore), hsmall]

/-- On any attempts the delays follow the formula, the retries are scheduled, no delay is above the
cap and later ones are no shorter, exactly when each attempt meets the condition. -/
theorem backoff_follows_iff (initial max : Duration) (factor : ℕ) (utcNow : Timestamp)
    (attempts : Set ℕ) :
    ((∀ a ∈ attempts,
        scheduledDelay (computeBackoff a initial factor max) = exactDelay a initial factor max ∧
        nextRunAt utcNow (computeBackoff a initial factor max) =
          some (utcNow + (exactDelay a initial factor max / 1000 : ℕ)) ∧
        scheduledDelay (computeBackoff a initial factor max) ≤ max.asNanos) ∧
      (1 ≤ factor → ∀ a ∈ attempts, ∀ b ∈ attempts, a ≤ b →
        scheduledDelay (computeBackoff a initial factor max) ≤
          scheduledDelay (computeBackoff b initial factor max))) ↔
      ∀ a ∈ attempts, FollowsFormula initial factor max utcNow a := by
  have hsplit : ∀ a, exactDelay a initial factor max ≤ chronoDurationMax ↔
      max.asNanos ≤ chronoDurationMax ∨
        initial.asNanos * factor ^ (a - 1) ≤ chronoDurationMax := by
    intro a
    unfold exactDelay
    omega
  constructor
  · rintro ⟨hdelays, -⟩ a ha
    obtain ⟨hdelay, hnext, -⟩ := hdelays a ha
    obtain ⟨hwhole, hfits⟩ := scheduledDelay_eq_iff.mp hdelay
    refine ⟨hwhole, (hsplit a).mp hfits, ?_⟩
    rw [nextRunAt_eq, hdelay] at hnext
    by_contra hlate
    rw [if_neg hlate] at hnext
    cases hnext
  · intro h
    have hdelay : ∀ a ∈ attempts, scheduledDelay (computeBackoff a initial factor max) =
        exactDelay a initial factor max := by
      intro a ha
      obtain ⟨hwhole, hfits, -⟩ := h a ha
      exact scheduledDelay_eq_iff.mpr ⟨hwhole, (hsplit a).mpr hfits⟩
    refine ⟨fun a ha => ⟨hdelay a ha, ?_, scheduledDelay_le⟩, fun hfactor a ha b hb hab => ?_⟩
    · rw [nextRunAt_eq, hdelay a ha]
      exact if_pos (h a ha).2.2
    · rw [hdelay a ha, hdelay b hb]
      exact exactDelay_mono hfactor hab

/-- A backoff of one millisecond is no delay at all. -/
theorem backoff_drops_milliseconds :
    scheduledDelay (computeBackoff 1 (.fromMillis 1) 2 (.fromMillis 50)) = 0 ∧
      exactDelay 1 (.fromMillis 1) 2 (.fromMillis 50) = 1000000 := by
  decide

end Delay
end Egras.Jobs
