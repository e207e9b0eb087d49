import Mathlib.Algebra.Group.Int.Defs
import Mathlib.Algebra.Group.Nat.Defs
import Mathlib.Data.Int.Init
import Mathlib.Tactic.Lemma

/-!
# Identifiers, machine integers and time

The scalar types that every part of the service shares. A `Timestamp` is Postgres' `TIMESTAMPTZ`:
whole microseconds since the Unix epoch. `Duration` is `std::time::Duration`: seconds in a `u64`
and nanoseconds below one second, the bounds kept as fields.

Rust → Lean naming: `as_secs` → `secs`, `from_secs` → `fromSecs`, `saturating_mul` → `satMul`,
`saturating_pow` → `satPow`, `i32`/`i64` casts → `wrapI32`/`wrapI64`; Postgres' `make_interval` →
`makeInterval`.
-/

namespace Egras

/-- A 128-bit identifier (Rust `uuid::Uuid`). -/
abbrev Uuid := BitVec 128

/-- Microseconds since the Unix epoch (Postgres `TIMESTAMPTZ`). -/
abbrev Timestamp := Int

/-- Largest `u64`. -/
def u64Max : ℕ := 2 ^ 64 - 1

/-- Largest `i32`, the largest value of an `INT` column as well. -/
def i32Max : Int := 2 ^ 31 - 1

/-- Two's complement reading of an integer in 32 bits. -/
def wrapI32 (z : Int) : Int := z.bmod (2 ^ 32)

/-- Two's complement reading of an integer in 64 bits. -/
def wrapI64 (z : Int) : Int := z.bmod (2 ^ 64)

/-- A value that fits is its own reading. -/
lemma wrapI64_of_lt {n : ℕ} (h : n < 2 ^ 63) : wrapI64 n = n := by
  unfold wrapI64
  exact Int.bmod_eq_of_le (by omega) (by omega)

/-- From `2 ^ 63` on the reading of a `u64` is negative. -/
lemma wrapI64_neg {n : ℕ} (h : 2 ^ 63 ≤ n) (hn : n < 2 ^ 64) : wrapI64 n < 0 := by
  unfold wrapI64
  rw [Int.bmod_def]
  omega

/-- Multiplication capped at `u64::MAX` (Rust `saturating_mul`). -/
def satMul (a b : ℕ) : ℕ := min (a * b) u64Max

/-- Power capped at `u64::MAX` (Rust `saturating_pow`). -/
def satPow (a : ℕ) : ℕ → ℕ
  | 0 => 1
  | n + 1 => satMul (satPow a n) a

section Saturating
variable {a b n : ℕ}

/-- Saturating a factor first makes no difference. -/
lemma satMul_min : satMul a (min b u64Max) = satMul a b := by
  unfold satMul
  rcases Nat.le_total b u64Max with hle | hge
  · rw [Nat.min_eq_left hle]
  · rw [Nat.min_eq_right hge]
    rcases Nat.eq_zero_or_pos a with rfl | hpos
    · simp
    · have hcap : u64Max ≤ a * u64Max := Nat.le_mul_of_pos_left _ hpos
      rw [Nat.min_eq_right hcap, Nat.min_eq_right (Nat.le_trans hcap (Nat.mul_le_mul_left a hge))]

/-- A saturating power is the power, capped once. -/
lemma satPow_eq : satPow a n = min (a ^ n) u64Max := by
  induction n with
  | zero => rfl
  | succ n ih =>
    calc satPow a (n + 1) = satMul a (min (a ^ n) u64Max) := by
          rw [satPow, ih, satMul, satMul, Nat.mul_comm]
      _ = satMul a (a ^ n) := satMul_min
      _ = min (a ^ (n + 1)) u64Max := by rw [satMul, Nat.pow_succ']

end Saturating

/-- A span of time (Rust `std::time::Duration`). -/
structure Duration where
  secs : ℕ
  nanos : ℕ
  secs_lt : secs < 2 ^ 64
  nanos_lt : nanos < 1000000000
deriving DecidableEq

namespace Duration

/-- A whole number of seconds. -/
def fromSecs (n : ℕ) (h : n < 2 ^ 64 := by omega) : Duration := ⟨n, 0, h, by omega⟩

/-- A whole number of milliseconds. -/
def fromMillis (n : ℕ) (h : n < 2 ^ 64 := by omega) : Duration :=
  ⟨n / 1000, n % 1000 * 1000000, by omega, by omega⟩

/-- The whole span in nanoseconds. -/
def asNanos (d : Duration) : ℕ := d.secs * 1000000000 + d.nanos

/-- The span in microseconds, the remainder below one dropped. -/
def asMicros (d : Duration) : ℕ := d.asNanos / 1000

/-- A duration with no part below one second. -/
def Whole (d : Duration) : Prop := d.nanos = 0 ∧ d.secs < 2 ^ 63

/-- Being whole can be decided. -/
instance : DecidablePred Whole := fun _ => inferInstanceAs (Decidable (_ ∧ _))

end Duration

/-- First instant a `TIMESTAMPTZ` can hold (4714-11-24 BC). -/
def timestampMin : Timestamp := -210866803200000000

/-- First instant past what a `TIMESTAMPTZ` can hold (294277-01-01). -/
def timestampEnd : Timestamp := 9224318016000000000

/-- Whether a `TIMESTAMPTZ` can hold the instant. -/
def timestampInRange (t : Timestamp) : Bool := timestampMin ≤ t && t < timestampEnd

/-- The length in microseconds of `make_interval(secs => n)`. -/
def makeInterval (secs : Int) : Int := secs * 1000000

end Egras
