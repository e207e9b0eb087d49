import Egras.Lib.Prog
import Mathlib.Logic.Relation

/-!
# Programs that follow a relation

`Follows V R s p` says that a run of `p` from `s` takes the part `V` of the state along steps of
`R`. It is a judgement about one starting state, so that the rules for sequencing hand on what the
first part has returned and where it ended.
-/

namespace Egras.Lib.Prog
open Relation
variable {σ τ ε δ α β : Type}

/-- A run of `p` from `s` takes the part `V` of the state along steps of `R`. -/
def Follows (V : σ → τ) (R : τ → τ → Prop) (s : σ) (p : Prog σ ε α) : Prop :=
  ReflTransGen R (V s) (V (p.run s).2)

namespace Follows
variable {V : σ → τ} {R S : τ → τ → Prop} {s : σ} {p : Prog σ ε α} {k : α → Prog σ ε β}

/-- A run that leaves the view as it is follows every relation. -/
lemma of_eq (h : V (p.run s).2 = V s) : Follows V R s p := by
  unfold Follows
  rw [h]

/-- A program that leaves the view alone follows every relation. -/
lemma of_reads (h : Reads V p) : Follows V R s p := of_eq (h s)

/-- Returning follows every relation. -/
lemma ret {a : α} : Follows V R s (Prog.ret a : Prog σ ε α) := .refl

/-- Failing follows every relation. -/
lemma fail {e : ε} : Follows V R s (Prog.fail e : Prog σ ε α) := .refl

/-- What a relation allows a larger one allows as well. -/
lemma mono (h : Follows V R s p) (hR : ∀ a b, R a b → S a b) : Follows V S s p :=
  ReflTransGen.mono hR _ _ h

/-- The second part starts where the first one has returned. -/
lemma bind (hp : Follows V R s p) (hk : ∀ a t, p.run s = (.ok a, t) → Follows V R t (k a)) :
    Follows V R s (p >>= k) := by
  unfold Follows at hp ⊢
  rw [run_bind]
  cases hr : p.run s with
  | mk r t =>
    rw [hr] at hp
    cases r with
    | ok a => exact hp.trans (hk a t hr)
    | error e => exact hp

/-- A first part that only reads. -/
lemma bind_reads (hp : Reads V p)
    (hk : ∀ a t, p.run s = (.ok a, t) → V t = V s → Follows V R t (k a)) :
    Follows V R s (p >>= k) :=
  bind (of_reads hp) fun a t h => hk a t h (hp.of_run h)

/-- A last part that only reads. -/
lemma then_reads (hp : Follows V R s p) (hk : ∀ a, Reads V (k a)) : Follows V R s (p >>= k) :=
  bind hp fun a _ _ => of_reads (hk a)

/-- What follows a check may rely on it. -/
lemma ofExcept_bind {r : Except ε α} (hk : ∀ a, r = .ok a → Follows V R s (k a)) :
    Follows V R s (Prog.ofExcept r >>= k) := by
  cases r with
  | ok a => exact hk a rfl
  | error e => exact fail

/-- Mapped errors follow what the program follows. -/
lemma mapErr {g : ε → δ} (hp : Follows V R s p) : Follows V R s (p.mapErr g) := by
  unfold Follows
  rw [run_mapErr]
  exact hp

/-- An attempt follows what the program follows. -/
lemma attempt (hp : Follows V R s p) : Follows V R s (p.attempt : Prog σ δ _) := by
  unfold Follows
  rw [run_attempt]
  exact hp

/-- What is made of an error starts where the error came up. -/
lemma attempt_bind {k : Except ε α → Prog σ δ β} (hp : Follows V R s p)
    (hok : ∀ a t, p.run s = (.ok a, t) → Follows V R t (k (.ok a)))
    (herror : ∀ e t, p.run s = (.error e, t) → Follows V R t (k (.error e))) :
    Follows V R s (p.attempt >>= k) := by
  refine bind hp.attempt fun r t h => ?_
  rw [run_attempt] at h
  obtain ⟨hr, rfl⟩ := Prod.mk.inj h
  cases r with
  | ok a => exact hok a _ (Prod.ext (Except.ok.inj hr) rfl)
  | error e => exact herror e _ (Prod.ext (Except.ok.inj hr) rfl)

end Follows
end Egras.Lib.Prog
