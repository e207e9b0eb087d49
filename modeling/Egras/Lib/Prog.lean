import Mathlib.Tactic.Lemma

/-!
# Sequential programs over a shared state

A program is a sequence of atomic steps on a state that ends by returning a value or by failing. The
tree is kept, so that a program can be run to its end (`run`) or step by step; between two of its
steps another program may move the state. `bind`, `mapErr` and `attempt` are the sequencing, the
mapping of errors and the recovery from them.

Six judgements on programs, each closed under sequencing:

* `Reads V p`: the part `V` of the state is the same after a run of `p` as before;
* `Writes V φ p`: a run of `p` leaves `V` alone or changes it as `φ` says, once;
* `Ensures P p Q`: a run of `p` from a state in `P` that returns does so in `Q`;
* `Keeps I p`: a run of `p` from a state in `I` ends in one, whether it returns or fails;
* `FailsIn E p`: a run of `p` that fails does so with an error in `E`;
* `Atomic V p`: a run of `p` that fails leaves `V` alone.
-/

namespace Egras.Lib

/-- A program over the state `σ` that returns an `α` or fails with an `ε`. -/
inductive Prog (σ ε α : Type) : Type 1
  | ret (a : α)
  | fail (e : ε)
  | atom {β : Type} (f : σ → β × σ) (k : β → Prog σ ε α)

namespace Prog
variable {σ τ ε δ α β : Type}

/-- Run `p`, then what `k` makes of its value. -/
def bind : Prog σ ε α → (α → Prog σ ε β) → Prog σ ε β
  | .ret a, k => k a
  | .fail e, _ => .fail e
  | .atom f g, k => .atom f (fun b => (g b).bind k)

/-- A failure ends the rest of a program. -/
instance : Monad (Prog σ ε) where
  pure := .ret
  bind := bind

/-- A single atomic step. -/
def lift (f : σ → α × σ) : Prog σ ε α := .atom f .ret

/-- A value or an error that is known already. -/
def ofExcept : Except ε α → Prog σ ε α
  | .ok a => .ret a
  | .error e => .fail e

/-- Map the errors of a program (Rust `map_err`). -/
def mapErr (g : ε → δ) : Prog σ ε α → Prog σ δ α
  | .ret a => .ret a
  | .fail e => .fail (g e)
  | .atom f k => .atom f (fun b => (k b).mapErr g)

/-- Run a program and return its outcome, so that an error can be looked at. -/
def attempt : Prog σ ε α → Prog σ δ (Except ε α)
  | .ret a => .ret (.ok a)
  | .fail e => .ret (.error e)
  | .atom f k => .atom f (fun b => (k b).attempt)

/-- Run a program to its end with no other program in between. -/
def run : Prog σ ε α → σ → Except ε α × σ
  | .ret a, s => (.ok a, s)
  | .fail e, s => (.error e, s)
  | .atom f k, s => (k (f s).1).run (f s).2

section Run
variable {p : Prog σ ε α} {k : α → Prog σ ε β} {s : σ}

/-- A pure value is returned. -/
@[simp] lemma run_pure {a : α} : (pure a : Prog σ ε α).run s = (.ok a, s) := rfl

/-- A returned value is returned. -/
@[simp] lemma run_ret {a : α} : (ret a : Prog σ ε α).run s = (.ok a, s) := rfl

/-- A failure fails, with the state as it is. -/
@[simp] lemma run_fail {e : ε} : (fail e : Prog σ ε α).run s = (.error e, s) := rfl

/-- A function of the state takes effect. -/
@[simp] lemma run_lift {f : σ → α × σ} :
    (lift f : Prog σ ε α).run s = (.ok (f s).1, (f s).2) := rfl

/-- A result is passed on. -/
@[simp] lemma run_ofExcept {r : Except ε α} : (ofExcept r : Prog σ ε α).run s = (r, s) := by
  cases r <;> rfl

/-- Sequencing is associative. -/
lemma bind_assoc {γ : Type} {l : β → Prog σ ε γ} :
    (p >>= k) >>= l = p >>= fun a => k a >>= l := by
  induction p with
  | ret a => rfl
  | fail e => rfl
  | atom f g ih => exact congrArg (Prog.atom f) (funext ih)

/-- A sequence runs its second part from where the first one returned. -/
lemma run_bind : (p >>= k).run s =
    match p.run s with
    | (.ok a, t) => (k a).run t
    | (.error e, t) => (.error e, t) := by
  induction p generalizing s with
  | ret a => rfl
  | fail e => rfl
  | atom f g ih => exact ih _

/-- Running a sequence whose first part returns. -/
lemma run_bind_ok {a t r} (h : p.run s = (.ok a, t)) (hk : (k a).run t = r) :
    (p >>= k).run s = r := by
  rw [run_bind, h]
  exact hk

/-- Mapping errors does not change what a program does. -/
@[simp] lemma run_mapErr {g : ε → δ} :
    (p.mapErr g).run s = ((p.run s).1.mapError g, (p.run s).2) := by
  induction p generalizing s with
  | ret a => rfl
  | fail e => rfl
  | atom f k ih => exact ih _

/-- Recovering from errors does not change what a program does. -/
@[simp] lemma run_attempt :
    (p.attempt : Prog σ δ _).run s = (.ok (p.run s).1, (p.run s).2) := by
  induction p generalizing s with
  | ret a => rfl
  | fail e => rfl
  | atom f k ih => exact ih _

/-- What a returning sequence tells: its first part returned and its second part did from there. -/
lemma bind_eq_ok {b u} (h : (p >>= k).run s = (.ok b, u)) :
    ∃ a t, p.run s = (.ok a, t) ∧ (k a).run t = (.ok b, u) := by
  rw [run_bind] at h
  cases hp : p.run s with
  | mk r t =>
    rw [hp] at h
    cases r with
    | ok a => exact ⟨a, t, rfl, h⟩
    | error e => cases h

/-- A sequence returns when its parts do. -/
lemma bind_returns {a t} (h : p.run s = (.ok a, t)) (hk : ∃ b u, (k a).run t = (.ok b, u)) :
    ∃ b u, (p >>= k).run s = (.ok b, u) := by
  obtain ⟨b, u, hk⟩ := hk
  exact ⟨b, u, run_bind_ok h hk⟩

/-- A mapped error changes no success. -/
lemma run_mapErr_ok {g : ε → δ} {a t} (h : p.run s = (.ok a, t)) :
    (p.mapErr g).run s = (.ok a, t) := by
  rw [run_mapErr, h]
  rfl

/-- What a returning program with mapped errors tells. -/
lemma mapErr_eq_ok {g : ε → δ} {a t} (h : (p.mapErr g).run s = (.ok a, t)) :
    p.run s = (.ok a, t) := by
  rw [run_mapErr] at h
  cases hp : p.run s with
  | mk r u =>
    rw [hp] at h
    cases r with
    | ok b =>
      cases h
      rfl
    | error e => cases h

end Run

/-- `p` leaves the part `V` of the state alone. -/
def Reads (V : σ → τ) (p : Prog σ ε α) : Prop := ∀ s, V (p.run s).2 = V s

namespace Reads
variable {V : σ → τ} {p : Prog σ ε α} {k : α → Prog σ ε β}

/-- A run of a program that leaves the view alone. -/
lemma of_run (hp : Reads V p) {s r t} (h : p.run s = (r, t)) : V t = V s := by
  have hs := hp s
  rw [h] at hs
  exact hs

/-- Returning leaves every view alone. -/
lemma ret {a : α} : Reads V (Prog.ret a : Prog σ ε α) := fun _ => rfl

/-- Failing leaves every view alone. -/
lemma fail {e : ε} : Reads V (Prog.fail e : Prog σ ε α) := fun _ => rfl

/-- A function leaves a view alone when it does so on every state. -/
lemma lift {f : σ → α × σ} (h : ∀ s, V (f s).2 = V s) : Reads V (Prog.lift f : Prog σ ε α) := h

/-- Passing a result on leaves every view alone. -/
lemma ofExcept {r : Except ε α} : Reads V (Prog.ofExcept r : Prog σ ε α) := by
  intro s
  rw [run_ofExcept]

/-- A program leaves a view alone when each of its parts does. -/
lemma bind (hp : Reads V p) (hk : ∀ a, Reads V (k a)) : Reads V (p >>= k) := by
  intro s
  rw [run_bind]
  have h := hp s
  cases hr : p.run s with
  | mk r t =>
    rw [hr] at h
    cases r with
    | ok a => exact (hk a t).trans h
    | error e => exact h

/-- Reading afterwards does not change what a program did. -/
lemma after_bind (hk : ∀ a, Reads V (k a)) {s : σ} : V ((p >>= k).run s).2 = V (p.run s).2 := by
  rw [run_bind]
  cases hr : p.run s with
  | mk r t =>
    cases r with
    | ok a => exact hk a t
    | error e => rfl

/-- Mapped errors leave the views that the program leaves alone. -/
lemma mapErr {g : ε → δ} (hp : Reads V p) : Reads V (p.mapErr g) := by
  intro s
  rw [run_mapErr]
  exact hp s

/-- An attempt leaves the views alone that the program leaves alone. -/
lemma attempt (hp : Reads V p) : Reads V (p.attempt : Prog σ δ _) := by
  intro s
  rw [run_attempt]
  exact hp s

end Reads

/-- `p` leaves the part `V` of the state alone or changes it once, as `φ` says. -/
def Writes (V : σ → τ) (φ : τ → τ → Prop) (p : Prog σ ε α) : Prop :=
  ∀ s, V (p.run s).2 = V s ∨ φ (V s) (V (p.run s).2)

namespace Writes
variable {V : σ → τ} {φ ψ : τ → τ → Prop} {p : Prog σ ε α} {k : α → Prog σ ε β}

/-- A weaker relation is written as well. -/
lemma mono (h : Writes V φ p) (hφ : ∀ a b, φ a b → ψ a b) : Writes V ψ p :=
  fun s => (h s).imp_right (hφ _ _)

/-- Leaving the view alone is one way of writing it. -/
lemma of_reads (h : Reads V p) : Writes V φ p := fun s => Or.inl (h s)

/-- Reading before the write. -/
lemma bind_right (hp : Reads V p) (hk : ∀ a, Writes V φ (k a)) : Writes V φ (p >>= k) := by
  intro s
  rw [run_bind]
  have h := hp s
  cases hr : p.run s with
  | mk r t =>
    rw [hr] at h
    cases r with
    | ok a =>
      rw [← h]
      exact hk a t
    | error e => exact Or.inl h

/-- Reading before the write, which may rely on what has been read. -/
lemma bind_of {g : τ → α} (hp : Reads V p) (hg : ∀ s a t, p.run s = (.ok a, t) → a = g (V s))
    (hk : ∀ a, Writes V (fun v v' => a = g v → φ v v') (k a)) : Writes V φ (p >>= k) := by
  intro s
  rw [run_bind]
  have h := hp s
  cases hr : p.run s with
  | mk r t =>
    rw [hr] at h
    cases r with
    | ok a =>
      rw [← h]
      refine (hk a t).imp_right fun hφ => hφ ?_
      rw [h]
      exact hg s a t hr
    | error e => exact Or.inl h

/-- A check before the write, which may rely on it. -/
lemma ofExcept_bind {r : Except ε α} (hk : ∀ a, r = .ok a → Writes V φ (k a)) :
    Writes V φ (Prog.ofExcept r >>= k) := by
  cases r with
  | ok a => exact hk a rfl
  | error e => exact of_reads Reads.fail

/-- Reading after the write. -/
lemma bind_left (hp : Writes V φ p) (hk : ∀ a, Reads V (k a)) : Writes V φ (p >>= k) := by
  intro s
  rw [run_bind]
  have h := hp s
  cases hr : p.run s with
  | mk r t =>
    rw [hr] at h
    cases r with
    | ok a =>
      show V ((k a).run t).2 = V s ∨ φ (V s) (V ((k a).run t).2)
      rw [hk a t]
      exact h
    | error e => exact h

/-- Mapped errors write what the program writes. -/
lemma mapErr {g : ε → δ} (hp : Writes V φ p) : Writes V φ (p.mapErr g) := by
  intro s
  rw [run_mapErr]
  exact hp s

/-- An attempt writes what the program writes. -/
lemma attempt (hp : Writes V φ p) : Writes V φ (p.attempt : Prog σ δ _) := by
  intro s
  rw [run_attempt]
  exact hp s

end Writes

/-- A run of `p` from a state in `P` that returns does so in `Q`. -/
def Ensures (P : σ → Prop) (p : Prog σ ε α) (Q : α → σ → Prop) : Prop :=
  ∀ s a t, P s → p.run s = (.ok a, t) → Q a t

namespace Ensures
variable {P P' : σ → Prop} {Q Q' : α → σ → Prop} {p : Prog σ ε α} {k : α → Prog σ ε β}

/-- Returning ensures what holds of the value. -/
lemma ret {a : α} (h : ∀ s, P s → Q a s) : Ensures P (Prog.ret a : Prog σ ε α) Q := by
  intro s b t hs e
  cases e
  exact h s hs

/-- A failure ensures everything of its successes, having none. -/
lemma fail {e : ε} : Ensures P (Prog.fail e : Prog σ ε α) Q := by
  intro s b t hs h
  cases h

/-- A result ensures what holds of its value. -/
lemma ofExcept {r : Except ε α} (h : ∀ a, r = .ok a → ∀ s, P s → Q a s) :
    Ensures P (Prog.ofExcept r : Prog σ ε α) Q := by
  intro s a t hs e
  rw [run_ofExcept] at e
  cases e
  exact h a rfl s hs

/-- A function ensures what holds of its value and its state. -/
lemma lift {f : σ → α × σ} (h : ∀ s, P s → Q (f s).1 (f s).2) :
    Ensures P (Prog.lift f : Prog σ ε α) Q := by
  intro s a t hs e
  cases e
  exact h s hs

/-- What the first part ensures is what the second may assume. -/
lemma bind {R : β → σ → Prop} (hp : Ensures P p Q) (hk : ∀ a, Ensures (Q a) (k a) R) :
    Ensures P (p >>= k) R := by
  intro s b u hs h
  obtain ⟨a, t, h₁, h₂⟩ := bind_eq_ok h
  exact hk a t b u (hp s a t hs h₁) h₂

/-- What follows a check may rely on it. -/
lemma ofExcept_bind {r : Except ε α} {R : β → σ → Prop} (hk : ∀ a, r = .ok a → Ensures P (k a) R) :
    Ensures P (Prog.ofExcept r >>= k) R := by
  cases r with
  | ok a => exact hk a rfl
  | error e => exact fail

/-- Mapped errors ensure what the program ensures. -/
lemma mapErr {g : ε → δ} (hp : Ensures P p Q) : Ensures P (p.mapErr g) Q :=
  fun s a t hs h => hp s a t hs (mapErr_eq_ok h)

/-- An attempt ensures the postcondition when it has succeeded. -/
lemma attempt (hp : Ensures P p Q) :
    Ensures P (p.attempt : Prog σ δ _) (fun r s => ∀ a, r = .ok a → Q a s) := by
  intro s r t hs h a ha
  rw [run_attempt] at h
  cases h
  exact hp s a _ hs (Prod.ext ha rfl)

/-- The precondition may be stronger and the postcondition weaker. -/
lemma mono (hp : Ensures P p Q) (hP : ∀ s, P' s → P s) (hQ : ∀ a s, Q a s → Q' a s) :
    Ensures P' p Q' :=
  fun s a t hs h => hQ a t (hp s a t (hP s hs) h)

/-- What only depends on a part of the state survives a program that leaves the part alone. -/
lemma of_reads {V : σ → τ} {I : τ → Prop} (h : Reads V p) :
    Ensures (fun s => I (V s)) p (fun _ s => I (V s)) := by
  intro s a t hs e
  show I (V t)
  rw [h.of_run e]
  exact hs

end Ensures

/-- A run of `p` from a state in `I` ends in one, whether it returns or fails. -/
def Keeps (I : σ → Prop) (p : Prog σ ε α) : Prop := ∀ s, I s → I (p.run s).2

namespace Keeps
variable {I : σ → Prop} {p : Prog σ ε α} {k : α → Prog σ ε β}

/-- A run of a program that keeps an invariant. -/
lemma of_run (hp : Keeps I p) {s r t} (hs : I s) (h : p.run s = (r, t)) : I t := by
  have ht := hp s hs
  rw [h] at ht
  exact ht

/-- What only depends on a part of the state is kept by a program that leaves the part alone. -/
lemma of_reads {V : σ → τ} {J : τ → Prop} (h : Reads V p) : Keeps (fun s => J (V s)) p := by
  intro s hs
  show J (V (p.run s).2)
  rw [h s]
  exact hs

/-- Returning keeps every invariant. -/
lemma ret {a : α} : Keeps I (Prog.ret a : Prog σ ε α) := fun _ hs => hs

/-- Failing keeps every invariant. -/
lemma fail {e : ε} : Keeps I (Prog.fail e : Prog σ ε α) := fun _ hs => hs

/-- A function keeps an invariant when it does so on every state. -/
lemma lift {f : σ → α × σ} (h : ∀ s, I s → I (f s).2) : Keeps I (Prog.lift f : Prog σ ε α) := h

/-- Passing a result on keeps every invariant. -/
lemma ofExcept {r : Except ε α} : Keeps I (Prog.ofExcept r : Prog σ ε α) := by
  intro s hs
  rw [run_ofExcept]
  exact hs

/-- The second part may rely on what the first one ensures of its value. -/
lemma bind_of {Q : α → Prop} (hp : Keeps I p) (he : Ensures I p (fun a _ => Q a))
    (hk : ∀ a, Q a → Keeps I (k a)) : Keeps I (p >>= k) := by
  intro s hs
  rw [run_bind]
  have h := hp s hs
  cases hr : p.run s with
  | mk r t =>
    rw [hr] at h
    cases r with
    | ok a => exact hk a (he s a t hs hr) t h
    | error e => exact h

/-- A program keeps an invariant when each of its parts does. -/
lemma bind (hp : Keeps I p) (hk : ∀ a, Keeps I (k a)) : Keeps I (p >>= k) :=
  bind_of (Q := fun _ => True) hp (fun _ _ _ _ _ => trivial) (fun a _ => hk a)

/-- Mapped errors keep the invariants that the program keeps. -/
lemma mapErr {g : ε → δ} (hp : Keeps I p) : Keeps I (p.mapErr g) := by
  intro s hs
  rw [run_mapErr]
  exact hp s hs

/-- An attempt keeps the invariants that the program keeps. -/
lemma attempt (hp : Keeps I p) : Keeps I (p.attempt : Prog σ δ _) := by
  intro s hs
  rw [run_attempt]
  exact hp s hs

end Keeps

/-- A run of `p` that fails does so with an error in `E`. -/
def FailsIn (E : ε → Prop) (p : Prog σ ε α) : Prop := ∀ s e t, p.run s = (.error e, t) → E e

namespace FailsIn
variable {E : ε → Prop} {p : Prog σ ε α} {k : α → Prog σ ε β}

/-- Returning does not fail. -/
lemma ret {a : α} : FailsIn E (Prog.ret a : Prog σ ε α) := by
  intro s e t h
  cases h

/-- A failure fails in its own error. -/
lemma fail {e : ε} (h : E e) : FailsIn E (Prog.fail e : Prog σ ε α) := by
  intro s e' t h'
  cases h'
  exact h

/-- A function does not fail. -/
lemma lift {f : σ → α × σ} : FailsIn E (Prog.lift f : Prog σ ε α) := by
  intro s e t h
  cases h

/-- A result fails in its own error. -/
lemma ofExcept {r : Except ε α} (h : ∀ e, r = .error e → E e) :
    FailsIn E (Prog.ofExcept r : Prog σ ε α) := by
  intro s e t h'
  rw [run_ofExcept] at h'
  cases h'
  exact h e rfl

/-- A program fails in the errors of its parts. -/
lemma bind (hp : FailsIn E p) (hk : ∀ a, FailsIn E (k a)) : FailsIn E (p >>= k) := by
  intro s e t h
  rw [run_bind] at h
  cases hr : p.run s with
  | mk r u =>
    rw [hr] at h
    cases r with
    | ok a => exact hk a u e t h
    | error e' =>
      cases h
      exact hp s e t hr

/-- Errors that are all mapped into `E`. -/
lemma mapErr {E : δ → Prop} {g : ε → δ} (h : ∀ e, E (g e)) : FailsIn E (p.mapErr g) := by
  intro s e t h'
  rw [run_mapErr] at h'
  cases hr : p.run s with
  | mk r u =>
    rw [hr] at h'
    cases r with
    | ok a => cases h'
    | error e' =>
      cases h'
      exact h e'

end FailsIn

/-- A run of `p` that fails leaves the part `V` of the state alone. -/
def Atomic (V : σ → τ) (p : Prog σ ε α) : Prop := ∀ s e t, p.run s = (.error e, t) → V t = V s

namespace Atomic
variable {V : σ → τ} {p : Prog σ ε α} {k : α → Prog σ ε β}

/-- A program that leaves the view alone leaves it alone when it fails. -/
lemma of_reads (h : Reads V p) : Atomic V p := fun _ _ _ e => h.of_run e

/-- Reading before the write. -/
lemma bind_right (hp : Reads V p) (hk : ∀ a, Atomic V (k a)) : Atomic V (p >>= k) := by
  intro s e u h
  rw [run_bind] at h
  cases hr : p.run s with
  | mk r t =>
    rw [hr] at h
    cases r with
    | ok a => exact (hk a t e u h).trans (hp.of_run hr)
    | error e' =>
      cases h
      exact hp.of_run hr

/-- Nothing fails after the write. -/
lemma bind_left (hp : Atomic V p) (hk : ∀ a, FailsIn (fun _ => False) (k a)) :
    Atomic V (p >>= k) := by
  intro s e u h
  rw [run_bind] at h
  cases hr : p.run s with
  | mk r t =>
    rw [hr] at h
    cases r with
    | ok a => exact (hk a t e u h).elim
    | error e' =>
      cases h
      exact hp s e _ hr

/-- Mapped errors leave a program atomic. -/
lemma mapErr {g : ε → δ} (hp : Atomic V p) : Atomic V (p.mapErr g) := by
  intro s e t h
  rw [run_mapErr] at h
  cases hr : p.run s with
  | mk r u =>
    rw [hr] at h
    cases r with
    | ok a => cases h
    | error e' =>
      cases h
      exact hp s e' _ hr

/-- Nothing fails after a write that returned; after one that failed the rest may go on. -/
lemma attempt_bind {k : Except ε α → Prog σ δ β} (hp : Atomic V p)
    (hok : ∀ a, FailsIn (fun _ => False) (k (.ok a))) (herror : ∀ e, Atomic V (k (.error e))) :
    Atomic V (p.attempt >>= k) := by
  intro s e t h
  rw [run_bind, run_attempt] at h
  cases hr : p.run s with
  | mk r u =>
    rw [hr] at h
    cases r with
    | ok a => exact (hok a u e t h).elim
    | error e' => exact (herror e' u e t h).trans (hp s e' u hr)

/-- What is changed by runs that return is changed by all runs. -/
lemma writes {φ : τ → τ → Prop} (hp : Atomic V p)
    (h : ∀ s a t, p.run s = (.ok a, t) → φ (V s) (V t)) : Writes V φ p := by
  intro s
  cases hr : p.run s with
  | mk r t =>
    cases r with
    | ok a => exact Or.inr (h s a t hr)
    | error e => exact Or.inl (hp s e t hr)

end Atomic
end Prog
end Egras.Lib
