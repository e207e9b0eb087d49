import Mathlib.Logic.Function.Basic
import Mathlib.Tactic.Lemma

/-!
# Exclusive row locks

Transactions take locks on rows one at a time and keep them until they end. A lock is granted when
nobody else holds it; a transaction that is not granted one waits or passes the row over. What a
transaction holds, no step of another one takes away (`Holds.take`, `Holds.releaseAll`), and nobody
else holds it as well (`Holds.unique`).
-/

namespace Egras.Lib
variable {ι κ : Type*}

/-- Who holds the lock on each row. -/
structure Locks (ι κ : Type*) where
  holder : κ → Option ι

namespace Locks

/-- No row is locked. -/
def free : Locks ι κ := ⟨fun _ => none⟩

/-- A transaction holds the lock on a row. -/
def Holds (l : Locks ι κ) (i : ι) (k : κ) : Prop := l.holder k = some i

/-- One transaction at most holds the lock on a row. -/
lemma Holds.unique {l : Locks ι κ} {i j : ι} {k : κ} (hi : l.Holds i k) (hj : l.Holds j k) : i = j :=
  Option.some.inj (hi.symm.trans hj)

variable [DecidableEq ι]

/-- Whether a transaction gets the lock on a row without waiting. -/
def grants (l : Locks ι κ) (i : ι) (k : κ) : Bool := (l.holder k).all (fun j => j = i)

/-- A transaction ends and gives its locks back. -/
def releaseAll (l : Locks ι κ) (i : ι) : Locks ι κ :=
  ⟨fun k => (l.holder k).filter (fun j => j ≠ i)⟩

/-- A lock is granted when nobody else holds it. -/
lemma grants_iff {l : Locks ι κ} {i : ι} {k : κ} :
    l.grants i k = true ↔ ∀ j, l.Holds j k → j = i := by
  unfold grants Holds
  cases l.holder k with
  | none => simp
  | some j => simp

/-- A free lock is granted. -/
@[simp] lemma grants_free {i : ι} {k : κ} : (free : Locks ι κ).grants i k = true := rfl

/-- Who ends gives back no lock of another transaction. -/
lemma Holds.releaseAll {l : Locks ι κ} {i j : ι} {k : κ} (h : l.Holds j k) (hne : j ≠ i) :
    (l.releaseAll i).Holds j k := by
  have hj : l.holder k = some j := h
  show (l.holder k).filter (fun j => j ≠ i) = some j
  rw [hj]
  exact Option.filter_eq_some_iff.mpr ⟨rfl, decide_eq_true hne⟩

/-- What is held after a transaction has ended is held by another one and was before. -/
lemma holds_of_releaseAll {l : Locks ι κ} {i j : ι} {k : κ} (h : (l.releaseAll i).Holds j k) :
    l.Holds j k ∧ j ≠ i := by
  obtain ⟨hold, hne⟩ := Option.filter_eq_some_iff.mp h
  exact ⟨hold, of_decide_eq_true hne⟩

/-- When only one transaction holds locks, nothing is locked after it has ended. -/
lemma releaseAll_eq_free {l : Locks ι κ} {i : ι} (h : ∀ k, l.grants i k = true) :
    l.releaseAll i = free := by
  have hnone : ∀ k, (l.releaseAll i).holder k = none := by
    intro k
    rw [← Option.not_isSome_iff_eq_none, Option.isSome_iff_exists]
    rintro ⟨j, hj⟩
    obtain ⟨hold, hne⟩ := holds_of_releaseAll hj
    exact hne (grants_iff.mp (h k) j hold)
  unfold free
  rw [← funext hnone]

variable [DecidableEq κ]

/-- A transaction takes the lock on a row. -/
def take (l : Locks ι κ) (i : ι) (k : κ) : Locks ι κ := ⟨Function.update l.holder k (some i)⟩

omit [DecidableEq ι] in
/-- Whoever takes a lock holds it. -/
lemma holds_take {l : Locks ι κ} {i : ι} {k : κ} : (l.take i k).Holds i k :=
  Function.update_self _ _ _

/-- Whatever is held stays held when another lock is granted. -/
lemma Holds.take {l : Locks ι κ} {i j : ι} {k k' : κ} (h : l.Holds j k')
    (hgrants : l.grants i k = true) : (l.take i k).Holds j k' := by
  by_cases hk : k' = k
  · subst hk
    rw [grants_iff.mp hgrants j h]
    exact holds_take
  · exact (Function.update_of_ne hk _ _).trans h

omit [DecidableEq ι] in
/-- A lock that is held after one has been taken is that one or was held before. -/
lemma holds_of_take {l : Locks ι κ} {i j : ι} {k k' : κ} (h : (l.take i k).Holds j k') :
    j = i ∧ k' = k ∨ l.Holds j k' := by
  by_cases hk : k' = k
  · subst hk
    exact Or.inl ⟨h.unique holds_take, rfl⟩
  · exact Or.inr ((Function.update_of_ne hk _ _).symm.trans h)

/-- A transaction that is granted every lock is granted every one after taking one. -/
lemma grants_take {l : Locks ι κ} {i : ι} {k k' : κ} (h : l.grants i k' = true) :
    (l.take i k).grants i k' = true := by
  refine grants_iff.mpr fun j hj => ?_
  rcases holds_of_take hj with ⟨hji, -⟩ | hold
  · exact hji
  · exact grants_iff.mp h j hold

end Locks
end Egras.Lib
