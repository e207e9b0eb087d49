import Egras.Lib.Transition
import Mathlib.Algebra.Order.BigOperators.Group.List
import Mathlib.Algebra.Ring.Nat
import Mathlib.Data.List.Perm.Subperm
import Mathlib.Data.List.Sort

/-!
# Charging what happens along a run

`Run.charge` is the argument by a potential: what every move costs is paid for by what it brings in
and by what the potential loses, so that over a run the costs are paid for by what came in and by the
potential at the start. `take_insertionSort` is what makes a queue that is served by its least elements
pay: an element that is passed over has seen a full batch, all of it before itself.
-/

namespace Egras.Lib

section Charge
variable {σ ℓ : Type*} {step : σ → ℓ → σ → Prop} {s t : σ} {ms : List (Move σ ℓ)}

/-- Costs of moves that are paid for by gains and by a potential are so over a run. -/
lemma Run.charge (Φ : σ → ℕ) (cost gain : Move σ ℓ → ℕ) (Inv : σ → Prop) (C : Move σ ℓ → Prop)
    (run : Run step s ms t) (init : Inv s)
    (pres : ∀ a l b, step a l b → C ⟨a, l, b⟩ → Inv a → Inv b)
    (pays : ∀ a l b, step a l b → C ⟨a, l, b⟩ → Inv a →
      Φ b + cost ⟨a, l, b⟩ ≤ Φ a + gain ⟨a, l, b⟩)
    (cond : ∀ m ∈ ms, C m) :
    Φ t + (ms.map cost).sum ≤ Φ s + (ms.map gain).sum := by
  induction run with
  | nil => exact le_rfl
  | @snoc ms t l u run move ih =>
    have cond' : ∀ m ∈ ms, C m := fun m hm => cond m (List.mem_append_left _ hm)
    have hlast : C ⟨t, l, u⟩ := cond _ (List.mem_append_right _ (List.mem_singleton_self _))
    have hinv : Inv t := run.invariant Inv C init pres cond'
    have hpaid := pays t l u move hlast hinv
    have hbefore := ih cond'
    simp only [List.map_append, List.map_singleton, List.sum_append, List.sum_singleton]
    omega

/-- Paying one for each element of a kind is counting them. -/
lemma sum_map_ite {α : Type*} {p : α → Bool} {l : List α} :
    (l.map fun a => if p a then 1 else 0).sum = l.countP p := by
  induction l with
  | nil => rfl
  | cons a l ih =>
    rw [List.map_cons, List.sum_cons, ih, List.countP_cons]
    exact Nat.add_comm _ _

end Charge

section Batch
variable {α : Type*} {r : α → α → Prop} [DecidableRel r] [Std.Total r] [IsTrans α r]

/-- Whoever is not among the first of a queue has a full batch before it. -/
lemma take_insertionSort {l : List α} {n : ℕ} {x : α} (hx : x ∈ l)
    (hnot : x ∉ (l.insertionSort r).take n) :
    ((l.insertionSort r).take n).length = n ∧ ∀ y ∈ (l.insertionSort r).take n, r y x := by
  have hsorted : (l.insertionSort r).Pairwise r := List.pairwise_insertionSort r l
  have hmem : x ∈ l.insertionSort r := (List.mem_insertionSort r).mpr hx
  have hsplit : (l.insertionSort r).take n ++ (l.insertionSort r).drop n = l.insertionSort r :=
    List.take_append_drop n _
  have hlater : x ∈ (l.insertionSort r).drop n := by
    rw [← hsplit] at hmem
    exact (List.mem_append.mp hmem).resolve_left hnot
  constructor
  · rw [List.length_take]
    have hdrop : 0 < ((l.insertionSort r).drop n).length := List.length_pos_of_mem hlater
    rw [List.length_drop] at hdrop
    omega
  · intro y hy
    rw [← hsplit] at hsorted
    exact (List.pairwise_append.mp hsorted).2.2 y hy x hlater

end Batch

/-- Distinct keys that are found among others are no more than these. -/
lemma length_le_of_keys {α β κ : Type*} [DecidableEq κ] {f : α → κ} {g : β → κ} {l : List α}
    {l' : List β}
    (nodup : (l.map f).Nodup) (found : ∀ x ∈ l, ∃ y ∈ l', g y = f x) : l.length ≤ l'.length := by
  have hsub : l.map f ⊆ l'.map g := by
    intro k hk
    obtain ⟨x, hx, rfl⟩ := List.mem_map.mp hk
    obtain ⟨y, hy, hkey⟩ := found x hx
    exact List.mem_map.mpr ⟨y, hy, hkey⟩
  simpa using (List.subperm_of_subset nodup hsub).length_le

end Egras.Lib
