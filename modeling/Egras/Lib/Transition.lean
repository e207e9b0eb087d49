import Mathlib.Data.List.Induction
import Mathlib.Logic.Relation

/-!
# Runs of a labelled transition relation

A system is a relation `step : σ → ℓ → σ → Prop`; a run is the list of its moves, each with the
state before, the label and the state after. What a whole run preserves is derived from what one
step preserves by the two induction rules below: `Run.invariant` for the last state and
`Run.forall_moves` for every move, both relative to a condition `C` on the moves of the run (take
`fun _ => True` for an unconditional invariant). What holds at the end of a run and not at its start
is traced to the move that brings it about by `Run.exists_turn`, and within a move that is a path of
smaller steps by `exists_turn`. `Run.map` transports a run along a simulation whose steps are matched
one for one or not at all.
-/

namespace Egras.Lib
open Relation
variable {σ ℓ : Type*}

/-- A path that ends with a property it does not start with has a step that brings it about. -/
lemma exists_turn {r : σ → σ → Prop} {P : σ → Prop} {s t : σ} (path : ReflTransGen r s t)
    (hs : ¬ P s) (ht : P t) :
    ∃ a b, ReflTransGen r s a ∧ r a b ∧ ReflTransGen r b t ∧ ¬ P a ∧ P b := by
  induction path using ReflTransGen.head_induction_on with
  | refl => exact absurd ht hs
  | @head a b hstep rest ih =>
    by_cases hb : P b
    · exact ⟨a, b, .refl, hstep, rest, hs, hb⟩
    · obtain ⟨c, d, hbefore, hturn, hafter, hc, hd⟩ := ih hb
      exact ⟨c, d, .head hstep hbefore, hturn, hafter, hc, hd⟩

/-- One step of a run: the state before, the label and the state after. -/
structure Move (σ ℓ : Type*) where
  pre : σ
  label : ℓ
  post : σ

/-- The runs of `step` from `s`, with their moves in order. -/
inductive Run (step : σ → ℓ → σ → Prop) (s : σ) : List (Move σ ℓ) → σ → Prop
  | nil : Run step s [] s
  | snoc {ms t l u} (run : Run step s ms t) (move : step t l u) :
      Run step s (ms ++ [⟨t, l, u⟩]) u

namespace Run
variable {step : σ → ℓ → σ → Prop} {s t u : σ} {ms ns : List (Move σ ℓ)}

/-- A single step is a run. -/
lemma single {l} (h : step s l t) : Run step s [⟨s, l, t⟩] t := snoc nil h

/-- Runs compose. -/
lemma append (h : Run step s ms t) (k : Run step t ns u) : Run step s (ms ++ ns) u := by
  induction k with
  | nil => simpa using h
  | snoc _ move ih =>
    rw [← List.append_assoc]
    exact snoc ih move

/-- Put a step in front of a run. -/
lemma cons {l} (h : step s l t) (k : Run step t ns u) : Run step s (⟨s, l, t⟩ :: ns) u :=
  append (single h) k

/-- An invariant that every step satisfying `C` preserves holds at the end of a run all of whose
moves satisfy `C`. -/
lemma invariant (Inv : σ → Prop) (C : Move σ ℓ → Prop) (run : Run step s ms t) (init : Inv s)
    (pres : ∀ a l b, step a l b → C ⟨a, l, b⟩ → Inv a → Inv b) (cond : ∀ m ∈ ms, C m) :
    Inv t := by
  induction run with
  | nil => exact init
  | snoc _ move ih =>
    refine pres _ _ _ move (cond _ (by simp)) (ih (fun m hm => cond m ?_))
    exact List.mem_append_left _ hm

/-- Every move of a run is a step that starts in a state satisfying the invariant. -/
lemma forall_moves (Inv : σ → Prop) (C : Move σ ℓ → Prop) (run : Run step s ms t) (init : Inv s)
    (pres : ∀ a l b, step a l b → C ⟨a, l, b⟩ → Inv a → Inv b) (cond : ∀ m ∈ ms, C m) :
    ∀ m ∈ ms, step m.pre m.label m.post ∧ Inv m.pre := by
  induction run with
  | nil => simp
  | @snoc ms t l u run move ih =>
    have cond' : ∀ m ∈ ms, C m := fun m hm => cond m (List.mem_append_left _ hm)
    intro m hm
    rcases List.mem_append.mp hm with hm | hm
    · exact ih cond' m hm
    · cases List.mem_singleton.mp hm
      exact ⟨move, run.invariant Inv C init pres cond'⟩

/-- Every move of a run is a step. -/
lemma step_of_mem (run : Run step s ms t) {m} (hm : m ∈ ms) : step m.pre m.label m.post :=
  (run.forall_moves (fun _ => True) (fun _ => True) trivial
    (fun _ _ _ _ _ _ => trivial) (fun _ _ => trivial) m hm).1

/-- A run that ends with a property it does not start with has a move that brings it about. -/
lemma exists_turn {P : σ → Prop} (run : Run step s ms t) (hs : ¬ P s) (ht : P t) :
    ∃ m ∈ ms, ¬ P m.pre ∧ P m.post := by
  induction run with
  | nil => exact absurd ht hs
  | @snoc ms t l u run move ih =>
    by_cases hmid : P t
    · obtain ⟨m, hm, hturn⟩ := ih hmid
      exact ⟨m, List.mem_append_left _ hm, hturn⟩
    · exact ⟨⟨t, l, u⟩, List.mem_append_right _ (List.mem_singleton_self _), hmid, ht⟩

/-- A run can be cut at any of its moves. -/
lemma split (run : Run step s ms t) {m} (hm : m ∈ ms) :
    ∃ before after, ms = before ++ m :: after ∧ Run step s before m.pre ∧
      Run step m.post after t := by
  induction run with
  | nil => cases hm
  | @snoc ms t l u run move ih =>
    rcases List.mem_append.mp hm with hm | hm
    · obtain ⟨before, after, e, hb, ha⟩ := ih hm
      exact ⟨before, after ++ [⟨t, l, u⟩], by simp [e], hb, snoc ha move⟩
    · cases List.mem_singleton.mp hm
      exact ⟨ms, [], rfl, run, nil⟩

/-- The moves of a run without its last part form a run as well. -/
lemma of_append (run : Run step s (ms ++ ns) u) : ∃ t, Run step s ms t ∧ Run step t ns u := by
  induction ns using List.reverseRecOn generalizing u with
  | nil => exact ⟨u, by simpa using run, nil⟩
  | append_singleton ns m ih =>
    rw [← List.append_assoc] at run
    generalize e : ms ++ ns ++ [m] = ks at run
    cases run with
    | nil => simp at e
    | snoc run move =>
      obtain ⟨e₁, e₂⟩ := List.append_inj' e rfl
      cases e₂
      subst e₁
      obtain ⟨t, h₁, h₂⟩ := ih run
      exact ⟨t, h₁, snoc h₂ move⟩

/-- A run without moves goes nowhere. -/
lemma of_nil (run : Run step s [] t) : t = s := by
  generalize e : [] = ks at run
  cases run with
  | nil => rfl
  | snoc _ _ => simp at e

/-- The first move of a run starts where the run starts. -/
lemma of_cons {m} (run : Run step s (m :: ms) t) :
    m.pre = s ∧ step s m.label m.post ∧ Run step m.post ms t := by
  have run' : Run step s ([m] ++ ms) t := run
  obtain ⟨u, first, rest⟩ := run'.of_append
  generalize e : [m] = ks at first
  cases first with
  | nil => cases e
  | snoc before move =>
    have e' : [] ++ [m] = _ := e
    obtain ⟨e₁, e₂⟩ := List.append_inj' e' rfl
    cases e₂
    subst e₁
    cases before.of_nil
    exact ⟨rfl, move, rest⟩

/-- Runs of a system are runs of the system it simulates, when a step is matched by one step or
leaves the simulated state alone. -/
lemma map {σ' ℓ' : Type*} {step' : σ' → ℓ' → σ' → Prop} (f : σ → σ') (run : Run step s ms t)
    (sim : ∀ a l b, step a l b → f a = f b ∨ ∃ l', step' (f a) l' (f b)) :
    ∃ ms', Run step' (f s) ms' (f t) := by
  induction run with
  | nil => exact ⟨[], nil⟩
  | snoc _ move ih =>
    obtain ⟨ms', ih⟩ := ih
    rcases sim _ _ _ move with h | ⟨l', h⟩
    · exact ⟨ms', h ▸ ih⟩
    · exact ⟨_, snoc ih h⟩

end Run
end Egras.Lib
