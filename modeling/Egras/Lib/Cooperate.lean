import Egras.Lib.Interleave

/-!
# Calls that rely on each other

An invariant of a pool of calls is shown call by call. A call knows something at each of its
positions; the system `Cooperates` when a step of a call brings it what it knows at its next
position, takes nothing from the others, keeps an invariant of the state and moves the state along a
relation, and when the environment does the same. Then every pool that is reached is `Sound`, and
its states lie along the relation in the order of time.
-/

namespace Egras.Lib
variable {ι σ π : Type*}

/-- The rules of a system in which every call can rely on what it knows. -/
structure Cooperates (S : System ι σ π) (inv : σ → Prop) (rel : σ → σ → Prop)
    (knows : σ → ι → π → Prop) : Prop where
  starts : ∀ {s i p}, S.starts p = true → knows s i p
  step : ∀ {i p s q s'}, S.step i p s q s' → inv s → knows s i p → inv s' ∧ rel s s' ∧ knows s' i q
  others : ∀ {i p s q s' j r}, S.step i p s q s' → inv s → knows s i p → j ≠ i → knows s j r →
    knows s' j r
  env : ∀ {s s'}, S.env s s' → inv s → inv s' ∧ rel s s'
  spared : ∀ {s s' j r}, S.env s s' → inv s → knows s j r → knows s' j r

namespace Pool

/-- The state has its invariant and every call knows what it has to. -/
structure Sound (inv : σ → Prop) (knows : σ → ι → π → Prop) (P : Pool ι σ π) : Prop where
  state : inv P.state
  calls : ∀ i c, P.calls i = some c → knows P.state i c.pos

/-- The states lie along a relation in the order of time. -/
def Advances (rel : σ → σ → Prop) (P : Pool ι σ π) : Prop :=
  ∀ n m, n ≤ m → m ≤ P.time → rel (P.hist n) (P.hist m)

variable {inv : σ → Prop} {rel : σ → σ → Prop} {knows : σ → ι → π → Prop}

/-- Without calls there is nothing to know. -/
lemma sound_idle {s : σ} (h : inv s) : Sound inv knows (idle ι π s) :=
  ⟨h, fun _ _ hc => nomatch hc⟩

/-- Without calls nothing has advanced. -/
lemma advances_idle {s : σ} (hrefl : ∀ s, rel s s) : Advances rel (idle ι π s) :=
  fun _ _ _ _ => hrefl s

end Pool

namespace Cooperates
variable [DecidableEq ι] {S : System ι σ π} {inv : σ → Prop} {rel : σ → σ → Prop}
  {knows : σ → ι → π → Prop} {P Q : Pool ι σ π} {turn : Turn ι}
  (hS : Cooperates S inv rel knows)
include hS

/-- Every step keeps a pool sound. -/
lemma sound (h : Pool.Step S P turn Q) (hP : P.Sound inv knows) : Q.Sound inv knows := by
  obtain ⟨hstate, hcalls⟩ := hP
  cases h.cause with
  | begins i hturn state =>
    rw [← state] at hstate hcalls
    refine ⟨hstate, fun j c hc => ?_⟩
    cases h.call hc with
    | same hold => exact hcalls j c hold
    | opened _ _ starts _ _ => exact hS.starts starts
    | moved hmoves =>
      rw [hturn] at hmoves
      cases hmoves
  | elsewhere hturn env =>
    refine ⟨(hS.env env hstate).1, fun j c hc => ?_⟩
    cases h.call hc with
    | same hold => exact hS.spared env hstate (hcalls j c hold)
    | opened hbegins =>
      rw [hturn] at hbegins
      cases hbegins
    | moved hmoves =>
      rw [hturn] at hmoves
      cases hmoves
  | moved i b e hturn there here step _ =>
    obtain ⟨hstate', -, hknows⟩ := hS.step step hstate (hcalls i b there)
    refine ⟨hstate', fun j c hc => ?_⟩
    by_cases hji : j = i
    · subst hji
      cases here.symm.trans hc
      exact hknows
    · -- another call stands where it stood, and the mover has taken nothing from it
      cases h.call hc with
      | same hold => exact hS.others step hstate (hcalls i b there) hji (hcalls j c hold)
      | opened hbegins =>
        rw [hturn] at hbegins
        cases hbegins
      | moved hmoves =>
        rw [hturn] at hmoves
        cases hmoves
        exact absurd rfl hji

/-- Every step of a sound pool moves the state along the relation. -/
lemma advance (hrefl : ∀ s, rel s s) (h : Pool.Step S P turn Q) (hP : P.Sound inv knows) :
    rel P.state Q.state := by
  cases h.cause with
  | begins i hturn state =>
    rw [state]
    exact hrefl _
  | elsewhere hturn env => exact (hS.env env hP.state).2
  | moved i b e hturn there here step _ => exact (hS.step step hP.state (hP.calls i b there)).2.1

variable {ms : List (Move (Pool ι σ π) (Turn ι))}

/-- Every pool that is reached from a sound one is sound. -/
theorem sound_run (run : Run (Pool.Step S) P ms Q) (hP : P.Sound inv knows) : Q.Sound inv knows :=
  run.invariant (fun P => P.Sound inv knows) (fun _ => True) hP
    (fun _ _ _ step _ hP => hS.sound step hP) (fun _ _ => trivial)

/-- Along every run the states lie along the relation. -/
theorem advances_run (hrefl : ∀ s, rel s s) (htrans : ∀ s t u, rel s t → rel t u → rel s u)
    (run : Run (Pool.Step S) P ms Q) (hP : P.Sound inv knows) (hadv : P.Advances rel) :
    Q.Advances rel := by
  refine (run.invariant (fun P => P.Sound inv knows ∧ P.Advances rel) (fun _ => True) ⟨hP, hadv⟩
    (fun P turn Q step _ hP => ⟨hS.sound step hP.1, ?_⟩) (fun _ _ => trivial)).2
  intro n m hnm hm
  rw [step.time] at hm
  rcases Nat.lt_or_eq_of_le hm with hpast | rfl
  · have hm' : m ≤ P.time := Nat.le_of_lt_succ hpast
    rw [step.hist hm', step.hist (Nat.le_trans hnm hm')]
    exact hP.2 n m hnm hm'
  · -- up to the last instant, and then one step further
    rcases Nat.lt_or_eq_of_le hnm with hn | rfl
    · have hn' : n ≤ P.time := Nat.le_of_lt_succ hn
      rw [step.hist hn', step.hist_time]
      exact htrans _ _ _ (hP.2 n P.time hn' (Nat.le_refl _)) (hS.advance hrefl step hP.1)
    · exact hrefl _

end Cooperates
end Egras.Lib
