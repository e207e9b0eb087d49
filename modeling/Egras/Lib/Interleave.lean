import Egras.Lib.Transition
import Mathlib.Logic.Function.Basic
import Mathlib.Logic.Relation

/-!
# Calls that interleave on a shared state

Any number of calls run on one state. A call stands at a position, and a system says from which
positions calls begin, what a step of a call does to its position and to the state, and what the
environment may do in between. Steps of different calls interleave in any order.

The step number is the time. A pool keeps the state at every instant so far, and each call when it
began, when it took its last decisive step (the one that its effect or its answer rests on) and when
it ended. No step looks at any of this; properties are stated with it: that a call began after
another one had ended, or that a value was true at an instant between two others.

`Pool.Step.call` says where a call after a step comes from, `Pool.Step.kept` where a call before it
goes, and `Timely` orders the instants of a call. `Pool.perform` runs a schedule of a system whose
steps are functions, and `Pool.run_of_call` a call that nobody disturbs.
-/

namespace Egras.Lib
variable {ι σ π : Type*}

/-- What a call does, step by step, and what the environment may do. -/
structure System (ι σ π : Type*) where
  starts : π → Bool
  step : ι → π → σ → π → σ → Prop
  env : σ → σ → Prop
  decisive : π → π → Bool
  final : π → Bool
  stops : ∀ {i p s q s'}, step i p s q s' → final p = false

/-- A call: where it stands, when it began, when it took its decisive step and when it ended. -/
structure Call (π : Type*) where
  pos : π
  began : ℕ
  mark : Option ℕ
  ended : Option ℕ
deriving DecidableEq

/-- The calls on a state, with the states so far; the last one is that at `time`. -/
structure Pool (ι σ π : Type*) where
  time : ℕ
  hist : ℕ → σ
  calls : ι → Option (Call π)

/-- Who takes a step. -/
inductive Turn (ι : Type*)
  | begins (i : ι)
  | moves (i : ι)
  | elsewhere

/-- A turn of a schedule: a call begins at a position or moves. -/
inductive Act (ι π : Type*)
  | begins (i : ι) (p : π)
  | moves (i : ι)

/-- Whose turn an act is. -/
def Act.turn : Act ι π → Turn ι
  | .begins i _ => .begins i
  | .moves i => .moves i

/-- The names of the calls in schedules of a few calls. -/
inductive Client
  | first
  | second
  | third
deriving DecidableEq

/-- All of them. -/
def Client.all : List Client := [.first, .second, .third]

/-- There are no others. -/
lemma Client.mem_all (i : Client) : i ∈ Client.all := by
  cases i <;> simp [Client.all]

/-- A call takes some steps in a row. -/
def Act.steps (i : ι) (n : ℕ) : List (Act ι π) := List.replicate n (.moves i)

namespace Pool

/-- The current state. -/
def state (P : Pool ι σ π) : σ := P.hist P.time

/-- A pool without calls. -/
def idle (ι π : Type*) (s : σ) : Pool ι σ π := ⟨0, fun _ => s, fun _ => none⟩

/-- One step later, with another state. -/
def push (P : Pool ι σ π) (s : σ) : Pool ι σ π :=
  ⟨P.time + 1, Function.update P.hist (P.time + 1) s, P.calls⟩

section Put
variable [DecidableEq ι]

/-- The pool with a call put in its place. -/
def put (P : Pool ι σ π) (i : ι) (c : Call π) : Pool ι σ π :=
  { P with calls := Function.update P.calls i (some c) }

/-- A call that begins at a position. -/
def opened (S : System ι σ π) (P : Pool ι σ π) (p : π) : Call π where
  pos := p
  began := P.time + 1
  mark := none
  ended := if S.final p then some (P.time + 1) else none

/-- A call after a step to another position. -/
def moved (S : System ι σ π) (P : Pool ι σ π) (c : Call π) (q : π) : Call π where
  pos := q
  began := c.began
  mark := if S.decisive c.pos q then some (P.time + 1) else c.mark
  ended := if S.final q then some (P.time + 1) else none

/-- One step: a call begins, a call moves, or the environment does something. -/
inductive Step (S : System ι σ π) : Pool ι σ π → Turn ι → Pool ι σ π → Prop
  | begins {P i p} (free : P.calls i = none) (starts : S.starts p = true) :
      Step S P (.begins i) ((P.push P.state).put i (opened S P p))
  | moves {P i c q s} (there : P.calls i = some c) (step : S.step i c.pos P.state q s) :
      Step S P (.moves i) ((P.push s).put i (moved S P c q))
  | elsewhere {P s} (env : S.env P.state s) : Step S P .elsewhere (P.push s)

end Put

variable {P Q : Pool ι σ π} {s : σ} {i j : ι} {c d : Call π}

/-- A step later is one later. -/
@[simp] lemma push_time : (P.push s).time = P.time + 1 := rfl

/-- A step later the state is the new one. -/
@[simp] lemma push_state : (P.push s).state = s := Function.update_self _ _ _

/-- A step in time leaves the calls alone. -/
@[simp] lemma push_calls : (P.push s).calls = P.calls := rfl

/-- A pool without calls starts in its state. -/
@[simp] lemma idle_state : (idle ι π s).state = s := rfl

/-- A step later the past is the same. -/
lemma push_hist {n : ℕ} (h : n ≤ P.time) : (P.push s).hist n = P.hist n :=
  Function.update_of_ne (by omega) _ _

/-- A call begins where it is opened. -/
@[simp] lemma opened_pos {S : System ι σ π} {p : π} : (opened S P p).pos = p := rfl

/-- A call begins at the instant after this one. -/
@[simp] lemma opened_began {S : System ι σ π} {p : π} : (opened S P p).began = P.time + 1 := rfl

/-- A call that moves is where it moves to. -/
@[simp] lemma moved_pos {S : System ι σ π} {p : π} : (moved S P c p).pos = p := rfl

/-- A call that moves began when it did. -/
@[simp] lemma moved_began {S : System ι σ π} {p : π} : (moved S P c p).began = c.began := rfl

/-- A decisive step is marked with its instant. -/
lemma moved_mark {S : System ι σ π} {p : π} (h : S.decisive c.pos p = true) :
    (moved S P c p).mark = some (P.time + 1) := if_pos h

/-- Another step leaves the mark as it was. -/
lemma moved_mark_of_not {S : System ι σ π} {p : π} (h : S.decisive c.pos p = false) :
    (moved S P c p).mark = c.mark := by
  unfold moved
  rw [h]
  rfl

/-- A call that reaches a final position ends at this instant. -/
lemma moved_ended {S : System ι σ π} {p : π} (h : S.final p = true) :
    (moved S P c p).ended = some (P.time + 1) := if_pos h

/-- The instants of a call are in order, none lies in the future, and a call has ended when it
stands at a final position. -/
structure Timely (S : System ι σ π) (P : Pool ι σ π) (c : Call π) : Prop where
  began : c.began ≤ P.time
  mark : ∀ m, c.mark = some m → c.began ≤ m ∧ m ≤ P.time
  ended : ∀ e, c.ended = some e → e ≤ P.time ∧ c.began ≤ e ∧ ∀ m, c.mark = some m → m ≤ e
  final : S.final c.pos = c.ended.isSome

/-- The calls of a pool without calls are timely. -/
lemma timely_idle {S : System ι σ π} : ∀ i c, (idle ι π s).calls i = some c → Timely S (idle ι π s) c :=
  fun _ _ h => nomatch h

section Steps
variable [DecidableEq ι] {S : System ι σ π} {turn : Turn ι}

/-- A call in its place takes no time. -/
@[simp] lemma put_time : (P.put i c).time = P.time := rfl

/-- A call in its place leaves the past alone. -/
@[simp] lemma put_hist : (P.put i c).hist = P.hist := rfl

/-- A call in its place leaves the state alone. -/
@[simp] lemma put_state : (P.put i c).state = P.state := rfl

/-- The call is in its place. -/
@[simp] lemma put_calls_self : (P.put i c).calls i = some c := Function.update_self _ _ _

/-- The other calls are in theirs. -/
lemma put_calls_of_ne (h : j ≠ i) : (P.put i c).calls j = P.calls j := Function.update_of_ne h _ _

namespace Step

/-- Every step takes one instant. -/
lemma time (h : Step S P turn Q) : Q.time = P.time + 1 := by
  cases h <;> rfl

/-- What has been stays. -/
lemma hist (h : Step S P turn Q) {n : ℕ} (hn : n ≤ P.time) : Q.hist n = P.hist n := by
  cases h <;> exact push_hist hn

/-- The last instant. -/
lemma hist_time (h : Step S P turn Q) : Q.hist (P.time + 1) = Q.state := by
  rw [← h.time]
  rfl

/-- Where a call after a step comes from. -/
inductive Origin (S : System ι σ π) (P Q : Pool ι σ π) (turn : Turn ι) (i : ι) (c : Call π) : Prop
  | same (h : P.calls i = some c)
  | opened (h : turn = .begins i) (free : P.calls i = none) (starts : S.starts c.pos = true)
      (h : c = opened S P c.pos) (state : Q.state = P.state)
  | moved (h : turn = .moves i) (b : Call π) (there : P.calls i = some b)
      (step : S.step i b.pos P.state c.pos Q.state) (h : c = moved S P b c.pos)

/-- A call after a step was there, was opened by it or moved by it. -/
lemma call (h : Step S P turn Q) (hc : Q.calls i = some c) : Origin S P Q turn i c := by
  cases h with
  | @begins j p free starts =>
    by_cases hij : i = j
    · subst hij
      rw [put_calls_self] at hc
      cases hc
      exact .opened rfl free starts rfl (by simp)
    · rw [put_calls_of_ne hij] at hc
      exact .same hc
  | @moves j b q s there step =>
    by_cases hij : i = j
    · subst hij
      rw [put_calls_self] at hc
      cases hc
      refine .moved rfl b there ?_ rfl
      simpa using step
    · rw [put_calls_of_ne hij] at hc
      exact .same hc
  | elsewhere env => exact .same hc

/-- What a step does to the state. -/
inductive Cause (S : System ι σ π) (P Q : Pool ι σ π) (turn : Turn ι) : Prop
  | begins (i : ι) (h : turn = .begins i) (state : Q.state = P.state)
  | elsewhere (h : turn = .elsewhere) (env : S.env P.state Q.state)
  | moved (i : ι) (b c : Call π) (h : turn = .moves i) (there : P.calls i = some b)
      (here : Q.calls i = some c) (step : S.step i b.pos P.state c.pos Q.state)
      (h : c = moved S P b c.pos)

/-- The state changes by the step of a call or by the environment. -/
lemma cause (h : Step S P turn Q) : Cause S P Q turn := by
  cases h with
  | begins free starts =>
    refine .begins _ rfl ?_
    rw [put_state, push_state]
  | elsewhere env =>
    refine .elsewhere rfl ?_
    rw [push_state]
    exact env
  | @moves i c q s there step =>
    refine .moved i c (Pool.moved S P c q) rfl there put_calls_self ?_ rfl
    rw [put_state, push_state]
    exact step

/-- A call is there after a step, the same or a step further. -/
lemma kept (h : Step S P turn Q) (hc : P.calls i = some c) :
    Q.calls i = some c ∨ turn = .moves i ∧ ∃ d, Q.calls i = some d ∧
      S.step i c.pos P.state d.pos Q.state ∧ d = moved S P c d.pos := by
  cases h with
  | @begins j p free starts =>
    refine Or.inl ?_
    rw [put_calls_of_ne (fun hij => ?_)]
    · exact hc
    · rw [hij, free] at hc
      cases hc
  | @moves j b q s there step =>
    by_cases hij : i = j
    · subst hij
      cases there.symm.trans hc
      exact Or.inr ⟨rfl, _, put_calls_self, by simpa using step, rfl⟩
    · exact Or.inl ((put_calls_of_ne hij).trans hc)
  | elsewhere env => exact Or.inl hc

/-- A call that had ended before a step is the same after it. -/
lemma call_of_ended (h : Step S P turn Q) (hc : Q.calls i = some c) {e : ℕ}
    (he : c.ended = some e) (hpast : e ≤ P.time) : P.calls i = some c := by
  cases h.call hc with
  | same hold => exact hold
  | opened _ _ _ hcall _ =>
    rw [hcall] at he
    unfold opened at he
    dsimp only at he
    split at he
    · cases he
      omega
    · cases he
  | moved _ b _ _ hcall =>
    rw [hcall] at he
    unfold moved at he
    dsimp only at he
    split at he
    · cases he
      omega
    · cases he

end Step

/-- Every step keeps the instants of the calls in order. -/
lemma Timely.step (h : Step S P turn Q) (hP : ∀ i c, P.calls i = some c → Timely S P c) :
    ∀ i c, Q.calls i = some c → Timely S Q c := by
  intro i c hc
  have htime := h.time
  cases h.call hc with
  | same hold =>
    obtain ⟨hbegan, hmark, hended, hfinal⟩ := hP i c hold
    refine ⟨by omega, fun m hm => ?_, fun e he => ?_, hfinal⟩
    · have := hmark m hm
      omega
    · obtain ⟨h₁, h₂⟩ := hended e he
      exact ⟨by omega, h₂⟩
  | opened _ _ _ hcall =>
    rw [hcall]
    refine ⟨by simp [Pool.opened]; omega, fun m hm => (nomatch hm), fun e he => ?_, ?_⟩
    · unfold Pool.opened at he ⊢
      dsimp only at he ⊢
      split at he
      · cases he
        exact ⟨by omega, by omega, fun m hm => (nomatch hm)⟩
      · cases he
    · unfold Pool.opened
      cases S.final c.pos <;> rfl
  | moved _ b there _ hcall =>
    obtain ⟨hbegan, hmark, hended, -⟩ := hP i b there
    rw [hcall]
    -- the mark is the old one or the instant of this step
    have hm : ∀ m, (Pool.moved S P b c.pos).mark = some m → b.began ≤ m ∧ m ≤ P.time + 1 := by
      intro m hm
      unfold Pool.moved at hm
      dsimp only at hm
      split at hm
      · cases hm
        omega
      · have := hmark m hm
        omega
    refine ⟨by simp [Pool.moved]; omega, fun m hmm => ?_, fun e he => ?_, ?_⟩
    · have := hm m hmm
      simp only [Pool.moved]
      omega
    · have he' : e = P.time + 1 := by
        unfold Pool.moved at he
        dsimp only at he
        split at he
        · exact (Option.some.inj he).symm
        · cases he
      refine ⟨by omega, by simp only [Pool.moved]; omega, fun m hmm => ?_⟩
      have := hm m hmm
      omega
    · unfold Pool.moved
      dsimp only
      cases S.final c.pos <;> rfl

end Steps
/-! ### Schedules -/

section Schedules
variable [DecidableEq ι] (S : System ι σ π) (next : ι → π → σ → Option (π × σ))

/-- One turn, when each step is a function of the position and the state. -/
def act (P : Pool ι σ π) : Act ι π → Option (Pool ι σ π)
  | .begins i p =>
    if (P.calls i).isNone && S.starts p then some ((P.push P.state).put i (opened S P p)) else none
  | .moves i =>
    match P.calls i with
    | none => none
    | some c => (next i c.pos P.state).map (fun r => (P.push r.2).put i (moved S P c r.1))

/-- The turns of a schedule, one after the other, while each passes a check. -/
def perform (ok : Pool ι σ π → Turn ι → Bool) (P : Pool ι σ π) :
    List (Act ι π) → Option (Pool ι σ π)
  | [] => some P
  | a :: as => if ok P a.turn then (act S next P a).bind (fun Q => perform ok Q as) else none

variable {S next}

/-- An act that can be taken is a step. -/
lemma step_of_act (hnext : ∀ {i p s q s'}, next i p s = some (q, s') → S.step i p s q s')
    {P Q : Pool ι σ π} {a : Act ι π} (h : act S next P a = some Q) : Step S P a.turn Q := by
  cases a with
  | begins i p =>
    simp only [act] at h
    split at h
    · rename_i hfree
      obtain ⟨hnone, hstarts⟩ := (Bool.and_eq_true _ _).mp hfree
      cases h
      exact .begins (Option.isNone_iff_eq_none.mp hnone) hstarts
    · cases h
  | moves i =>
    simp only [act] at h
    split at h
    · cases h
    · rename_i c hc
      obtain ⟨⟨q, s⟩, hstep, rfl⟩ := Option.map_eq_some_iff.mp h
      exact .moves hc (hnext hstep)

/-- A schedule is a run whose moves pass the check. -/
lemma run_of_perform (hnext : ∀ {i p s q s'}, next i p s = some (q, s') → S.step i p s q s')
    {ok : Pool ι σ π → Turn ι → Bool} {P Q : Pool ι σ π} {as : List (Act ι π)}
    (h : perform S next ok P as = some Q) :
    ∃ ms, Run (Step S) P ms Q ∧ ∀ m ∈ ms, ok m.pre m.label = true := by
  induction as generalizing P with
  | nil =>
    cases h
    exact ⟨[], .nil, by simp⟩
  | cons a as ih =>
    unfold perform at h
    split at h
    · rename_i hok
      obtain ⟨R, hact, hrest⟩ := Option.bind_eq_some_iff.mp h
      obtain ⟨ms, hrun, hms⟩ := ih hrest
      refine ⟨_, hrun.cons (step_of_act hnext hact), fun m hm => ?_⟩
      rcases List.mem_cons.mp hm with rfl | hm
      · exact hok
      · exact hms m hm
    · cases h

end Schedules

/-! ### A call that is left alone -/

section Alone
variable [DecidableEq ι] {S : System ι σ π} {P : Pool ι σ π} {c : Call π} {i : ι} {p q : π} {s : σ}

/-- A call takes its steps one after the other, while the other calls stay where they are. -/
lemma run_of_steps (there : P.calls i = some c)
    (steps : Relation.ReflTransGen (fun a b : π × σ => S.step i a.1 a.2 b.1 b.2) (c.pos, P.state)
      (q, s)) :
    ∃ ms Q d, Run (Step S) P ms Q ∧ (∀ m ∈ ms, m.label = .moves i) ∧ Q.state = s ∧
      Q.calls i = some d ∧ d.pos = q ∧ ∀ j, j ≠ i → Q.calls j = P.calls j := by
  generalize hb : (q, s) = b at steps
  induction steps generalizing q s with
  | refl =>
    cases hb
    exact ⟨[], P, c, .nil, by simp, rfl, there, rfl, fun _ _ => rfl⟩
  | @tail a b _ step ih =>
    cases hb
    obtain ⟨ms, Q, d, run, hlabels, hstate, hcall, hpos, hothers⟩ := ih rfl
    rw [← hpos, ← hstate] at step
    refine ⟨_, _, moved S Q d q, run.snoc (.moves hcall step), ?_, ?_, put_calls_self, rfl, ?_⟩
    · refine List.forall_mem_append.mpr ⟨hlabels, ?_⟩
      exact List.forall_mem_singleton.mpr rfl
    · rw [put_state, push_state]
    · intro j hj
      rw [put_calls_of_ne hj]
      exact hothers j hj

/-- A call begins and takes its steps one after the other. -/
lemma run_of_call (free : P.calls i = none) (starts : S.starts p = true)
    (steps : Relation.ReflTransGen (fun a b : π × σ => S.step i a.1 a.2 b.1 b.2) (p, P.state) (q, s)) :
    ∃ m ms Q, Run (Step S) P (m :: ms) Q ∧ m.label = .begins i ∧ (∀ m ∈ ms, m.label = .moves i) ∧
      Q.state = s ∧ ∀ j, j ≠ i → Q.calls j = P.calls j := by
  let R := (P.push P.state).put i (opened S P p)
  have hstate : R.state = P.state := by rw [put_state, push_state]
  have hsteps : Relation.ReflTransGen (fun a b : π × σ => S.step i a.1 a.2 b.1 b.2)
      ((opened S P p).pos, R.state) (q, s) := by
    rw [hstate]
    exact steps
  obtain ⟨ms, Q, d, run, hlabels, hend, -, -, hothers⟩ := run_of_steps put_calls_self hsteps
  refine ⟨_, ms, Q, run.cons (.begins free starts), rfl, hlabels, hend, fun j hj => ?_⟩
  exact (hothers j hj).trans (put_calls_of_ne hj)

end Alone
end Pool
end Egras.Lib
