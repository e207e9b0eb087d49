import Egras.Jobs.Leases

/-!
# Jobs: final outcomes and late marks

None of the three `mark_*` statements asks who holds the job: each has `WHERE id = $1` and nothing
else. A runner whose lease was taken over can therefore rewrite the row, even a row that is done or
dead. `outcomes_final_iff` says that this is the only defect: the outcomes of a run are final and
its late marks void exactly when its late marks are (`MarkFenced`). In such a run a mark that is
not late meets the row as its runner claimed it, hence a running one.
-/

namespace Egras.Jobs
open Egras.Lib

/-- A step keeps the state, `run_at`, `attempts` and the lock columns of a job that is done or
dead. -/
def OutcomesFinal (mv : Move Cluster Event) : Prop :=
  ∀ id j, mv.pre.table.find? id = some j → j.state.Final →
    ∃ j', mv.post.table.find? id = some j' ∧ j'.state = j.state ∧ j'.runAt = j.runAt ∧
      j'.attempts = j.attempts ∧ j'.lockedUntil = j.lockedUntil ∧ j'.lockedBy = j.lockedBy

/-- A mark by a runner whose lease has been taken over leaves the row unchanged. -/
def LateMarksVoid (mv : Move Cluster Event) : Prop :=
  ∀ r m now executed c startedAt, mv.label = .mark r m now executed →
    (mv.pre.runner r).current = some (c, startedAt) → mv.pre.superseded c →
    mv.post.table.find? m.id = mv.pre.table.find? m.id

namespace Cluster.Step
variable {fleet : ℕ → JobRunner} {s s' : Cluster} {e : Event}

/-- A late mark is void exactly when it is fenced. -/
lemma lateMarksVoid_iff (step : Step fleet s e s') :
    LateMarksVoid ⟨s, e, s'⟩ ↔ MarkFenced ⟨s, e, s'⟩ := by
  constructor
  · rintro void r m now c startedAt rfl hcurrent hsup
    have hrow := void r m now true c startedAt rfl hcurrent hsup
    obtain ⟨_, _, _, _, _, -, -, -, -, ⟨-, -, stmt, -⟩ | ⟨h, -⟩⟩ := step.mark_inv
    · exact (Mark.idle_iff stmt).mp hrow
    · cases h
  · rintro fenced r m now executed c startedAt rfl hcurrent hsup
    obtain ⟨_, _, _, _, _, -, -, -, -, ⟨rfl, -, stmt, -⟩ | ⟨-, htable, -⟩⟩ := step.mark_inv
    · exact (Mark.idle_iff stmt).mpr (fenced r m now c startedAt rfl hcurrent hsup)
    · exact congrArg (Table.find? · m.id) htable

/-- A mark that is not late meets the row as its runner claimed it. -/
lemma marked_running {r m now} (step : Step fleet s (.mark r m now true) s')
    (inv : Fenced fleet s) {c startedAt} (hcurrent : (s.runner r).current = some (c, startedAt))
    (hsup : ¬ s.superseded c) {j} (hj : s.table.find? m.id = some j) : j.state = .running := by
  obtain ⟨c', startedAt', outcome, rest, _, pos, call, -⟩ := step.mark_inv
  rw [pos] at hcurrent
  cases hcurrent
  have hheld : c ∈ (s.runner r).held := by simp [pos, RunnerState.held]
  rw [dispatchMark_id call, inv.leases r c hheld (inv.tickets.latest hheld hsup)] at hj
  cases hj
  exact (inv.snapshots r c hheld).running

/-- Steps whose marks are fenced keep final outcomes. -/
lemma outcomesFinal (step : Step fleet s e s') (inv : Fenced fleet s)
    (fenced : MarkFenced ⟨s, e, s'⟩) : OutcomesFinal ⟨s, e, s'⟩ := by
  intro id j hj final
  rcases step.row hj with ⟨h, -⟩ | ⟨r, now, _, _, _, rfl, -, hdue, -⟩ |
    ⟨r, m, now, c, startedAt, rfl, rfl, hcurrent, -, hmark, -⟩
  · exact ⟨j, h, rfl, rfl, rfl, rfl, rfl⟩
  · -- a claim takes pending and running rows only
    rcases Job.isDue_iff.mp hdue with ⟨hs, -⟩ | ⟨hs, -⟩
    · rcases final with h | h <;> exact JobState.noConfusion (hs.symm.trans h)
    · rcases final with h | h <;> exact JobState.noConfusion (hs.symm.trans h)
  · by_cases hsup : s.superseded c
    · have hidle := fenced r m now c startedAt rfl hcurrent hsup j hj
      rw [Mark.apply_eq_self.mpr hidle] at hmark
      exact ⟨j, hmark, rfl, rfl, rfl, rfl, rfl⟩
    · have hrun := marked_running step inv hcurrent hsup hj
      rcases final with h | h <;> exact JobState.noConfusion (hrun.symm.trans h)

end Cluster.Step

/-- In a run, outcomes are final and late marks void at every step exactly when no step writes a
late mark that would change its row. -/
theorem outcomes_final_iff {fleet s ms s'} (init : s.Initial)
    (run : Run (Cluster.Step fleet) s ms s') :
    (∀ m ∈ ms, OutcomesFinal m ∧ LateMarksVoid m) ↔ ∀ m ∈ ms, MarkFenced m := by
  constructor
  · intro h m hm
    exact (run.step_of_mem hm).lateMarksVoid_iff.mp (h m hm).2
  · intro fenced m hm
    obtain ⟨step, inv⟩ := fenced_of_run init run fenced m hm
    exact ⟨step.outcomesFinal inv (fenced m hm), step.lateMarksVoid_iff.mpr (fenced m hm)⟩

/-- Worker 0 outlives its lease; worker 1 takes the job over and finishes it. -/
def slowWorker : List Event :=
  [.claim 0 0 (fun _ => false) [emailJob.claimed "worker-0" 60000000 0] true,
    .start 0,
    .tick 60000000,
    .claim 1 60000000 (fun _ => false) [emailJob.claimed "worker-1" 120000000 60000000] true,
    .start 1,
    .finish 1 (.ok ()),
    .mark 1 (.done 1) 60000000 true,
    .finish 0 (.error (.retryable "timeout"))]

/-- The late mark of worker 0 reopens the job that worker 1 has done. -/
theorem late_mark_reopens_done_job :
    ¬ ∀ fleet s ms s', s.Initial → Run (Cluster.Step fleet) s ms s' →
      ∀ m ∈ ms, OutcomesFinal m ∧ LateMarksVoid m := by
  intro property
  have hstates : ((Cluster.fresh (oneRow emailJob)).execs emailFleet (fun _ => true)
      slowWorker).bind (fun s =>
        (s.exec emailFleet (.mark 0 (.failedRetry 1 "timeout" 65000000) 60000000 true)).map
          (fun s' => ((s.table.find? 1).map Job.state, (s'.table.find? 1).map Job.state))) =
      some (some .done, some .pending) := by decide +kernel
  obtain ⟨s, hs, hlast⟩ := Option.bind_eq_some_iff.mp hstates
  obtain ⟨s', hs', hpair⟩ := Option.map_eq_some_iff.mp hlast
  obtain ⟨hpre, hpost⟩ := Prod.mk.inj hpair
  obtain ⟨ms, run, -, -⟩ := Cluster.execs_sound hs
  have final := (property _ _ _ _ Cluster.fresh_initial (run.snoc (Cluster.exec_sound hs'))
    _ (List.mem_append_right _ (List.mem_singleton_self _))).1
  obtain ⟨j, hj, hdone⟩ := Option.map_eq_some_iff.mp hpre
  obtain ⟨j', hj', hstate, -⟩ := final 1 j hj (Or.inl hdone)
  rw [hj', Option.map_some, hstate, hdone] at hpost
  exact absurd hpost (by decide)

/-- Worker 0 claims the job and runs its handler to the end. -/
def promptWorker : List Event :=
  [.claim 0 0 (fun _ => false) [emailJob.claimed "worker-0" 60000000 0] true,
    .start 0,
    .finish 0 (.ok ())]

/-- A run whose only mark is that of the runner that holds the job. -/
theorem outcomes_final_iff_prompt :
    ∃ ms s', Run (Cluster.Step emailFleet) (Cluster.fresh (oneRow emailJob)) ms s' ∧
      (s'.table.find? 1).map Job.state = some .done ∧
      ∀ m ∈ ms, OutcomesFinal m ∧ LateMarksVoid m := by
  have hstates : ((Cluster.fresh (oneRow emailJob)).execs emailFleet (fun _ => true)
      promptWorker).bind (fun s =>
        (s.exec emailFleet (.mark 0 (.done 1) 0 true)).map (fun s' =>
          ((s.runner 0).current.map (fun p => s.superseded p.1),
            (s'.table.find? 1).map Job.state))) =
      some (some false, some .done) := by decide +kernel
  obtain ⟨s, hs, hlast⟩ := Option.bind_eq_some_iff.mp hstates
  obtain ⟨s', hs', hpair⟩ := Option.map_eq_some_iff.mp hlast
  obtain ⟨hpre, hpost⟩ := Prod.mk.inj hpair
  obtain ⟨ms, run, hlabels, -⟩ := Cluster.execs_sound hs
  have run' := run.snoc (Cluster.exec_sound hs')
  refine ⟨_, s', run', hpost, (outcomes_final_iff Cluster.fresh_initial run').mpr ?_⟩
  intro mv hmv r m now c startedAt hlabel hcurrent hsup
  rcases List.mem_append.mp hmv with hmv | hmv
  · have hmem : mv.label ∈ promptWorker := hlabels ▸ List.mem_map_of_mem hmv
    rw [hlabel] at hmem
    simp [promptWorker] at hmem
  · cases List.mem_singleton.mp hmv
    cases hlabel
    rw [hcurrent] at hpre
    simp [hsup] at hpre

end Egras.Jobs
