import Egras.Jobs.Leases

/-!
# Jobs: dispatch under a live lease

A claim leases a whole batch at once, and the runner dispatches the jobs of the batch one after the
other. The lease of the last job must therefore outlast all handlers before it; that every single
handler is quick (`Prompt`) is not enough. What is needed is that each handler is started within the
lease of its *batch* (`StartsInTime`); and while a job is dispatched, no other claim may take it
over (`Overtaken`).

Under these conditions a superseded claim is an expired one, so that neither a start nor a mark is
ever made on a superseded claim, and the row is as the runner claimed it (`Leases`). A job whose
handler returned `Ok` is then done, or on its way to be marked done by the runner that holds it.
-/

namespace Egras.Jobs
open Egras.Lib

/-- A handler is started before the lease of its batch is over. -/
def StartsInTime (fleet : ℕ → JobRunner) (mv : Move Cluster Event) : Prop :=
  ∀ r c rest, mv.label = .start r → mv.pre.runner r = .dispatching (c :: rest) →
    mv.pre.clock < c.claimedAt + (fleet r).lease

/-- The job that runner `r` is dispatching has been claimed again. -/
def Cluster.Overtaken (s : Cluster) (r : ℕ) : Bool :=
  (s.runner r).current.any (fun p => s.superseded p.1)

/-- The dispatch in progress at a runner, if any, has taken less than the visibility timeout. -/
def Cluster.PromptAt (fleet : ℕ → JobRunner) (s : Cluster) (r : ℕ) : Bool :=
  (s.runner r).current.all (fun p =>
    (s.clock - p.2) * 1000 < (fleet r).cfg.visibilityTimeout.asNanos)

/-- Every handler in progress, together with its mark, has taken less than the visibility
timeout. -/
def Prompt (fleet : ℕ → JobRunner) (s : Cluster) : Prop := ∀ r, s.PromptAt fleet r

/-- A mark succeeds, and no runner dies between the start of a handler and its mark. -/
def Completes (mv : Move Cluster Event) : Bool :=
  match mv.label with
  | .mark _ _ _ executed => executed
  | .crash r => (mv.pre.runner r).current.isNone
  | _ => true

/-- A runner starts a handler only for a job whose lease it holds. -/
def StartsUnderLease (fleet : ℕ → JobRunner) (mv : Move Cluster Event) : Prop :=
  ∀ r c rest, mv.label = .start r → mv.pre.runner r = .dispatching (c :: rest) →
    ¬ mv.pre.superseded c ∧
    ∃ j u, mv.pre.table.find? c.job.id = some j ∧ j.state = .running ∧
      j.lockedBy = some (fleet r).workerId ∧ j.lockedUntil = some u ∧ mv.pre.clock < u

/-- No handler is started for a job for which it returned `Ok` before. -/
def NoRestart (mv : Move Cluster Event) : Prop :=
  ∀ r c rest, mv.label = .start r → mv.pre.runner r = .dispatching (c :: rest) →
    (mv.pre.log c.job.id).okReturned = false

/-- A job is done, or a runner is about to mark it done. -/
def Finished (s : Cluster) (id : Uuid) : Prop :=
  (∃ j, s.table.find? id = some j ∧ j.state = .done) ∨
    ∃ r c startedAt rest, s.runner r = .marking c startedAt (.ok ()) rest ∧ c.job.id = id

/-- What holds in every state of a run in which no dispatch is overtaken. -/
structure UnderLease (fleet : ℕ → JobRunner) (s : Cluster) : Prop where
  fenced : Fenced fleet s
  ahead : ∀ r, ¬ s.Overtaken r
  expired : ∀ r, ∀ c ∈ (s.runner r).held, s.superseded c → c.claimedAt + (fleet r).lease ≤ s.clock
  finished : ∀ id, (s.log id).okReturned = true → Finished s id

namespace UnderLease
variable {fleet : ℕ → JobRunner} {s s' : Cluster} {e : Event}

/-- A job being dispatched has not been claimed again. -/
lemma not_superseded (inv : UnderLease fleet s) {r c startedAt}
    (hcurrent : (s.runner r).current = some (c, startedAt)) : ¬ s.superseded c := by
  intro hsup
  refine inv.ahead r ?_
  simp [Cluster.Overtaken, hcurrent, hsup]

/-- The row of a held job that was not claimed again. -/
lemma row (inv : UnderLease fleet s) {r c} (hc : c ∈ (s.runner r).held)
    (hsup : ¬ s.superseded c) : s.table.find? c.job.id = some c.job :=
  inv.fenced.leases r c hc (inv.fenced.tickets.latest hc hsup)

/-- Marks are fenced, since no job being dispatched is superseded. -/
lemma markFenced (inv : UnderLease fleet s) : MarkFenced ⟨s, e, s'⟩ := by
  intro r m now c startedAt _ hcurrent hsup
  exact absurd hsup (inv.not_superseded hcurrent)

/-- A claim supersedes a held job only when its lease is over. -/
lemma expired_step (inv : UnderLease fleet s) (step : Cluster.Step fleet s e s') {r c}
    (hc : c ∈ (s'.runner r).held) (hsup : s'.superseded c) :
    c.claimedAt + (fleet r).lease ≤ s'.clock := by
  rcases step.held r with ⟨hsub, -⟩ | ⟨now, locked, returned, rfl, -, hheld, -⟩
  · have hc₀ := hsub.subset hc
    by_cases hsup₀ : s.superseded c
    · exact le_trans (inv.expired r c hc₀ hsup₀) step.clock_le
    · have hlease := (inv.fenced.snapshots r c hc₀).lockedUntil
      have hrun := (inv.fenced.snapshots r c hc₀).running
      simp only [Cluster.superseded, decide_eq_true_eq] at hsup hsup₀
      rcases step.row (inv.row hc₀ (by simpa [Cluster.superseded] using hsup₀)) with
        ⟨-, hsame⟩ | ⟨_, now, _, _, _, rfl, past, hdue, -⟩ | ⟨_, _, _, _, _, -, -, -, -, -, hlog⟩
      · rw [hsame.claims] at hsup
        exact absurd hsup hsup₀
      · rcases Job.isDue_iff.mp hdue with ⟨hs, -⟩ | ⟨-, u, hu, hle⟩
        · exact JobState.noConfusion (hs.symm.trans hrun)
        · rw [hlease] at hu
          cases hu
          exact le_trans hle (le_trans past step.clock_le)
      · rw [hlog, logMark_claims] at hsup
        exact absurd hsup hsup₀
  · -- a fresh ticket is the latest one
    rw [hheld] at hc
    obtain ⟨hret, hticket, -⟩ := mem_claimedBatch hc
    have hlog : s'.log = logClaim s.log s.table returned := by
      cases step
      rfl
    have hnew := @logClaim_of_mem s.log s.table returned c.job.id ⟨_, hret, rfl⟩
    simp only [Cluster.superseded, hlog, hnew, hticket, decide_eq_true_eq] at hsup
    omega

end UnderLease

namespace Cluster.Step
variable {fleet : ℕ → JobRunner} {s s' : Cluster} {e : Event}

/-- A runner about to mark stays so until its mark or its end. -/
lemma marking {r c startedAt outcome rest} (step : Step fleet s e s')
    (pos : s.runner r = .marking c startedAt outcome rest) :
    s'.runner r = s.runner r ∨ (∃ m now executed, e = .mark r m now executed) ∨ e = .crash r := by
  have other {r' st} (hne : r ≠ r') : Function.update s.runner r' st r = s.runner r :=
    Function.update_of_ne hne _ _
  cases step with
  | @claim r' _ _ _ _ _ _ _ polls =>
    refine Or.inl (other ?_)
    rintro rfl
    cases pos.symm.trans polls
  | @start r' _ _ pos' =>
    refine Or.inl (other ?_)
    rintro rfl
    cases pos.symm.trans pos'
  | @skip r' _ _ pos' =>
    refine Or.inl (other ?_)
    rintro rfl
    cases pos.symm.trans pos'
  | @finish r' _ _ _ _ pos' =>
    refine Or.inl (other ?_)
    rintro rfl
    cases pos.symm.trans pos'
  | @mark r' _ _ _ _ _ m now =>
    by_cases hr : r = r'
    · subst hr
      exact Or.inr (Or.inl ⟨m, now, true, rfl⟩)
    · exact Or.inl (other hr)
  | @markFailed r' _ _ _ _ _ m now =>
    by_cases hr : r = r'
    · subst hr
      exact Or.inr (Or.inl ⟨m, now, false, rfl⟩)
    · exact Or.inl (other hr)
  | @crash r' =>
    by_cases hr : r = r'
    · subst hr
      exact Or.inr (Or.inr rfl)
    · exact Or.inl (other hr)
  | _ => exact Or.inl rfl

/-- The log of `Ok` grows only when a handler returns it. -/
lemma okReturned {id} (step : Step fleet s e s') (h : (s'.log id).okReturned = true) :
    (s.log id).okReturned = true ∨
      ∃ r c startedAt rest, e = .finish r (.ok ()) ∧ s.runner r = .handling c startedAt rest ∧
        c.job.id = id ∧
        s'.runner r = .marking c startedAt (dispatchOutcome (fleet r) c.job (.ok ())) rest := by
  cases step with
  | claim polls past perm stmt order => exact Or.inl (logClaim_okReturned ▸ h)
  | start pos handler => exact Or.inl (logStart_okReturned ▸ h)
  | @finish r c startedAt rest handled pos =>
    by_cases hid : id = c.job.id
    · subst hid
      simp only [logFinish, Function.update_self, Bool.or_eq_true, decide_eq_true_eq] at h
      rcases h with h | rfl
      · exact Or.inl h
      · exact Or.inr ⟨r, c, startedAt, rest, rfl, pos, rfl, Function.update_self _ _ _⟩
    · simp only [logFinish, Function.update_of_ne hid] at h
      exact Or.inl h
  | mark pos call past stmt => exact Or.inl (logMark_okReturned ▸ h)
  | _ => exact Or.inl h

end Cluster.Step

namespace UnderLease
variable {fleet : ℕ → JobRunner} {s s' : Cluster} {e : Event}

/-- A done job stays done. -/
lemma done_step (inv : UnderLease fleet s) (step : Cluster.Step fleet s e s') {id j}
    (hj : s.table.find? id = some j) (done : j.state = .done) :
    ∃ j', s'.table.find? id = some j' ∧ j'.state = .done := by
  rcases step.row hj with ⟨h, -⟩ | ⟨_, _, _, _, _, -, -, hdue, -⟩ |
    ⟨r, _, _, c, _, -, -, hcurrent, hid, -⟩
  · exact ⟨j, h, done⟩
  · rcases Job.isDue_iff.mp hdue with ⟨hs, -⟩ | ⟨hs, -⟩ <;>
      exact JobState.noConfusion (hs.symm.trans done)
  · -- the marking runner holds the latest claim, so that the row would be running
    have hheld := RunnerState.mem_held_of_current hcurrent
    have hrow := inv.row hheld (inv.not_superseded hcurrent)
    rw [hid, hj] at hrow
    cases hrow
    exact JobState.noConfusion ((inv.fenced.snapshots r c hheld).running.symm.trans done)

/-- A job whose handler returned `Ok` is done or about to be marked done after every step. -/
lemma finished_step (inv : UnderLease fleet s) (step : Cluster.Step fleet s e s')
    (completes : Completes ⟨s, e, s'⟩) {id} (h : (s'.log id).okReturned = true) :
    Finished s' id := by
  rcases step.okReturned h with hold | ⟨r, c, startedAt, rest, rfl, pos, rfl, pos'⟩
  · rcases inv.finished id hold with ⟨j, hj, hdone⟩ | ⟨r, c, startedAt, rest, pos, rfl⟩
    · exact Or.inl (inv.done_step step hj hdone)
    · rcases step.marking pos with hsame | ⟨m, now, executed, rfl⟩ | rfl
      · exact Or.inr ⟨r, c, startedAt, rest, hsame.trans pos, rfl⟩
      · have hexec : executed = true := completes
        subst hexec
        obtain ⟨_, _, _, _, _, pos', call, -, -, ⟨-, -, stmt, -⟩ | ⟨hno, -⟩⟩ := step.mark_inv
        · cases pos.symm.trans pos'
          cases call
          have hcurrent : (s.runner r).current = some (c, startedAt) := by rw [pos]; rfl
          have hrow := inv.row (RunnerState.mem_held_of_current hcurrent)
            (inv.not_superseded hcurrent)
          have hmarked := Mark.exec_find?_self stmt
          simp only [Mark.id, hrow, Option.map_some] at hmarked
          exact Or.inl ⟨_, hmarked, rfl⟩
        · cases hno
      · have hnone : (s.runner r).current.isNone = true := completes
        rw [pos] at hnone
        cases hnone
  · have hkind := (inv.fenced.snapshots r c (by simp [pos, RunnerState.held])).kind
    have houtcome : dispatchOutcome (fleet r) c.job (.ok ()) = .ok () := by
      simp [dispatchOutcome, hkind]
    rw [houtcome] at pos'
    exact Or.inr ⟨r, c, startedAt, rest, pos', rfl⟩

/-- One step that completes its dispatch keeps all of this. -/
lemma step (inv : UnderLease fleet s) (move : Cluster.Step fleet s e s')
    (completes : Completes ⟨s, e, s'⟩) (ahead : ∀ r, ¬ s'.Overtaken r) : UnderLease fleet s' where
  fenced := move.fenced inv.markFenced inv.fenced
  ahead := ahead
  expired _ _ hc hsup := inv.expired_step move hc hsup
  finished _ h := inv.finished_step move completes h

/-- The job whose handler is started next is leased to its runner exactly when the lease of the
batch is not over. -/
lemma startsUnderLease_iff (inv : UnderLease fleet s) :
    StartsUnderLease fleet ⟨s, e, s'⟩ ↔ StartsInTime fleet ⟨s, e, s'⟩ := by
  have hmem {r c rest} (pos : s.runner r = .dispatching (c :: rest)) :
      c ∈ (s.runner r).held := by
    rw [pos]
    exact List.mem_cons_self
  constructor
  · intro leased r c rest hlabel pos
    obtain ⟨hsup, j, u, hj, -, -, hu, hlt⟩ := leased r c rest hlabel pos
    have hrow := inv.row (hmem pos) hsup
    have hend := (inv.fenced.snapshots r c (hmem pos)).lockedUntil
    cases hj.symm.trans hrow
    cases hu.symm.trans hend
    exact hlt
  · intro inTime r c rest hlabel pos
    have hlt := inTime r c rest hlabel pos
    have hsup : ¬ s.superseded c := by
      intro hsup
      exact absurd hlt (not_lt_of_ge (inv.expired r c (hmem pos) hsup))
    have snapshot := inv.fenced.snapshots r c (hmem pos)
    exact ⟨hsup, c.job, _, inv.row (hmem pos) hsup, snapshot.running, snapshot.lockedBy,
      snapshot.lockedUntil, hlt⟩

/-- The job whose handler is started next has not been finished before. -/
lemma noRestart (inv : UnderLease fleet s) (leased : StartsUnderLease fleet ⟨s, e, s'⟩) :
    NoRestart ⟨s, e, s'⟩ := by
  intro r c rest hlabel pos
  obtain ⟨hsup, j, _, hj, hrun, -⟩ := leased r c rest hlabel pos
  have hheld : c ∈ (s.runner r).held := by
    rw [show s.runner r = .dispatching (c :: rest) from pos]
    exact List.mem_cons_self
  by_contra hok
  rcases inv.finished c.job.id (by simpa using hok) with
    ⟨j', hj', hdone⟩ | ⟨r', c', startedAt, rest', pos', hid⟩
  · cases hj.symm.trans hj'
    exact JobState.noConfusion (hrun.symm.trans hdone)
  · -- both runners would hold the latest ticket of the job
    have hcurrent' : (s.runner r').current = some (c', startedAt) := by rw [pos']; rfl
    have hheld' := RunnerState.mem_held_of_current hcurrent'
    have hlatest := inv.fenced.tickets.latest hheld hsup
    have hlatest' := inv.fenced.tickets.latest hheld' (inv.not_superseded hcurrent')
    have hkey : c.key = c'.key :=
      Prod.ext hid.symm (hlatest.trans ((congrArg (fun i => (s.log i).claims) hid.symm).trans
        hlatest'.symm))
    have hr := inv.fenced.tickets.runner_eq hheld hheld' hkey
    subst hr
    exact RunnerState.noConfusion (pos.symm.trans pos')

end UnderLease

/-- In a run in which all marks succeed and no job is claimed again while it is dispatched, handlers
are started under live leases only, and never again after they returned `Ok`, exactly when each is
started within the lease of its batch. -/
theorem dispatch_under_lease_iff {fleet s ms s'} (init : s.Initial)
    (run : Run (Cluster.Step fleet) s ms s') (completes : ∀ m ∈ ms, Completes m)
    (ahead : ∀ m ∈ ms, ∀ r, ¬ m.post.Overtaken r) :
    (∀ m ∈ ms, StartsUnderLease fleet m ∧ NoRestart m) ↔ ∀ m ∈ ms, StartsInTime fleet m := by
  have start : UnderLease fleet s := by
    refine ⟨init.fenced, ?_, ?_, ?_⟩
    · intro r
      simp [Cluster.Overtaken, init.runner r, RunnerState.current]
    · intro r c hc
      simp [init.runner r, RunnerState.held] at hc
    · intro id h
      simp [init.log id, JobLog.empty] at h
  have moves := run.forall_moves (UnderLease fleet)
    (fun m => Completes m ∧ ∀ r, ¬ m.post.Overtaken r) start
    (fun _ _ _ move cond inv => inv.step move cond.1 cond.2)
    (fun m hm => ⟨completes m hm, ahead m hm⟩)
  constructor
  · intro leased m hm
    exact (moves m hm).2.startsUnderLease_iff.mp (leased m hm).1
  · intro inTime m hm
    have leased := (moves m hm).2.startsUnderLease_iff.mpr (inTime m hm)
    exact ⟨leased, (moves m hm).2.noRestart leased⟩

/-- A step leaves the other runners alone. -/
lemma Cluster.Step.runner_ne {fleet s s'} {e : Event} {r} (step : Cluster.Step fleet s e s')
    (h : e.runner ≠ some r) : s'.runner r = s.runner r := by
  have hne {r'} (hr : some r' ≠ some r) : r ≠ r' := fun e => hr (e ▸ rfl)
  cases step with
  | enqueue => rfl
  | tick => rfl
  | _ => exact Function.update_of_ne (hne h) _ _

/-- A runner that takes no step of a run stays where it is. -/
lemma runner_of_run {fleet s ms s' r} (run : Run (Cluster.Step fleet) s ms s')
    (h : ∀ m ∈ ms, m.label.runner ≠ some r) : ∀ m ∈ ms, m.post.runner r = s.runner r := by
  intro m hm
  obtain ⟨step, hpre⟩ := run.forall_moves (fun t => t.runner r = s.runner r)
    (fun m => m.label.runner ≠ some r) rfl
    (fun _ _ _ step hne hinv => (step.runner_ne hne).trans hinv) h m hm
  exact (step.runner_ne (h m hm)).trans hpre

/-- Three jobs, all due. -/
def threeJobs : JobsTable :=
  ⟨[emailJob, { emailJob with id := 2 }, { emailJob with id := 3 }], by decide⟩

/-- Three jobs claimed in one batch for a minute, with a handler that takes some seconds each. -/
def batchRun (secs : Int) : List Event :=
  [.claim 0 0 (fun _ => false)
      (threeJobs.rows.map (fun j => j.claimed "worker-0" 60000000 0)) true,
    .start 0,
    .tick (secs * 1000000),
    .finish 0 (.ok ()),
    .mark 0 (.done 1) (secs * 1000000) true,
    .start 0,
    .tick (2 * secs * 1000000),
    .finish 0 (.ok ()),
    .mark 0 (.done 2) (2 * secs * 1000000) true]

/-- Only the first runner acts. -/
lemma batchRun_runner {secs e} (h : e ∈ batchRun secs) {r} (hr : r ≠ 0) : e.runner ≠ some r := by
  simp only [batchRun, List.mem_cons, List.not_mem_nil, or_false] at h
  rcases h with rfl | rfl | rfl | rfl | rfl | rfl | rfl | rfl | rfl <;>
    simp [Event.runner, Ne.symm hr]

/-- With handlers of forty seconds each, the third of a batch starts twenty seconds after the end of
its lease. -/
theorem batch_outlives_lease :
    ¬ ∀ (fleet : ℕ → JobRunner) s ms s', (∀ r r', (fleet r).cfg = (fleet r').cfg) → s.Initial →
      Run (Cluster.Step fleet) s ms s' → (∀ m ∈ ms, Completes m ∧ Prompt fleet m.post) →
      ∀ m ∈ ms, StartsUnderLease fleet m ∧ NoRestart m := by
  intro property
  have hstates : ((Cluster.fresh threeJobs).execs emailFleet
      (fun m => Completes m && m.post.PromptAt emailFleet 0) (batchRun 40)).bind (fun s =>
        (s.exec emailFleet (.start 0)).map (fun s' =>
          (s'.PromptAt emailFleet 0, (s.runner 0).held.map (fun c => c.job.id), s.clock,
            (s.table.find? 3).map Job.lockedUntil))) =
      some (true, [3], 80000000, some (some 60000000)) := by decide +kernel
  obtain ⟨s, hs, hlast⟩ := Option.bind_eq_some_iff.mp hstates
  obtain ⟨s', hs', hvals⟩ := Option.map_eq_some_iff.mp hlast
  obtain ⟨hprompt, hvals⟩ := Prod.mk.inj hvals
  obtain ⟨hheld, hvals⟩ := Prod.mk.inj hvals
  obtain ⟨hclock, hlease⟩ := Prod.mk.inj hvals
  obtain ⟨ms, run, hlabels, hchecks⟩ := Cluster.execs_sound hs
  have step := Cluster.exec_sound hs'
  have run' := run.snoc step
  -- the other runners never leave their poll
  have hother : ∀ m ∈ ms ++ [⟨s, .start 0, s'⟩], ∀ r, r ≠ 0 → m.post.runner r = .polling := by
    intro m hm r hr
    refine runner_of_run run' (fun m hm => ?_) m hm
    rcases List.mem_append.mp hm with hm | hm
    · exact batchRun_runner (hlabels ▸ List.mem_map_of_mem hm) hr
    · cases List.mem_singleton.mp hm
      simp [Event.runner, Ne.symm hr]
  have hquick : ∀ m ∈ ms ++ [⟨s, .start 0, s'⟩], Completes m ∧ Prompt emailFleet m.post := by
    intro m hm
    have hzero : Completes m ∧ m.post.PromptAt emailFleet 0 := by
      rcases List.mem_append.mp hm with hm | hm
      · simpa using hchecks m hm
      · cases List.mem_singleton.mp hm
        exact ⟨rfl, hprompt⟩
    refine ⟨hzero.1, fun r => ?_⟩
    by_cases hr : r = 0
    · exact hr ▸ hzero.2
    · simp [Cluster.PromptAt, hother m hm r hr, RunnerState.current]
  have leased := (property emailFleet _ _ _ (fun _ _ => rfl) Cluster.fresh_initial run' hquick _
    (List.mem_append_right _ (List.mem_singleton_self _))).1
  obtain ⟨c, rest, pos, -⟩ := step.start_inv
  obtain ⟨-, j, u, hj, -, -, hu, hlt⟩ := leased 0 c rest rfl pos
  have hid : c.job.id = 3 := by
    rw [pos] at hheld
    exact (List.cons.inj hheld).1
  rw [hid] at hj
  rw [hj, Option.map_some, hu] at hlease
  have hend : u = 60000000 := Option.some.inj (Option.some.inj hlease)
  rw [hend, hclock] at hlt
  exact absurd hlt (by decide)

/-- With handlers of ten seconds each, the whole batch is dispatched under its lease. -/
theorem dispatch_under_lease_iff_batch :
    ∃ ms s', Run (Cluster.Step emailFleet) (Cluster.fresh threeJobs) ms s' ∧
      ms.map Move.label = batchRun 10 ∧ ∀ m ∈ ms, StartsUnderLease emailFleet m ∧ NoRestart m := by
  have hstates : ((Cluster.fresh threeJobs).execs emailFleet
      (fun m => Completes m && !m.post.Overtaken 0 &&
        (m.pre.runner 0).held.all (fun c => m.pre.clock < c.claimedAt + (emailFleet 0).lease))
      (batchRun 10)).isSome := by decide +kernel
  obtain ⟨s, hs⟩ := Option.isSome_iff_exists.mp hstates
  obtain ⟨ms, run, hlabels, hchecks⟩ := Cluster.execs_sound hs
  have hother : ∀ m ∈ ms, ∀ r, r ≠ 0 → m.post.runner r = .polling := by
    intro m hm r hr
    exact runner_of_run run
      (fun m hm => batchRun_runner (hlabels ▸ List.mem_map_of_mem hm) hr) m hm
  have hzero : ∀ m ∈ ms, Completes m ∧ ¬ m.post.Overtaken 0 ∧
      ∀ c ∈ (m.pre.runner 0).held, m.pre.clock < c.claimedAt + (emailFleet 0).lease := by
    intro m hm
    have h := hchecks m hm
    simp only [Bool.and_eq_true, Bool.not_eq_true', List.all_eq_true, decide_eq_true_eq] at h
    exact ⟨h.1.1, by simp [h.1.2], h.2⟩
  refine ⟨ms, s, run, hlabels, (dispatch_under_lease_iff Cluster.fresh_initial run
    (fun m hm => (hzero m hm).1) ?_).mpr ?_⟩
  · intro m hm r
    by_cases hr : r = 0
    · exact hr ▸ (hzero m hm).2.1
    · simp [Cluster.Overtaken, hother m hm r hr, RunnerState.current]
  · intro m hm r c rest hlabel pos
    have hr : r = 0 := by
      by_contra hr
      have hne := batchRun_runner (hlabels ▸ List.mem_map_of_mem hm) hr
      rw [hlabel] at hne
      exact hne rfl
    subst hr
    refine (hzero m hm).2.2 c ?_
    rw [pos]
    exact List.mem_cons_self

end Egras.Jobs
