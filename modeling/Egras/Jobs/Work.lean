import Egras.Jobs.Leases
import Egras.Jobs.Progress
import Egras.Lib.Charging
import Mathlib.Algebra.BigOperators.Ring.List
import Mathlib.Algebra.Ring.Nat

/-!
# Jobs: the work of a runner

A runner does not spin. Besides its polls that return nothing, it takes at most four steps for each job
of its kinds that is due or becomes so, whatever the other runners do (`work_bounded`): a claim that
returns jobs makes them not due, as its lease is still to come, and what the runner then holds is worked
off. Left alone with handlers that succeed it drains its queue (`queue_drains`): it comes back to its
poll with no due job left, and every job that was due is done.
-/

namespace Egras.Jobs
open Egras.Lib

/-- The due jobs of a runner's kinds. -/
def Cluster.due (s : Cluster) (runner : JobRunner) : List Job :=
  s.table.select (fun k => runner.registeredKinds.contains k.kind && k.isDue s.clock)

/-- The due jobs are those of the table that the runner may claim. -/
lemma Cluster.mem_due {s : Cluster} {runner : JobRunner} {k : Job} :
    k ∈ s.due runner ↔ k ∈ s.table ∧ k.kind ∈ runner.registeredKinds ∧ k.isDue s.clock := by
  simp [Cluster.due]

/-- Every due job is due once. -/
lemma Cluster.nodup_due {s : Cluster} {runner : JobRunner} :
    ((s.due runner).map Job.id).Nodup :=
  (List.filter_sublist.map Job.id).nodup s.table.nodup

/-- The steps that a runner still has to take for the jobs that it holds. -/
def RunnerState.load : RunnerState → ℕ
  | .polling | .stopped => 0
  | .dispatching rest => 3 * rest.length
  | .handling _ _ rest => 3 * rest.length + 2
  | .marking _ _ _ rest => 3 * rest.length + 1

/-- A claimed batch is three turns of work for each job. -/
@[simp] lemma RunnerState.load_ofBatch {rest : List Claimed} :
    (RunnerState.ofBatch rest).load = 3 * rest.length := by
  cases rest <;> rfl

/-- The steps of a runner that have to do with a job. -/
def Event.works (r : ℕ) : Event → Bool
  | .claim r' _ _ returned _ => r' = r && !returned.isEmpty
  | .start r' | .skip r' | .finish r' _ | .mark r' _ _ _ => r' = r
  | _ => false

/-- The due jobs of a runner's kinds that were not due as they are before the move. -/
def becomeDue (runner : JobRunner) (m : Move Cluster Event) : ℕ :=
  ((m.post.due runner).filter (fun k => k ∉ m.pre.due runner)).length

/-- What a runner can still have to do. -/
def Cluster.outstanding (s : Cluster) (fleet : ℕ → JobRunner) (r : ℕ) : ℕ :=
  4 * (s.due (fleet r)).length + (s.runner r).load

section Pays
variable {fleet : ℕ → JobRunner} {s s' : Cluster} {r : ℕ}

/-- A job is due for the longer. -/
lemma Job.isDue_mono {k : Job} {now later : Timestamp} (le : now ≤ later) (due : k.isDue now) :
    k.isDue later := by
  rw [Job.isDue_iff] at due ⊢
  rcases due with ⟨hs, hrun⟩ | ⟨hs, u, hu, hle⟩
  · exact Or.inl ⟨hs, le_trans hrun le⟩
  · exact Or.inr ⟨hs, u, hu, le_trans hle le⟩

/-- The jobs that are due after a move were due before it or have become due. -/
lemma length_due {e : Event} {runner : JobRunner} :
    (s'.due runner).length =
      ((s'.due runner).filter (fun k => k ∈ s.due runner)).length + becomeDue runner ⟨s, e, s'⟩ := by
  have hsplit := List.length_eq_length_filter_add (l := s'.due runner)
    fun k => decide (k ∈ s.due runner)
  rw [hsplit]
  unfold becomeDue
  simp only [decide_not]

/-- The jobs that stay due are no more than were due. -/
lemma length_stay_le {runner : JobRunner} :
    ((s'.due runner).filter (fun k => k ∈ s.due runner)).length ≤ (s.due runner).length := by
  refine length_le_of_keys (f := Job.id) (g := Job.id) ?_ ?_
  · exact (List.filter_sublist.map Job.id).nodup Cluster.nodup_due
  · intro k hk
    exact ⟨k, of_decide_eq_true (List.mem_filter.mp hk).2, rfl⟩

namespace Cluster.Step

/-- What a claim under a real lease returns does not stay due. -/
lemma claim_takes {now locked returned replied}
    (step : Step fleet s (.claim r now locked returned replied) s') (lease : 0 < (fleet r).lease) :
    returned.length + ((s'.due (fleet r)).filter (fun k => k ∈ s.due (fleet r))).length ≤
      (s.due (fleet r)).length := by
  obtain ⟨past, spec⟩ := step.claim_spec
  rw [← List.length_append]
  refine length_le_of_keys (f := Job.id) (g := Job.id) ?_ ?_
  · rw [List.map_append]
    apply spec.nodup.append ((List.filter_sublist.map Job.id).nodup Cluster.nodup_due)
    intro id hid hid'
    obtain ⟨q, hq, rfl⟩ := List.mem_map.mp hid
    obtain ⟨k, hk, hkq⟩ := List.mem_map.mp hid'
    obtain ⟨hpost, hpre⟩ := List.mem_filter.mp hk
    have hpre := Cluster.mem_due.mp (of_decide_eq_true hpre)
    -- the row would have been claimed with the lease that it has
    have hqk : q = k := by
      have hwritten := spec.written q hq
      rw [← hkq, Table.find?_key (Cluster.mem_due.mp hpost).1] at hwritten
      exact (Option.some.inj hwritten).symm
    obtain ⟨p, hp, -, hdue, -, hclaimed⟩ := spec.eligible q hq
    have hpk : p = k := by
      rw [← hkq, Table.find?_key hpre.1] at hp
      exact (Option.some.inj hp).symm
    rw [hpk] at hdue hclaimed
    rw [hqk] at hclaimed
    have hstate : k.state = .running := by rw [hclaimed]; rfl
    have huntil : k.lockedUntil = some (now + (fleet r).lease) := by rw [hclaimed]; rfl
    rcases Job.isDue_iff.mp hdue with ⟨hs, -⟩ | ⟨-, u, hu, hle⟩
    · exact JobState.noConfusion (hs.symm.trans hstate)
    · cases hu.symm.trans huntil
      exact absurd hle (not_le_of_gt (Int.lt_add_of_pos_right now lease))
  · intro k hk
    rcases List.mem_append.mp hk with hk | hk
    · obtain ⟨q, hq, hkind, hdue, -, -⟩ := spec.eligible k hk
      obtain ⟨hmem, hid⟩ := Table.find?_eq_some.mp hq
      exact ⟨q, Cluster.mem_due.mpr ⟨hmem, hkind, Job.isDue_mono past hdue⟩, hid⟩
    · exact ⟨k, of_decide_eq_true (List.mem_filter.mp hk).2, rfl⟩

/-- What a runner still has to do with the jobs that it holds gets less with its work, except that a
claim hands it jobs. -/
lemma load {e : Event} (step : Step fleet s e s') :
    (s'.runner r).load + (if e.works r then 1 else 0) ≤ (s.runner r).load ∨
      ∃ now locked returned replied, e = .claim r now locked returned replied ∧
        (s'.runner r).load + (if e.works r then 1 else 0) ≤ 4 * returned.length := by
  have moved {r' : ℕ} {st : RunnerState} (hload : st.load + 1 ≤ (s.runner r').load) :
      (Function.update s.runner r' st r).load + (if decide (r' = r) then 1 else 0) ≤
        (s.runner r).load := by
    by_cases hr : r' = r
    · subst hr
      rw [Function.update_self]
      simpa using hload
    · rw [Function.update_of_ne (Ne.symm hr)]
      simp [hr]
  cases step with
  | enqueue past stmt => exact Or.inl le_rfl
  | @claim r' now scan locked t rows returned replied polls past perm stmt order =>
    by_cases hr : r' = r
    · subst hr
      refine Or.inr ⟨now, locked, returned, replied, rfl, ?_⟩
      have hload : (Function.update s.runner r' (if replied then
          .ofBatch (claimedBatch s.log now returned) else .polling) r').load ≤ 3 * returned.length := by
        rw [Function.update_self]
        split
        · rw [RunnerState.load_ofBatch, claimedBatch, List.length_map]
        · exact Nat.zero_le _
      have hworks : (if (Event.claim r' now locked returned replied).works r' then 1 else 0) ≤
          returned.length := by
        cases returned <;> simp [Event.works]
      show (Function.update s.runner r' _ r').load + _ ≤ _
      omega
    · refine Or.inl ?_
      show (Function.update s.runner r' _ r).load + _ ≤ _
      rw [Function.update_of_ne (Ne.symm hr)]
      simp [Event.works, hr]
  | @start r' c rest pos handler =>
    refine Or.inl (moved ?_)
    rw [pos]
    show 3 * rest.length + 2 + 1 ≤ 3 * (rest.length + 1)
    omega
  | @skip r' c rest pos noHandler =>
    refine Or.inl (moved ?_)
    rw [pos]
    show 3 * rest.length + 1 + 1 ≤ 3 * (rest.length + 1)
    omega
  | finish pos =>
    refine Or.inl (moved ?_)
    rw [pos]
    exact le_rfl
  | mark pos call past stmt =>
    refine Or.inl (moved ?_)
    rw [pos, RunnerState.load_ofBatch]
    exact le_rfl
  | markFailed pos call =>
    refine Or.inl (moved ?_)
    rw [pos, RunnerState.load_ofBatch]
    exact le_rfl
  | @crash r' =>
    refine Or.inl ?_
    show (Function.update s.runner r' .stopped r).load + 0 ≤ _
    by_cases hr : r' = r
    · subst hr
      rw [Function.update_self]
      exact Nat.zero_le _
    · rw [Function.update_of_ne (Ne.symm hr)]
      exact le_rfl
  | tick le => exact Or.inl le_rfl

/-- One step: the work of a runner is paid for by what it holds and by the jobs that are due. -/
lemma work_pays {e : Event} (step : Step fleet s e s') (lease : 0 < (fleet r).lease) :
    s'.outstanding fleet r + (if e.works r then 1 else 0) ≤
      s.outstanding fleet r + 4 * becomeDue (fleet r) ⟨s, e, s'⟩ := by
  have hlength : (s'.due (fleet r)).length = _ + becomeDue (fleet r) ⟨s, e, s'⟩ := length_due
  unfold Cluster.outstanding
  rcases step.load (r := r) with hload | ⟨now, locked, returned, replied, rfl, hload⟩
  · have hstay : ((s'.due (fleet r)).filter (fun k => k ∈ s.due (fleet r))).length ≤ _ :=
      length_stay_le
    omega
  · have htakes := step.claim_takes lease
    omega

end Cluster.Step
end Pays

/-- In every run of any number of runners, a runner whose leases last takes at most four steps, besides
its polls that return nothing, for each job of its kinds that is due at the start or becomes due, and
what is left of the jobs that it holds. -/
theorem work_bounded {fleet s ms s'} (run : Run (Cluster.Step fleet) s ms s') {r}
    (lease : 0 < (fleet r).lease) :
    ms.countP (fun m => m.label.works r) ≤
      s.outstanding fleet r + 4 * (ms.map (becomeDue (fleet r))).sum := by
  have hcharge := run.charge (fun s => s.outstanding fleet r)
    (fun m => if m.label.works r then 1 else 0) (fun m => 4 * becomeDue (fleet r) m) (fun _ => True)
    (fun _ => True) trivial (fun _ _ _ _ _ _ => trivial) (fun _ _ _ step _ _ => step.work_pays lease)
    (fun _ _ => trivial)
  have hcost : (ms.map fun m => if m.label.works r then 1 else 0).sum =
      ms.countP (fun m => m.label.works r) := sum_map_ite
  have hgain : (ms.map fun m => 4 * becomeDue (fleet r) m).sum =
      4 * (ms.map (becomeDue (fleet r))).sum := by
    rw [List.sum_map_mul_left]
  rw [hcost, hgain] at hcharge
  omega

/-- A job that is claimed, handled and marked. -/
def handledRun : List Event :=
  [.claim 0 0 (fun _ => false) [emailJob.claimed "worker-0" 60000000 0] true,
    .start 0,
    .finish 0 (.ok ()),
    .mark 0 (.done 1) 0 true]

/-- One due job costs its runner four steps. -/
theorem work_bounded_handled :
    ∃ ms s', Run (Cluster.Step emailFleet) (.fresh (oneRow emailJob)) ms s' ∧
      ms.countP (fun m => m.label.works 0) = 4 ∧
      ms.countP (fun m => m.label.works 0) ≤
        (Cluster.fresh (oneRow emailJob)).outstanding emailFleet 0 +
          4 * (ms.map (becomeDue (emailFleet 0))).sum := by
  have hstates : ((Cluster.fresh (oneRow emailJob)).execs emailFleet (fun _ => true)
      handledRun).isSome := by decide +kernel
  obtain ⟨s, hs⟩ := Option.isSome_iff_exists.mp hstates
  obtain ⟨ms, run, hlabels, -⟩ := Cluster.execs_sound hs
  have hcount : ms.countP (fun m => m.label.works 0) = 4 := by
    have hmap : (ms.map Move.label).countP (fun e => e.works 0) = 4 := by
      rw [hlabels]
      rfl
    rw [List.countP_map] at hmap
    exact hmap
  exact ⟨ms, s, run, hcount, work_bounded run (by decide)⟩

/-! ## Draining the queue -/

/-- The jobs with these identifiers are being worked off by a runner whose handlers succeed: each is
due, held or done. -/
structure Draining (runner : JobRunner) (ids : List Uuid) (r : ℕ) (s : Cluster) : Prop where
  works : s.runner r ≠ .stopped ∧ s.runner r ≠ .dispatching []
  succeeds : ∀ c startedAt outcome rest, s.runner r = .marking c startedAt outcome rest →
    outcome = .ok ()
  held : ∀ c ∈ (s.runner r).held, c.job.id ∈ ids ∧ c.job.kind ∈ runner.registeredKinds ∧
    ∃ k, s.table.find? c.job.id = some k
  due : ∀ k ∈ s.due runner, k.id ∈ ids
  owed : ∀ id ∈ ids, (∃ k ∈ s.due runner, k.id = id) ∨ (∃ c ∈ (s.runner r).held, c.job.id = id) ∨
    ∃ k, s.table.find? id = some k ∧ k.state = .done

/-- What a step of a draining runner leaves alone: the clock and all other rows. -/
structure Cluster.SameBut (ids : List Uuid) (s s' : Cluster) : Prop where
  clock : s'.clock = s.clock
  rows : ∀ id, id ∉ ids → s'.table.find? id = s.table.find? id

/-- One change after another. -/
lemma Cluster.SameBut.trans {ids : List Uuid} {s s' s'' : Cluster} (h : s.SameBut ids s')
    (h' : s'.SameBut ids s'') : s.SameBut ids s'' :=
  ⟨h'.clock.trans h.clock, fun id hid => (h'.rows id hid).trans (h.rows id hid)⟩

/-- A claim whose lease ends in range is answered. -/
lemma claimDue_answers {t : JobsTable} {req now scan locked}
    (inRange : timestampInRange (now + req.lease)) :
    ∃ t' returned, claimDue t req now scan locked = some (t', returned) := by
  unfold claimDue
  split
  · exact ⟨_, _, rfl⟩
  · simp only [inRange, Bool.not_true, Bool.and_false, Bool.false_eq_true, if_false]
    exact ⟨_, _, rfl⟩

/-- A move of a draining runner: it has to do with a job, nothing becomes due, and what is being worked
off still is. -/
structure Drains (fleet : ℕ → JobRunner) (ids : List Uuid) (r : ℕ) (s : Cluster) (e : Event)
    (s' : Cluster) : Prop where
  step : Cluster.Step fleet s e s'
  runner : e.runner = some r
  works : e.works r = true
  same : s.SameBut ids s'
  settled : ∀ k ∈ s'.due (fleet r), k ∈ s.due (fleet r)
  draining : Draining (fleet r) ids r s'

/-- The work that is left gets less. -/
lemma Drains.less {fleet ids r s e s'} (h : Drains fleet ids r s e s') (lease : 0 < (fleet r).lease) :
    s'.outstanding fleet r + 1 ≤ s.outstanding fleet r := by
  have hpays := h.step.work_pays lease
  have hnone : becomeDue (fleet r) ⟨s, e, s'⟩ = 0 := by
    apply List.length_eq_zero_iff.mpr
    apply List.filter_eq_nil_iff.mpr
    intro k hk
    simpa using h.settled k hk
  rw [h.works, hnone] at hpays
  exact hpays

namespace Draining
variable {fleet : ℕ → JobRunner} {ids : List Uuid} {r : ℕ} {s s' : Cluster}

/-- The runner goes on with the same jobs. -/
lemma goes_on {e : Event} (drains : Draining (fleet r) ids r s) (step : Cluster.Step fleet s e s')
    (runner : e.runner = some r) (works : e.works r = true) (table : s'.table = s.table)
    (clock : s'.clock = s.clock) (held : (s'.runner r).held = (s.runner r).held)
    (going : s'.runner r ≠ .stopped ∧ s'.runner r ≠ .dispatching [])
    (succeeds : ∀ c startedAt outcome rest, s'.runner r = .marking c startedAt outcome rest →
      outcome = .ok ()) :
    Drains fleet ids r s e s' := by
  have hdue : s'.due (fleet r) = s.due (fleet r) := by
    unfold Cluster.due
    rw [table, clock]
  refine ⟨step, runner, works, ⟨clock, fun id _ => by rw [table]⟩, fun k hk => hdue ▸ hk, ?_⟩
  refine ⟨going, succeeds, ?_, fun k hk => drains.due k (hdue ▸ hk), ?_⟩
  · rw [held, table]
    exact drains.held
  · rw [held, table, hdue]
    exact drains.owed

/-- A batch is claimed. -/
lemma claims (drains : Draining (fleet r) ids r s) (polls : s.runner r = .polling)
    (waits : s.due (fleet r) ≠ []) (lease : 0 < (fleet r).lease) (batch : 0 < (fleet r).cfg.batchSize)
    (inRange : timestampInRange (s.clock + (fleet r).lease)) :
    ∃ e s', Drains fleet ids r s e s' := by
  obtain ⟨j, hdue⟩ := List.exists_mem_of_ne_nil _ waits
  obtain ⟨hj, hkind, hisDue⟩ := Cluster.mem_due.mp hdue
  obtain ⟨t, returned, stmt⟩ : ∃ t returned, claimDue s.table (fleet r).claimRequest s.clock
      s.table.rows (fun _ => false) = some (t, returned) := claimDue_answers inRange
  obtain ⟨s', step, hrunner, hclock⟩ : ∃ s',
      Cluster.Step fleet s (.claim r s.clock (fun _ => false) returned true) s' ∧
        s'.runner r = .ofBatch (claimedBatch s.log s.clock returned) ∧ s'.clock = s.clock :=
    ⟨_, .claim polls le_rfl (List.Perm.refl _) stmt (List.Perm.refl _), Function.update_self .., rfl⟩
  obtain ⟨-, spec⟩ := step.claim_spec
  have hnonempty : returned ≠ [] := by
    intro hnil
    rcases spec.empty_iff.mp hnil with hnone | hzero
    · have heligible := hnone j hj
      simp [ClaimRequest.eligible, JobRunner.claimRequest, hkind, hisDue] at heligible
    · exact absurd hzero (Nat.pos_iff_ne_zero.mp batch)
  -- only due jobs are returned, and they are not due any more
  have hreturned : ∀ q ∈ returned, ∃ p ∈ s.due (fleet r), p.id = q.id := by
    intro q hq
    obtain ⟨p, hp, hpkind, hpdue, -, -⟩ := spec.eligible q hq
    obtain ⟨hmem, hid⟩ := Table.find?_eq_some.mp hp
    exact ⟨p, Cluster.mem_due.mpr ⟨hmem, hpkind, hpdue⟩, hid⟩
  have hsettled : ∀ k ∈ s'.due (fleet r), k ∈ s.due (fleet r) ∧ ∀ q ∈ returned, q.id ≠ k.id := by
    intro k hk
    obtain ⟨hmem, hkkind, hkdue⟩ := Cluster.mem_due.mp hk
    have hnot : ∀ q ∈ returned, q.id ≠ k.id := by
      intro q hq hid
      have hwritten := spec.written q hq
      rw [hid, Table.find?_key hmem] at hwritten
      cases hwritten
      obtain ⟨p, -, -, -, -, hclaimed⟩ := spec.eligible k hq
      rw [hclaimed, hclock] at hkdue
      rcases Job.isDue_iff.mp hkdue with ⟨hs, -⟩ | ⟨-, u, hu, hle⟩
      · cases hs
      · cases hu
        exact absurd hle (not_le_of_gt (Int.lt_add_of_pos_right s.clock lease))
    have hsame := spec.frame k.id hnot
    rw [Table.find?_key hmem] at hsame
    refine ⟨Cluster.mem_due.mpr ⟨(Table.find?_eq_some.mp hsame.symm).1, hkkind, ?_⟩, hnot⟩
    rw [← hclock]
    exact hkdue
  refine ⟨_, s', step, rfl, ?_, ⟨hclock, ?_⟩, fun k hk => (hsettled k hk).1, ?_⟩
  · simp [Event.works, hnonempty]
  · intro id hid
    apply spec.frame
    intro q hq hqid
    obtain ⟨p, hp, hpq⟩ := hreturned q hq
    exact hid (hqid ▸ hpq ▸ drains.due p hp)
  · have hheld : (s'.runner r).held = claimedBatch s.log s.clock returned := by
      rw [hrunner, RunnerState.held_ofBatch]
    refine ⟨?_, ?_, ?_, fun k hk => drains.due k (hsettled k hk).1, ?_⟩
    · rw [hrunner]
      cases hbatch : claimedBatch s.log s.clock returned with
      | nil => exact ⟨RunnerState.noConfusion, RunnerState.noConfusion⟩
      | cons c rest => exact ⟨RunnerState.noConfusion, fun h => by cases h⟩
    · intro c startedAt outcome rest pos
      rw [hrunner] at pos
      cases hbatch : claimedBatch s.log s.clock returned <;> rw [hbatch] at pos <;> cases pos
    · rw [hheld]
      intro c hc
      have hret := (mem_claimedBatch hc).1
      obtain ⟨p, hp, hpc⟩ := hreturned c.job hret
      obtain ⟨q, -, hqkind, -, -, hclaimed⟩ := spec.eligible c.job hret
      refine ⟨hpc ▸ drains.due p hp, ?_, c.job, spec.written c.job hret⟩
      rw [hclaimed]
      exact hqkind
    · rw [hheld]
      intro id hid
      by_cases hret : ∃ q ∈ returned, q.id = id
      · obtain ⟨q, hq, rfl⟩ := hret
        exact Or.inr (Or.inl ⟨_, List.mem_map_of_mem hq, rfl⟩)
      · have hframe := spec.frame id fun q hq hqid => hret ⟨q, hq, hqid⟩
        rcases drains.owed id hid with ⟨k, hk, rfl⟩ | ⟨c, hc, -⟩ | ⟨k, hk, hdone⟩
        · obtain ⟨hmem, hkkind, hkdue⟩ := Cluster.mem_due.mp hk
          rw [Table.find?_key hmem] at hframe
          refine Or.inl ⟨k, Cluster.mem_due.mpr ⟨(Table.find?_eq_some.mp hframe).1, hkkind, ?_⟩, rfl⟩
          rw [hclock]
          exact hkdue
        · rw [polls] at hc
          cases hc
        · exact Or.inr (Or.inr ⟨k, hframe.trans hk, hdone⟩)

/-- A handler has succeeded, and the job is marked done. -/
lemma marks (drains : Draining (fleet r) ids r s) {c startedAt rest}
    (pos : s.runner r = .marking c startedAt (.ok ()) rest) :
    ∃ e s', Drains fleet ids r s e s' := by
  have call : dispatchMark (fleet r) c.job (.ok ()) s.clock = some (.done c.job.id) := rfl
  obtain ⟨s', step, hrunner, hclock, htable⟩ : ∃ s',
      Cluster.Step fleet s (.mark r (.done c.job.id) s.clock true) s' ∧
        s'.runner r = .ofBatch rest ∧ s'.clock = s.clock ∧
        (Mark.done c.job.id).exec s.table s.clock = some s'.table :=
    ⟨_, .mark pos call le_rfl rfl, Function.update_self .., rfl, rfl⟩
  have hheld : (s.runner r).held = c :: rest := by rw [pos]; rfl
  have hheld' : (s'.runner r).held = rest := by rw [hrunner, RunnerState.held_ofBatch]
  obtain ⟨hids, -, q, hq⟩ := drains.held c (hheld ▸ List.mem_cons_self)
  have hmarked : s'.table.find? c.job.id = some ((Mark.done c.job.id).apply s.clock q) := by
    have hself := Mark.exec_find?_self htable
    rw [show (Mark.done c.job.id).id = c.job.id from rfl, hq] at hself
    exact hself
  have hother : ∀ id, id ≠ c.job.id → s'.table.find? id = s.table.find? id :=
    fun id hid => Mark.exec_find?_ne htable hid
  have hsettled : ∀ k ∈ s'.due (fleet r), k ∈ s.due (fleet r) := by
    intro k hk
    obtain ⟨hmem, hkind, hdue⟩ := Cluster.mem_due.mp hk
    have hfind := Table.find?_key hmem
    by_cases hid : k.id = c.job.id
    · rw [hid, hmarked] at hfind
      cases hfind
      rcases Job.isDue_iff.mp hdue with ⟨hs, -⟩ | ⟨hs, -⟩ <;> cases hs
    · rw [hother k.id hid] at hfind
      exact Cluster.mem_due.mpr ⟨(Table.find?_eq_some.mp hfind).1, hkind, hclock ▸ hdue⟩
  refine ⟨_, s', step, rfl, ?_, ⟨hclock, ?_⟩, hsettled, ?_⟩
  · simp [Event.works]
  · intro id hid
    exact hother id fun heq => hid (heq ▸ hids)
  · refine ⟨?_, ?_, ?_, fun k hk => drains.due k (hsettled k hk), ?_⟩
    · rw [hrunner]
      cases rest with
      | nil => exact ⟨RunnerState.noConfusion, RunnerState.noConfusion⟩
      | cons c' rest => exact ⟨RunnerState.noConfusion, fun h => by cases h⟩
    · intro c' startedAt' outcome rest' pos'
      rw [hrunner] at pos'
      cases rest <;> cases pos'
    · rw [hheld']
      intro c' hc'
      obtain ⟨hids', hkind', k, hk⟩ := drains.held c' (hheld ▸ List.mem_cons_of_mem _ hc')
      refine ⟨hids', hkind', ?_⟩
      by_cases hid : c'.job.id = c.job.id
      · rw [hid]
        exact ⟨_, hmarked⟩
      · exact ⟨k, (hother _ hid).trans hk⟩
    · rw [hheld']
      intro id hid
      by_cases hsame : id = c.job.id
      · subst hsame
        exact Or.inr (Or.inr ⟨_, hmarked, rfl⟩)
      · rcases drains.owed id hid with ⟨k, hk, rfl⟩ | ⟨c', hc', hcid⟩ | ⟨k, hk, hdone⟩
        · obtain ⟨hmem, hkind, hdue⟩ := Cluster.mem_due.mp hk
          have hfind := (hother k.id hsame).trans (Table.find?_key hmem)
          refine Or.inl ⟨k, Cluster.mem_due.mpr ⟨(Table.find?_eq_some.mp hfind).1, hkind, ?_⟩, rfl⟩
          rw [hclock]
          exact hdue
        · rw [hheld] at hc'
          rcases List.mem_cons.mp hc' with rfl | hrest
          · exact absurd hcid.symm hsame
          · exact Or.inr (Or.inl ⟨c', hrest, hcid⟩)
        · exact Or.inr (Or.inr ⟨k, (hother id hsame).trans hk, hdone⟩)

/-- A draining runner has a move, unless it polls and no job is due. -/
lemma progress (drains : Draining (fleet r) ids r s) (lease : 0 < (fleet r).lease)
    (batch : 0 < (fleet r).cfg.batchSize) (inRange : timestampInRange (s.clock + (fleet r).lease)) :
    s.runner r = .polling ∧ s.due (fleet r) = [] ∨ ∃ e s', Drains fleet ids r s e s' := by
  cases pos : s.runner r with
  | polling =>
    by_cases hdue : s.due (fleet r) = []
    · exact Or.inl ⟨rfl, hdue⟩
    · exact Or.inr (drains.claims pos hdue lease batch inRange)
  | dispatching todo =>
    cases todo with
    | nil => exact absurd pos drains.works.2
    | cons c rest =>
      have hkind := (drains.held c (by rw [pos]; exact List.mem_cons_self)).2.1
      have hrunner : Function.update s.runner r (.handling c s.clock rest) r =
          .handling c s.clock rest := Function.update_self ..
      refine Or.inr ⟨_, _, drains.goes_on (.start pos hkind) rfl (decide_eq_true rfl) rfl rfl ?_ ?_ ?_⟩
      · show (Function.update s.runner r _ r).held = _
        rw [hrunner, pos]
        rfl
      · show Function.update s.runner r _ r ≠ _ ∧ Function.update s.runner r _ r ≠ _
        rw [hrunner]
        exact ⟨RunnerState.noConfusion, RunnerState.noConfusion⟩
      · intro c' startedAt outcome rest' pos'
        cases hrunner.symm.trans pos'
  | handling c startedAt rest =>
    have hkind := (drains.held c (by rw [pos]; exact List.mem_cons_self)).2.1
    have houtcome : dispatchOutcome (fleet r) c.job (.ok ()) = .ok () :=
      if_pos (List.contains_iff_mem.mpr hkind)
    have hrunner : Function.update s.runner r
        (.marking c startedAt (dispatchOutcome (fleet r) c.job (.ok ())) rest) r =
          .marking c startedAt (.ok ()) rest := by
      rw [Function.update_self, houtcome]
    have step : Cluster.Step fleet s (.finish r (.ok ())) _ := .finish pos
    refine Or.inr ⟨_, _, drains.goes_on step rfl (decide_eq_true rfl) rfl rfl ?_ ?_ ?_⟩
    · show (Function.update s.runner r _ r).held = _
      rw [hrunner, pos]
      rfl
    · show Function.update s.runner r _ r ≠ _ ∧ Function.update s.runner r _ r ≠ _
      rw [hrunner]
      exact ⟨RunnerState.noConfusion, RunnerState.noConfusion⟩
    · intro c' startedAt' outcome rest' pos'
      cases hrunner.symm.trans pos'
      rfl
  | marking c startedAt outcome rest =>
    have hok := drains.succeeds c startedAt outcome rest pos
    subst hok
    exact Or.inr (drains.marks pos)
  | stopped => exact absurd pos drains.works.1

/-- A draining runner works off all that is left. -/
lemma finishes {n : ℕ} (drains : Draining (fleet r) ids r s) (lease : 0 < (fleet r).lease)
    (batch : 0 < (fleet r).cfg.batchSize) (inRange : timestampInRange (s.clock + (fleet r).lease))
    (hn : s.outstanding fleet r ≤ n) :
    ∃ ms s', Run (Cluster.Step fleet) s ms s' ∧ (∀ m ∈ ms, m.label.runner = some r) ∧
      ms.length ≤ n ∧ s.SameBut ids s' ∧ s'.runner r = .polling ∧ s'.due (fleet r) = [] ∧
      Draining (fleet r) ids r s' := by
  induction n generalizing s with
  | zero =>
    rcases drains.progress lease batch inRange with ⟨polls, hdue⟩ | ⟨e, s', hmove⟩
    · exact ⟨[], s, .nil, by simp, le_rfl, ⟨rfl, fun _ _ => rfl⟩, polls, hdue, drains⟩
    · have hless := hmove.less lease
      omega
  | succ n ih =>
    rcases drains.progress lease batch inRange with ⟨polls, hdue⟩ | ⟨e, s', hmove⟩
    · exact ⟨[], s, .nil, by simp, Nat.zero_le _, ⟨rfl, fun _ _ => rfl⟩, polls, hdue, drains⟩
    · have hless := hmove.less lease
      obtain ⟨ms, s'', run, hown, hlength, hsame, polls, hdue, hend⟩ :=
        ih hmove.draining (hmove.same.clock.symm ▸ inRange) (by omega)
      refine ⟨_, s'', run.cons hmove.step, ?_, Nat.succ_le_succ hlength, hmove.same.trans hsame, polls,
        hdue, hend⟩
      intro m hm
      rcases List.mem_cons.mp hm with rfl | hm
      · exact hmove.runner
      · exact hown m hm

/-- A runner that polls can be left alone with its queue. -/
lemma of_polls (polls : s.runner r = .polling) :
    Draining (fleet r) ((s.due (fleet r)).map Job.id) r s := by
  refine ⟨?_, ?_, ?_, fun k hk => List.mem_map_of_mem hk, ?_⟩
  · rw [polls]
    exact ⟨RunnerState.noConfusion, RunnerState.noConfusion⟩
  · intro c startedAt outcome rest pos
    cases polls.symm.trans pos
  · intro c hc
    rw [polls] at hc
    cases hc
  · intro id hid
    obtain ⟨k, hk, rfl⟩ := List.mem_map.mp hid
    exact Or.inl ⟨k, hk, rfl⟩

/-- When a runner is back at its poll and nothing is due, all is done. -/
lemma done (drains : Draining (fleet r) ids r s) (polls : s.runner r = .polling)
    (hdue : s.due (fleet r) = []) {id : Uuid} (hid : id ∈ ids) :
    ∃ k, s.table.find? id = some k ∧ k.state = .done := by
  rcases drains.owed id hid with ⟨k, hk, -⟩ | ⟨c, hc, -⟩ | hdone
  · rw [hdue] at hk
    cases hk
  · rw [polls] at hc
    cases hc
  · exact hdone

end Draining

/-- From every state, a runner that is left alone at its poll and whose handlers succeed drains its
queue: in at most four steps for each due job of its kinds it comes to a poll with no such job due,
every one of them is done, and no other row has changed. -/
theorem queue_drains {fleet : ℕ → JobRunner} {s : Cluster} {r : ℕ} (polls : s.runner r = .polling)
    (lease : 0 < (fleet r).lease) (batch : 0 < (fleet r).cfg.batchSize)
    (inRange : timestampInRange (s.clock + (fleet r).lease)) :
    ∃ ms s', Run (Cluster.Step fleet) s ms s' ∧ (∀ m ∈ ms, m.label.runner = some r) ∧
      ms.length ≤ 4 * (s.due (fleet r)).length ∧ s'.runner r = .polling ∧ s'.due (fleet r) = [] ∧
      (∀ j ∈ s.due (fleet r), ∃ k, s'.table.find? j.id = some k ∧ k.state = .done) ∧
      s.SameBut ((s.due (fleet r)).map Job.id) s' := by
  have hleft : s.outstanding fleet r ≤ 4 * (s.due (fleet r)).length := by
    unfold Cluster.outstanding
    rw [polls]
    exact le_rfl
  obtain ⟨ms, s', run, hown, hlength, hsame, polls', hdue, hend⟩ :=
    (Draining.of_polls polls).finishes lease batch inRange hleft
  refine ⟨ms, s', run, hown, hlength, polls', hdue, ?_, hsame⟩
  exact fun j hj => hend.done polls' hdue (List.mem_map_of_mem hj)

/-- A single due job gets done. -/
theorem queue_drains_email :
    ∃ ms s', Run (Cluster.Step emailFleet) (.fresh (oneRow emailJob)) ms s' ∧
      ∃ k, s'.table.find? emailJob.id = some k ∧ k.state = .done := by
  obtain ⟨ms, s', run, -, -, -, -, hdone, -⟩ :=
    @queue_drains emailFleet (.fresh (oneRow emailJob)) 0 rfl (by decide) (by decide) (by decide)
  refine ⟨ms, s', run, hdone emailJob ?_⟩
  exact Cluster.mem_due.mpr ⟨List.mem_singleton_self _, by decide, by decide⟩

end Egras.Jobs
