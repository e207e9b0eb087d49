import Egras.Jobs.Store

/-!
# Jobs: no job is stuck

A job that is neither done nor dead can be claimed as soon as its time has come. The invariant is
`LocksMatch`: a statement that left a running job without `locked_until` would hide it from
`claim_due` for ever, since the claim's second branch asks for a non-null `locked_until`. A pending
job is due at its `run_at` and a running one at its `locked_until`, so that the `due` query selects
it once its limit covers the eligible rows.
-/

namespace Egras.Jobs
open Egras.Lib

/-- The instant from which a claim may take the job: its `run_at`, or the end of its lease. -/
def Job.dueAt (j : Job) : Timestamp :=
  match j.state with
  | .running => j.lockedUntil.getD j.runAt
  | _ => j.runAt

/-- A job that still has work to do is due from `dueAt` on. -/
lemma Job.isDue_of_dueAt {j : Job} {now} (locks : j.LocksMatch) (live : ¬ j.state.Final)
    (reached : j.dueAt ≤ now) : j.isDue now := by
  rw [Job.isDue_iff]
  cases hs : j.state with
  | pending =>
    rw [Job.dueAt, hs] at reached
    exact Or.inl ⟨rfl, reached⟩
  | running =>
    obtain ⟨u, hu⟩ := locks.lockedUntil hs
    rw [Job.dueAt, hs] at reached
    simp only [hu, Option.getD_some] at reached
    exact Or.inr ⟨rfl, u, hu, reached⟩
  | done => exact absurd (Or.inl hs) live
  | dead => exact absurd (Or.inr hs) live

/-- A claim that covers all eligible rows returns every eligible row. -/
lemma claimDue_returns {t : JobsTable} {req now scan locked j} (perm : scan.Perm t.rows)
    (hj : j ∈ t) (hk : j.kind ∈ req.kinds) (hd : j.isDue now) (hl : locked j.id = false)
    (limit : (t.select (req.eligible now locked)).length ≤ req.limit)
    (inRange : timestampInRange (now + req.lease)) :
    ∃ t' returned, claimDue t req now scan locked = some (t', returned) ∧
      j.claimed req.workerId (now + req.lease) now ∈ returned := by
  have hmem := mem_dueJobs_of_limit perm hj hk hd hl limit
  have hkinds : req.kinds.isEmpty = false := by
    cases h : req.kinds with
    | nil => simp [h] at hk
    | cons _ _ => rfl
  have hstmt : claimDue t req now scan locked =
      some (t.updateWhere (fun k => (dueJobs req now scan locked).any (fun d => d.id = k.id))
          (fun k => k.claimed req.workerId (now + req.lease) now) (fun _ => Job.claimed_id),
        (dueJobs req now scan locked).map
          (fun k => k.claimed req.workerId (now + req.lease) now)) := by
    simp [claimDue, hkinds, inRange]
  exact ⟨_, _, hstmt, List.mem_map.mpr ⟨j, hmem, rfl⟩⟩

/-- In every reachable table a job is running exactly when both its lock columns are set, and a job
that is neither done nor dead is returned, once its time has come and no other transaction has its
row locked, by every claim of its kind whose limit is large enough. -/
theorem no_stuck_job {clock ms s} (run : Run Store.Step (Store.init clock) ms s) :
    (∀ j ∈ s.table, j.state = .running ↔ j.lockedUntil.isSome ∧ j.lockedBy.isSome) ∧
    ∀ j ∈ s.table, ¬ j.state.Final →
      ∀ now, (j.state = .pending → j.runAt ≤ now) →
        (j.state = .running → ∀ u, j.lockedUntil = some u → u ≤ now) →
      ∃ enough, ∀ req : ClaimRequest, j.kind ∈ req.kinds → enough ≤ req.limit →
        timestampInRange (now + req.lease) →
        ∀ scan locked, scan.Perm s.table.rows → locked j.id = false →
        ∃ t' returned, claimDue s.table req now scan locked = some (t', returned) ∧
          ∃ k ∈ returned, k.id = j.id ∧ k.state = .running := by
  have inv := Store.locksMatch_of_run run
  refine ⟨fun j hj => (inv j hj).iff, ?_⟩
  intro j hj live now hpending hrunning
  have reached : j.dueAt ≤ now := by
    unfold Job.dueAt
    cases hs : j.state with
    | pending => exact hpending hs
    | running =>
      obtain ⟨u, hu⟩ := (inv j hj).lockedUntil hs
      simpa [hu] using hrunning hs u hu
    | done => exact absurd (Or.inl hs) live
    | dead => exact absurd (Or.inr hs) live
  have due := Job.isDue_of_dueAt (inv j hj) live reached
  refine ⟨s.table.rows.length, ?_⟩
  intro req hk enough inRange scan locked perm hl
  have limit : (s.table.select (req.eligible now locked)).length ≤ req.limit :=
    le_trans (List.length_filter_le _ _) enough
  obtain ⟨t', returned, hclaim, hret⟩ := claimDue_returns perm hj hk due hl limit inRange
  exact ⟨t', returned, hclaim, _, hret, rfl, rfl⟩

/-- A job that was just enqueued is returned by a claim of its kind. -/
theorem no_stuck_job_enqueued :
    ∃ limit t' returned,
      claimDue (oneRow emailJob) ⟨"worker-1", ["email.send"], Duration.fromSecs 60 (by decide), limit⟩ 0
        [emailJob] (fun _ => false) = some (t', returned) ∧
      ∃ k ∈ returned, k.id = emailJob.id ∧ k.state = .running := by
  have stmt : enqueueInTx Table.empty 1 ⟨"email.send", .null, 5, 0⟩ 0 =
      some (oneRow emailJob) := by decide +kernel
  have run : Run Store.Step (Store.init 0) _ _ := Run.single (.enqueue (le_refl _) stmt)
  obtain ⟨enough, returns⟩ := (no_stuck_job run).2 emailJob (List.mem_singleton_self _) (by decide) 0
    (fun _ => le_refl _) (fun h => absurd h (by decide))
  have kind : emailJob.kind ∈ ["email.send"] := by decide
  have inRange : ∀ limit, timestampInRange
      (0 + (ClaimRequest.mk "worker-1" ["email.send"] (Duration.fromSecs 60 (by decide)) limit).lease) := by
    intro limit
    simp only [ClaimRequest.lease, Duration.fromSecs]
    decide
  exact ⟨enough, returns _ kind (le_refl _) (inRange _) [emailJob] _ (List.Perm.refl _) rfl⟩

end Egras.Jobs
