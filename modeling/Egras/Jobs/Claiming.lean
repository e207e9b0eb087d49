import Egras.Jobs.Store
import Mathlib.Algebra.Order.Group.Int

/-!
# Jobs: exclusive claims

Two leases on one job do not overlap unless a mark ended the first. Between the two claims the row
stays running, under a `locked_until` that later claims only move forward (`LeasedUntil`), and a
claim takes a running row only at or after its `locked_until`.

The lease that `claim_due` hands out is `visibility.as_secs()` seconds, so that the part of
`visibility` below one second is dropped and the lease is shorter than the documented
`locked_until = now + visibility`. `lease_exact_iff` says when the two agree, and
`claims_exclusive_iff` carries this to whole runs.
-/

namespace Egras.Jobs
open Egras.Lib

/-- The operation is a claim at `now` that returns the job. -/
def Op.Claims (op : Op) (id : Uuid) (now : Timestamp) : Prop :=
  ∃ req locked returned, op = .claim req now locked returned ∧ ∃ j ∈ returned, j.id = id

/-- The operation is a mark of the job. -/
def Op.Marks (op : Op) (id : Uuid) : Prop := ∃ m now, op = .mark m now ∧ m.id = id

/-- A claim returns at most `limit` distinct jobs of the requested kinds, each pending and due or
running under an expired lease, and sets exactly these to running, locked by the claimer until
`now + visibility`. -/
def ClaimCorrect (m : Move Store Op) : Prop :=
  ∀ req now locked returned, m.label = .claim req now locked returned →
    returned.length ≤ req.limit ∧ (returned.map Job.id).Nodup ∧
    (∀ j ∈ returned, ∃ q, m.pre.table.find? j.id = some q ∧ q.kind ∈ req.kinds ∧
      ((q.state = .pending ∧ q.runAt ≤ now) ∨
        (q.state = .running ∧ ∃ u, q.lockedUntil = some u ∧ u ≤ now)) ∧
      m.post.table.find? j.id = some j ∧ j.state = .running ∧ j.lockedBy = some req.workerId ∧
      ∃ u, j.lockedUntil = some u ∧ (u - now) * 1000 = req.visibility.asNanos) ∧
    ∀ id, (∀ j ∈ returned, j.id ≠ id) → m.post.table.find? id = m.pre.table.find? id

/-- A second claim of a job that was not marked since the first begins when the first lease is
over. -/
def Exclusive (ms : List (Move Store Op)) : Prop :=
  ∀ before a between b after id now now', ms = before ++ a :: (between ++ b :: after) →
    a.label.Claims id now → b.label.Claims id now' → (∀ m ∈ between, ¬ m.label.Marks id) →
    ∃ j u, a.post.table.find? id = some j ∧ j.lockedUntil = some u ∧ u ≤ now'

/-- The claim has nothing to lease, or a visibility without a part below one second. -/
def LeaseExact (m : Move Store Op) : Prop :=
  ∀ req now locked returned, m.label = .claim req now locked returned →
    (∀ j ∈ m.pre.table, req.eligible now locked j = false) ∨ req.limit = 0 ∨ req.visibility.Whole

/-- The lease is as long as the visibility exactly when this is a whole number of seconds. -/
lemma lease_exact_iff {req : ClaimRequest} :
    req.lease * 1000 = req.visibility.asNanos ↔ req.visibility.Whole := by
  have hlt := req.visibility.secs_lt
  unfold ClaimRequest.lease makeInterval Duration.asNanos Duration.Whole
  by_cases hs : req.visibility.secs < 2 ^ 63
  · rw [wrapI64_of_lt hs]
    omega
  · have hneg := wrapI64_neg (by omega) hlt
    omega

/-- A lease of whole seconds is not negative. -/
lemma lease_nonneg {req : ClaimRequest} (whole : req.visibility.Whole) : 0 ≤ req.lease := by
  have h := lease_exact_iff.mpr whole
  omega

/-- The job is running and its lease ends at `u` or later. -/
def Store.LeasedUntil (id : Uuid) (u : Timestamp) (s : Store) : Prop :=
  ∃ j v, s.table.find? id = some j ∧ j.state = .running ∧ j.lockedUntil = some v ∧ u ≤ v

namespace Store.Step
variable {s s' : Store} {id : Uuid}

/-- What a claim leaves of the job it returns. -/
lemma leasedUntil_of_claims {req now locked returned}
    (step : Step s (.claim req now locked returned) s') (ret : ∃ j ∈ returned, j.id = id) :
    ∃ j, s'.table.find? id = some j ∧ j.state = .running ∧
      j.lockedUntil = some (now + req.lease) := by
  obtain ⟨-, -, spec⟩ := step.claim_inv
  obtain ⟨j, hj, rfl⟩ := ret
  refine ⟨j, spec.written j hj, ?_⟩
  obtain ⟨q, -, -, -, -, rfl⟩ := spec.eligible j hj
  exact ⟨rfl, rfl⟩

/-- A claim takes a running job only when its lease is over. -/
lemma le_of_claims {now u} {op} (step : Step s op s') (claims : op.Claims id now)
    (leased : s.LeasedUntil id u) : u ≤ now := by
  obtain ⟨req, locked, returned, rfl, j, hj, rfl⟩ := claims
  obtain ⟨-, -, spec⟩ := step.claim_inv
  obtain ⟨q, hq, -, hdue, -, -⟩ := spec.eligible j hj
  obtain ⟨q', v, hq', hrun, hv, hle⟩ := leased
  rw [hq'] at hq
  cases hq
  rcases Job.isDue_iff.mp hdue with ⟨hpend, -⟩ | ⟨-, w, hw, hwn⟩
  · rw [hrun] at hpend
    cases hpend
  · rw [hv] at hw
    cases hw
    exact le_trans hle hwn

/-- Without a mark the lease of a job only moves forward. -/
lemma leasedUntil {op u} (step : Step s op s') (lease : LeaseExact ⟨s, op, s'⟩)
    (unmarked : ¬ op.Marks id) (leased : s.LeasedUntil id u) : s'.LeasedUntil id u := by
  by_cases hclaim : ∃ now, op.Claims id now
  · obtain ⟨now, hclaim⟩ := hclaim
    have hle := le_of_claims step hclaim leased
    obtain ⟨req, locked, returned, rfl, hret⟩ := hclaim
    obtain ⟨j, hj, hrun, hlock⟩ := step.leasedUntil_of_claims hret
    refine ⟨j, _, hj, hrun, hlock, ?_⟩
    obtain ⟨-, -, spec⟩ := step.claim_inv
    have hne : returned ≠ [] := by
      obtain ⟨k, hk, -⟩ := hret
      exact List.ne_nil_of_mem hk
    rcases lease req now locked returned rfl with hnone | hlim | hwhole
    · exact absurd (spec.empty_iff.mpr (Or.inl hnone)) hne
    · exact absurd (spec.empty_iff.mpr (Or.inr hlim)) hne
    · exact le_trans hle (le_add_of_nonneg_right (lease_nonneg hwhole))
  · obtain ⟨j, v, hj, hrest⟩ := leased
    refine ⟨j, v, step.frame hj ?_ ?_, hrest⟩
    · rintro req now locked returned rfl k hk hid
      exact hclaim ⟨now, req, locked, returned, rfl, k, hk, hid⟩
    · rintro m now rfl hid
      exact unmarked ⟨m, now, rfl, hid⟩

/-- A claim is correct exactly when its lease has the documented length. -/
lemma claimCorrect_iff {op} (step : Step s op s') :
    ClaimCorrect ⟨s, op, s'⟩ ↔ LeaseExact ⟨s, op, s'⟩ := by
  constructor
  · rintro correct req now locked returned rfl
    obtain ⟨-, -, spec⟩ := step.claim_inv
    obtain ⟨-, -, hret, -⟩ := correct req now locked returned rfl
    cases returned with
    | nil =>
      rcases spec.empty_iff.mp rfl with h | h
      · exact Or.inl h
      · exact Or.inr (Or.inl h)
    | cons j js =>
      obtain ⟨-, -, -, -, -, -, -, u, hu, hvis⟩ := hret j (by simp)
      obtain ⟨q, -, -, -, -, rfl⟩ := spec.eligible j (by simp)
      cases hu
      refine Or.inr (Or.inr (lease_exact_iff.mp ?_))
      rw [← hvis, add_sub_cancel_left]
  · rintro lease req now locked returned rfl
    obtain ⟨-, -, spec⟩ := step.claim_inv
    refine ⟨spec.length_le, spec.nodup, ?_, spec.frame⟩
    intro j hj
    have hwhole : req.visibility.Whole := by
      rcases lease req now locked returned rfl with hnone | hlim | hwhole
      · exact absurd (spec.empty_iff.mpr (Or.inl hnone)) (List.ne_nil_of_mem hj)
      · exact absurd (spec.empty_iff.mpr (Or.inr hlim)) (List.ne_nil_of_mem hj)
      · exact hwhole
    obtain ⟨q, hq, hkind, hdue, -, hjq⟩ := spec.eligible j hj
    refine ⟨q, hq, hkind, Job.isDue_iff.mp hdue, spec.written j hj, ?_⟩
    subst hjq
    refine ⟨rfl, rfl, _, rfl, ?_⟩
    rw [← lease_exact_iff.mpr hwhole, add_sub_cancel_left]

end Store.Step

/-- Claims with exact leases exclude each other. -/
lemma exclusive_of_leaseExact {s ms s'} (run : Run Store.Step s ms s')
    (lease : ∀ m ∈ ms, LeaseExact m) : Exclusive ms := by
  intro before a between b after id now now' hms hclaimA hclaimB unmarked
  subst hms
  obtain ⟨_, -, runA⟩ := run.of_append
  obtain ⟨rfl, stepA, runAB⟩ := runA.of_cons
  obtain ⟨_, runBetween, runB⟩ := runAB.of_append
  obtain ⟨rfl, stepB, -⟩ := runB.of_cons
  have claimA := hclaimA
  obtain ⟨req, locked, returned, hlabel, hret⟩ := claimA
  rw [hlabel] at stepA
  obtain ⟨j, hj, hrun, hlock⟩ := stepA.leasedUntil_of_claims hret
  -- the lease end can only have moved forward when the second claim comes
  have leased : b.pre.LeasedUntil id (now + req.lease) := by
    refine runBetween.invariant (Store.LeasedUntil id (now + req.lease))
      (fun m => LeaseExact m ∧ ¬ m.label.Marks id) ⟨j, _, hj, hrun, hlock, le_refl _⟩ ?_ ?_
    · exact fun _ _ _ step cond => step.leasedUntil cond.1 cond.2
    · exact fun m hm => ⟨lease m (by simp [hm]), unmarked m hm⟩
  exact ⟨j, _, hj, hlock, stepB.le_of_claims hclaimB leased⟩

/-- In every run, claims are exclusive and each meets its documentation, exactly when no claim that
finds an eligible row is asked for a visibility with a part below one second. -/
theorem claims_exclusive_iff {s ms s'} (run : Run Store.Step s ms s') :
    (Exclusive ms ∧ ∀ m ∈ ms, ClaimCorrect m) ↔ ∀ m ∈ ms, LeaseExact m := by
  constructor
  · rintro ⟨-, correct⟩ m hm
    exact (run.step_of_mem hm).claimCorrect_iff.mp (correct m hm)
  · intro lease
    exact ⟨exclusive_of_leaseExact run lease,
      fun m hm => (run.step_of_mem hm).claimCorrect_iff.mpr (lease m hm)⟩

/-- A claim of the only row is a step. -/
lemma claim_oneRow {j : Job} {workerId visibility now clock u} (past : now ≤ clock)
    (stmt : claimDue (oneRow j) (emailClaim workerId visibility) now [j] (fun _ => false) =
      some (oneRow (j.claimed workerId u now), [j.claimed workerId u now])) :
    Store.Step ⟨oneRow j, clock⟩
      (.claim (emailClaim workerId visibility) now (fun _ => false) [j.claimed workerId u now])
      ⟨oneRow (j.claimed workerId u now), clock⟩ :=
  .claim past (List.Perm.refl _) stmt (List.Perm.refl _)

/-- A claim for one and a half seconds leases the job for one second. -/
theorem claim_drops_half_second :
    ¬ ∀ s ms s', Run Store.Step s ms s' → Exclusive ms ∧ ∀ m ∈ ms, ClaimCorrect m := by
  intro correct
  have step := @claim_oneRow emailJob "worker-1" (Duration.fromMillis 1500) 0 0 1000000
    (le_refl _) (by decide +kernel)
  obtain ⟨-, claims⟩ := correct _ _ _ (Run.single step)
  obtain ⟨-, -, returned, -⟩ := claims _ (List.mem_singleton_self _) _ _ _ _ rfl
  obtain ⟨-, -, -, -, -, -, -, u, hu, length⟩ := returned _ (List.mem_singleton_self _)
  have hu' : u = 1000000 := (Option.some.inj hu).symm
  rw [hu'] at length
  exact absurd length (by decide)

/-- Two workers lease the job for a minute each, the second when the first lease is over. -/
theorem claims_exclusive_iff_takeover :
    ∃ ms s', Run Store.Step ⟨oneRow emailJob, 0⟩ ms s' ∧ ms.length = 3 ∧
      Exclusive ms ∧ ∀ m ∈ ms, ClaimCorrect m := by
  have first := @claim_oneRow emailJob "worker-1" (Duration.fromSecs 60) 0 0 60000000
    (le_refl _) (by decide +kernel)
  have wait : Store.Step ⟨oneRow (emailJob.claimed "worker-1" 60000000 0), 0⟩ .tick
      ⟨oneRow (emailJob.claimed "worker-1" 60000000 0), 60000000⟩ := .tick (by decide)
  have second := @claim_oneRow (emailJob.claimed "worker-1" 60000000 0) "worker-2"
    (Duration.fromSecs 60) 60000000 60000000 120000000 (le_refl _) (by decide +kernel)
  have run := Run.cons first (Run.cons wait (Run.single second))
  refine ⟨_, _, run, rfl, (claims_exclusive_iff run).mpr ?_⟩
  have whole : (Duration.fromSecs 60).Whole := by decide
  intro m hm req now locked returned hlabel
  simp only [List.mem_cons, List.not_mem_nil, or_false] at hm
  rcases hm with rfl | rfl | rfl
  · cases hlabel
    exact Or.inr (Or.inr whole)
  · cases hlabel
  · cases hlabel
    exact Or.inr (Or.inr whole)

end Egras.Jobs
