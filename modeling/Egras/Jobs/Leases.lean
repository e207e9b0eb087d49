import Egras.Jobs.Tickets

/-!
# Jobs: leases

What a runner knows of the jobs in its hands. The row as it was claimed is running, locked by the
runner until the end of its lease (`Snapshot`). As long as no other claim has returned the job, the
table still holds exactly this row (`Leases`), provided that no runner whose lease was taken over
writes a mark that changes it (`MarkFenced`): this is the only way in which a row can change behind
the back of the runner that holds its latest ticket.
-/

namespace Egras.Jobs
open Egras.Lib

/-- The length of the leases a runner gets. -/
def JobRunner.lease (runner : JobRunner) : Int := runner.claimRequest.lease

/-- Two log entries count the same claims and marks. -/
structure JobLog.SameCounts (l l' : JobLog) : Prop where
  claims : l'.claims = l.claims
  takeovers : l'.takeovers = l.takeovers
  retries : l'.retries = l.retries
  late : l'.late = l.late

/-- The same log has the same counts. -/
lemma JobLog.SameCounts.refl {l : JobLog} : l.SameCounts l := ⟨rfl, rfl, rfl, rfl⟩

/-- An entry with the same counts leaves the counts of all jobs. -/
lemma JobLog.SameCounts.update {log : Uuid → JobLog} {k id : Uuid} {new : JobLog}
    (h : (log k).SameCounts new) : (log id).SameCounts (Function.update log k new id) :=
  ⟨update_field _ h.claims, update_field _ h.takeovers, update_field _ h.retries,
    update_field _ h.late⟩

namespace Cluster.Step
variable {fleet : ℕ → JobRunner} {s s' : Cluster}

/-- What a mark step can do. -/
lemma mark_inv {r m now executed} (step : Step fleet s (.mark r m now executed) s') :
    ∃ c startedAt outcome rest utcNow, s.runner r = .marking c startedAt outcome rest ∧
      dispatchMark (fleet r) c.job outcome utcNow = some m ∧
      s'.runner = Function.update s.runner r (.ofBatch rest) ∧ s'.clock = s.clock ∧
      ((executed = true ∧ now ≤ s.clock ∧ m.exec s.table now = some s'.table ∧
          s'.log = logMark s c m) ∨
        (executed = false ∧ s'.table = s.table ∧ s'.log = s.log)) := by
  cases step with
  | mark pos call past stmt =>
    exact ⟨_, _, _, _, _, pos, call, rfl, rfl, Or.inl ⟨rfl, past, stmt, rfl⟩⟩
  | markFailed pos call => exact ⟨_, _, _, _, _, pos, call, rfl, rfl, Or.inr ⟨rfl, rfl, rfl⟩⟩

/-- What a start step can do. -/
lemma start_inv {r} (step : Step fleet s (.start r) s') :
    ∃ c rest, s.runner r = .dispatching (c :: rest) ∧
      c.job.kind ∈ (fleet r).registeredKinds ∧
      s' = { s.setRunner r (.handling c s.clock rest) with log := logStart s.log c } := by
  cases step with
  | start pos handler => exact ⟨_, _, pos, handler, rfl⟩

/-- What one step can do to a row and to its log: nothing, a claim, or a mark about it. -/
lemma row {e id j} (step : Step fleet s e s') (hj : s.table.find? id = some j) :
    (s'.table.find? id = some j ∧ (s.log id).SameCounts (s'.log id)) ∨
    (∃ r now locked returned replied, e = .claim r now locked returned replied ∧
      now ≤ s.clock ∧ j.isDue now ∧ (∃ k ∈ returned, k.id = id) ∧
      s'.table.find? id = some (j.claimed (fleet r).workerId (now + (fleet r).lease) now) ∧
      s'.log id = logClaim s.log s.table returned id) ∨
    (∃ r m now c startedAt, e = .mark r m now true ∧ m.id = id ∧
      (s.runner r).current = some (c, startedAt) ∧ c.job.id = id ∧
      s'.table.find? id = some (m.apply now j) ∧ s'.log = logMark s c m) := by
  cases e with
  | enqueue id' req now =>
    cases step with
    | enqueue past stmt =>
      -- the new row has another identifier
      have fresh := (Table.insert?_eq_some stmt).1 j (Table.find?_eq_some.mp hj).1
      have hid := (Table.find?_eq_some.mp hj).2
      refine Or.inl ⟨?_, .refl⟩
      rw [Table.find?_insert? stmt, if_neg (fun e => fresh (hid.trans e.symm)), hj]
  | claim r now locked returned replied =>
    obtain ⟨past, spec⟩ := step.claim_spec
    have hlog : s'.log = logClaim s.log s.table returned := by
      cases step
      rfl
    by_cases h : ∃ k ∈ returned, k.id = id
    · -- the claim wrote the row that it returned
      have hret := h
      obtain ⟨k, hk, rfl⟩ := h
      obtain ⟨q, hq, -, hdue, -, hkq⟩ := spec.eligible k hk
      rw [hj] at hq
      cases hq
      have hwritten := spec.written k hk
      rw [hkq] at hwritten
      exact Or.inr (Or.inl ⟨r, now, locked, returned, replied, rfl, past, hdue, hret,
        hkq ▸ hwritten, congrFun hlog _⟩)
    · have hnot : ∀ k ∈ returned, k.id ≠ id := fun k hk e => h ⟨k, hk, e⟩
      refine Or.inl ⟨?_, ?_⟩
      · rw [spec.frame id hnot, hj]
      · rw [hlog, logClaim_of_not_mem hnot]
        exact .refl
  | mark r m now executed =>
    obtain ⟨c, startedAt, _, _, _, pos, call, -, -, ⟨rfl, -, stmt, hlog⟩ | ⟨-, htable, hlog⟩⟩ :=
      step.mark_inv
    · have hc := dispatchMark_id call
      by_cases hid : m.id = id
      · subst hid
        refine Or.inr (Or.inr ⟨r, m, now, c, startedAt, rfl, rfl, ?_, hc.symm, ?_, hlog⟩)
        · rw [pos]
          rfl
        · rw [Mark.exec_find?_self stmt, hj]
          rfl
      · refine Or.inl ⟨?_, ?_⟩
        · rw [Mark.exec_find?_ne stmt (Ne.symm hid), hj]
        · rw [hlog, logMark_of_ne (hc ▸ Ne.symm hid)]
          exact .refl
    · -- the statement failed
      refine Or.inl ⟨?_, ?_⟩
      · rw [htable, hj]
      · rw [hlog]
        exact .refl
  | start r =>
    cases step
    exact Or.inl ⟨hj, .update ⟨rfl, rfl, rfl, rfl⟩⟩
  | skip r =>
    cases step
    exact Or.inl ⟨hj, .refl⟩
  | finish r handled =>
    cases step
    exact Or.inl ⟨hj, .update ⟨rfl, rfl, rfl, rfl⟩⟩
  | crash r =>
    cases step
    exact Or.inl ⟨hj, .refl⟩
  | tick clock =>
    cases step
    exact Or.inl ⟨hj, .refl⟩

end Cluster.Step

/-- The row as claimed is running and locked by its runner for the length of a lease. -/
structure Snapshot (runner : JobRunner) (c : Claimed) : Prop where
  running : c.job.state = .running
  lockedUntil : c.job.lockedUntil = some (c.claimedAt + runner.lease)
  lockedBy : c.job.lockedBy = some runner.workerId
  kind : c.job.kind ∈ runner.registeredKinds

/-- All held jobs were claimed by their runner. -/
def Snapshots (fleet : ℕ → JobRunner) (s : Cluster) : Prop :=
  ∀ r, ∀ c ∈ (s.runner r).held, Snapshot (fleet r) c

/-- A fresh batch consists of rows claimed by the runner. -/
lemma snapshot_of_batch {runner : JobRunner} {t t' now locked returned} {log : Uuid → JobLog} {c}
    (spec : ClaimSpec t runner.claimRequest now locked t' returned)
    (h : c ∈ claimedBatch log now returned) : Snapshot runner c := by
  obtain ⟨hret, -, hat⟩ := mem_claimedBatch h
  obtain ⟨q, -, hkind, -, -, hjob⟩ := spec.eligible c.job hret
  refine ⟨?_, ?_, ?_, ?_⟩
  · rw [hjob]
    rfl
  · rw [hjob, hat]
    rfl
  · rw [hjob]
    rfl
  · rw [hjob]
    exact hkind

/-- Every step keeps the snapshots true. -/
lemma Cluster.Step.snapshots {fleet s s'} {e : Event} (step : Cluster.Step fleet s e s')
    (inv : Snapshots fleet s) : Snapshots fleet s' := by
  intro r c hc
  rcases step.held r with ⟨hsub, -⟩ | ⟨now, locked, returned, rfl, -, hheld, -⟩
  · exact inv r c (hsub.subset hc)
  · rw [hheld] at hc
    exact snapshot_of_batch step.claim_spec.2 hc

/-- The mark would write the values that the row has already. -/
def Mark.Idle (t : JobsTable) (now : Timestamp) (m : Mark) : Prop :=
  ∀ j, t.find? m.id = some j →
    m = .done m.id ∧ j.state = .done ∧ j.lockedUntil = none ∧ j.lockedBy = none ∧
      j.updatedAt = now

/-- A mark keeps the row it is about exactly when it is idle. -/
lemma Mark.apply_eq_self {m : Mark} {now j} :
    m.apply now j = j ↔ m = .done m.id ∧ j.state = .done ∧ j.lockedUntil = none ∧
      j.lockedBy = none ∧ j.updatedAt = now := by
  constructor
  · intro h
    cases m with
    | done id =>
      rw [← h]
      exact ⟨rfl, rfl, rfl, rfl, rfl⟩
    | failedRetry id error next =>
      have hattempts : j.attempts + 1 = j.attempts := congrArg Job.attempts h
      omega
    | dead id error =>
      have hattempts : j.attempts + 1 = j.attempts := congrArg Job.attempts h
      omega
  · rintro ⟨hm, hs, hu, hb, hn⟩
    rw [hm]
    cases j
    simp only at hs hu hb hn
    subst hs hu hb hn
    rfl

/-- A written mark leaves the table as it was exactly when it is idle. -/
lemma Mark.idle_iff {t t' : JobsTable} {m : Mark} {now} (h : m.exec t now = some t') :
    t'.find? m.id = t.find? m.id ↔ m.Idle t now := by
  rw [Mark.exec_find?_self h]
  cases hf : t.find? m.id with
  | none => simp [Mark.Idle, hf]
  | some j => simp [Mark.Idle, hf, ← Mark.apply_eq_self]

/-- If the step writes a mark of a runner whose lease has been taken over, the mark is idle. -/
def MarkFenced (mv : Move Cluster Event) : Prop :=
  ∀ r m now c startedAt, mv.label = .mark r m now true →
    (mv.pre.runner r).current = some (c, startedAt) → mv.pre.superseded c →
    m.Idle mv.pre.table now

/-- The table holds a job as it was claimed, as long as its claim is the latest. -/
def Leases (s : Cluster) : Prop :=
  ∀ r, ∀ c ∈ (s.runner r).held, c.ticket = (s.log c.job.id).claims →
    s.table.find? c.job.id = some c.job

/-- A marked job leaves the hands of its runner. -/
lemma Tickets.ne_of_marked {fleet s s'} {r m now executed c c' startedAt} (tickets : Tickets s)
    (step : Cluster.Step fleet s (.mark r m now executed) s')
    (hcurrent : (s.runner r).current = some (c', startedAt)) (hc : c ∈ (s'.runner r).held) :
    c.key ≠ c'.key := by
  obtain ⟨_, _, _, _, _, pos, -, hrunner, -⟩ := step.mark_inv
  have hnodup := tickets.nodup r
  rw [pos] at hcurrent hnodup
  cases hcurrent
  rw [hrunner, Function.update_self, RunnerState.held_ofBatch] at hc
  intro hkey
  exact (List.nodup_cons.mp hnodup).1 (hkey ▸ List.mem_map_of_mem hc)

/-- One step keeps the rows of the latest claims, if its mark is fenced. -/
lemma Cluster.Step.leases {fleet s s'} {e : Event} (step : Cluster.Step fleet s e s')
    (tickets : Tickets s) (fenced : MarkFenced ⟨s, e, s'⟩) (inv : Leases s) : Leases s' := by
  intro r c hc hlatest
  rcases step.held r with ⟨hsub, -⟩ | ⟨now, locked, returned, rfl, -, hheld, -⟩
  · have hc₀ := hsub.subset hc
    have hrange := (tickets.range r c hc₀).2
    have hlatest₀ : c.ticket = (s.log c.job.id).claims :=
      le_antisymm hrange (hlatest ▸ step.claims_le _)
    have hrow := inv r c hc₀ hlatest₀
    rcases step.row hrow with ⟨h, -⟩ | ⟨r', now, locked, returned, replied, rfl, -, -, hret, -, hlog⟩ |
      ⟨r', m, now, c', startedAt, rfl, hid, hcurrent, hid', hmark, -⟩
    · exact h
    · -- the claim has handed out a later ticket
      rw [hlog, logClaim_of_mem hret] at hlatest
      omega
    · have hheld' := RunnerState.mem_held_of_current hcurrent
      by_cases hsup : s.superseded c'
      · have hidle := fenced r' m now c' startedAt rfl hcurrent hsup
        rw [hmark, Mark.apply_eq_self.mpr (hidle c.job (hid ▸ hrow))]
      · -- the marking runner would hold the same ticket
        have hlatest' : c'.ticket = c.ticket := by
          rw [tickets.latest hheld' hsup, hid', hlatest₀]
        have hkey : c.key = c'.key := Prod.ext hid'.symm hlatest'.symm
        have hr := tickets.runner_eq hc₀ hheld' hkey
        subst hr
        exact absurd hkey (tickets.ne_of_marked step hcurrent hc)
  · rw [hheld] at hc
    exact step.claim_spec.2.written _ (mem_claimedBatch hc).1

section Run
variable {fleet : ℕ → JobRunner} {s s' : Cluster} {ms : List (Move Cluster Event)}

/-- At the start there are no snapshots. -/
lemma Cluster.Initial.snapshots (init : s.Initial) : Snapshots fleet s := by
  intro r c hc
  simp [init.runner r, RunnerState.held] at hc

/-- At the start there are no leases. -/
lemma Cluster.Initial.leases (init : s.Initial) : Leases s := by
  intro r c hc
  simp [init.runner r, RunnerState.held] at hc

/-- What holds of every state of a run whose marks are fenced. -/
structure Fenced (fleet : ℕ → JobRunner) (s : Cluster) : Prop where
  tickets : Tickets s
  snapshots : Snapshots fleet s
  leases : Leases s

/-- At the start nothing is marked. -/
lemma Cluster.Initial.fenced (init : s.Initial) : Fenced fleet s :=
  ⟨init.tickets, init.snapshots, init.leases⟩

/-- A step whose mark is fenced keeps what the fences give. -/
lemma Cluster.Step.fenced {e : Event} (step : Cluster.Step fleet s e s')
    (cond : MarkFenced ⟨s, e, s'⟩) (inv : Fenced fleet s) : Fenced fleet s' :=
  ⟨step.tickets inv.tickets, step.snapshots inv.snapshots,
    step.leases inv.tickets cond inv.leases⟩

/-- Every move of a run whose marks are fenced starts in a fenced state. -/
lemma fenced_of_run (init : s.Initial) (run : Run (Cluster.Step fleet) s ms s')
    (cond : ∀ m ∈ ms, MarkFenced m) :
    ∀ m ∈ ms, Cluster.Step fleet m.pre m.label m.post ∧ Fenced fleet m.pre :=
  run.forall_moves (Fenced fleet) MarkFenced init.fenced (fun _ _ _ step c inv => step.fenced c inv)
    cond

end Run
end Egras.Jobs
