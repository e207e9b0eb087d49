import Egras.Jobs.Cluster
import Mathlib.Data.List.Perm.Subperm

/-!
# Jobs: tickets

What a step of the cluster does to the claimed jobs in the runners' hands and to the log. A runner
only loses claimed jobs (`Step.held`), except that an answered claim hands it a batch with fresh
tickets. From this follows that no ticket is held twice (`Tickets`) and that a handler is started
at most once for each ticket (`Starts`), by induction over the run.
-/

namespace Egras.Jobs
open Egras.Lib

section Log
variable {log : Uuid → JobLog} {t : JobsTable} {returned : List Job} {c : Claimed} {id : Uuid}

/-- Writing one entry of the log keeps a field of all entries when it keeps it in that entry. -/
lemma update_field {α} (f : JobLog → α) {k new} (h : f new = f (log k)) :
    f (Function.update log k new id) = f (log id) := by
  by_cases hid : id = k
  · subst hid
    rw [Function.update_self, h]
  · rw [Function.update_of_ne hid]

/-- A claim is logged for the jobs that it returns. -/
lemma logClaim_of_mem (h : ∃ j ∈ returned, j.id = id) :
    (logClaim log t returned id).claims = (log id).claims + 1 := by
  have hany : returned.any (fun j => j.id = id) = true := by simpa using h
  simp [logClaim, hany]

/-- A claim leaves the log of the other jobs alone. -/
lemma logClaim_of_not_mem (h : ∀ j ∈ returned, j.id ≠ id) :
    logClaim log t returned id = log id := by
  have hany : returned.any (fun j => j.id = id) = false := by simpa using h
  simp [logClaim, hany]

/-- A claim is no start. -/
lemma logClaim_starts : (logClaim log t returned id).starts = (log id).starts := by
  unfold logClaim
  split <;> rfl

/-- A claim is no retry. -/
lemma logClaim_retries : (logClaim log t returned id).retries = (log id).retries := by
  unfold logClaim
  split <;> rfl

/-- A claim is no late mark. -/
lemma logClaim_late : (logClaim log t returned id).late = (log id).late := by
  unfold logClaim
  split <;> rfl

/-- A claim is no success. -/
lemma logClaim_okReturned : (logClaim log t returned id).okReturned = (log id).okReturned := by
  unfold logClaim
  split <;> rfl

/-- A start is no success. -/
lemma logStart_okReturned : (logStart log c id).okReturned = (log id).okReturned :=
  update_field JobLog.okReturned rfl

/-- A mark is no claim. -/
lemma logMark_claims {s : Cluster} {m} :
    (logMark s c m id).claims = (s.log id).claims := by
  refine update_field JobLog.claims ?_
  split
  · rfl
  · split <;> rfl

/-- A mark is no start. -/
lemma logMark_starts {s : Cluster} {m} : (logMark s c m id).starts = (s.log id).starts := by
  refine update_field JobLog.starts ?_
  split
  · rfl
  · split <;> rfl

/-- A mark is no success. -/
lemma logMark_okReturned {s : Cluster} {m} :
    (logMark s c m id).okReturned = (s.log id).okReturned := by
  refine update_field JobLog.okReturned ?_
  split
  · rfl
  · split <;> rfl

/-- A mark of another job leaves the log entry of this one alone. -/
lemma logMark_of_ne {s : Cluster} {m} (h : id ≠ c.job.id) : logMark s c m id = s.log id :=
  Function.update_of_ne h _ _

end Log

namespace Cluster.Step
variable {fleet : ℕ → JobRunner} {s s' : Cluster}

/-- What a claim step does to the table. -/
lemma claim_spec {r now locked returned replied}
    (step : Step fleet s (.claim r now locked returned replied) s') :
    now ≤ s.clock ∧
      ClaimSpec s.table (fleet r).claimRequest now locked s'.table returned := by
  cases step with
  | claim polls past perm stmt order => exact ⟨past, (claimDue_spec perm stmt).perm order⟩

/-- Every step of the cluster is a step of the shared table, or does not concern it. -/
lemma store {e} (step : Step fleet s e s') :
    s.store = s'.store ∨ ∃ op, Store.Step s.store op s'.store ∧
      ∀ id req now, op = .enqueue id req now → e = .enqueue id req now := by
  cases step with
  | enqueue past stmt =>
    refine Or.inr ⟨_, .enqueue past stmt, ?_⟩
    rintro _ _ _ ⟨⟩
    rfl
  | claim polls past perm stmt order =>
    exact Or.inr ⟨_, .claim past perm stmt order, fun _ _ _ h => by cases h⟩
  | mark pos call past stmt => exact Or.inr ⟨_, .mark past stmt, fun _ _ _ h => by cases h⟩
  | tick le => exact Or.inr ⟨_, .tick le, fun _ _ _ h => by cases h⟩
  | _ => exact Or.inl rfl

/-- The clock never goes back. -/
lemma clock_le {e} (step : Step fleet s e s') : s.clock ≤ s'.clock := by
  cases step with
  | tick le => exact le
  | _ => exact le_refl _

/-- The claims of a job go up by one when a claim returns it, and stay otherwise. -/
lemma claims {e} (step : Step fleet s e s') (id : Uuid) :
    (s'.log id).claims = (s.log id).claims ∨
      ∃ r now locked returned replied, e = .claim r now locked returned replied ∧
        (∃ j ∈ returned, j.id = id) ∧ (s'.log id).claims = (s.log id).claims + 1 := by
  cases step with
  | @claim r now scan locked t rows returned replied polls past perm stmt order =>
    by_cases h : ∃ j ∈ returned, j.id = id
    · exact Or.inr ⟨r, now, locked, returned, replied, rfl, h, logClaim_of_mem h⟩
    · refine Or.inl (congrArg JobLog.claims (logClaim_of_not_mem ?_))
      exact fun j hj e => h ⟨j, hj, e⟩
  | start pos handler => exact Or.inl (update_field JobLog.claims rfl)
  | finish pos => exact Or.inl (update_field JobLog.claims rfl)
  | mark pos call past stmt => exact Or.inl logMark_claims
  | _ => exact Or.inl rfl

/-- No step takes a claim back. -/
lemma claims_le {e} (step : Step fleet s e s') (id : Uuid) :
    (s.log id).claims ≤ (s'.log id).claims := by
  rcases step.claims id with h | ⟨_, _, _, _, _, -, -, h⟩ <;> omega

/-- A runner only loses claimed jobs, unless an answered claim hands it a fresh batch. -/
lemma held {e} (step : Step fleet s e s') (r : ℕ) :
    ((s'.runner r).held.Sublist (s.runner r).held ∧
      (s'.runner r).waiting.Sublist (s.runner r).waiting) ∨
    ∃ now locked returned, e = .claim r now locked returned true ∧ s.runner r = .polling ∧
      (s'.runner r).held = claimedBatch s.log now returned ∧
      (s'.runner r).waiting = claimedBatch s.log now returned := by
  have other {r' st} (old : RunnerState) (hold : s.runner r' = old)
      (hh : st.held.Sublist old.held) (hw : st.waiting.Sublist old.waiting) :
      (Function.update s.runner r' st r).held.Sublist (s.runner r).held ∧
        (Function.update s.runner r' st r).waiting.Sublist (s.runner r).waiting := by
    by_cases hr : r = r'
    · subst hr
      rw [Function.update_self, hold]
      exact ⟨hh, hw⟩
    · rw [Function.update_of_ne hr]
      exact ⟨List.Sublist.refl _, List.Sublist.refl _⟩
  cases step with
  | @claim r' now scan locked t rows returned replied polls past perm stmt order =>
    cases replied with
    | false => exact Or.inl (other _ polls (List.Sublist.refl _) (List.Sublist.refl _))
    | true =>
      by_cases hr : r = r'
      · subst hr
        refine Or.inr ⟨now, locked, returned, rfl, polls, ?_, ?_⟩
        · simp
        · simp
      · refine Or.inl ?_
        simp only [Function.update_of_ne hr]
        exact ⟨List.Sublist.refl _, List.Sublist.refl _⟩
  | start pos handler =>
    exact Or.inl (other _ pos (List.Sublist.refl _) (List.sublist_cons_self _ _))
  | skip pos noHandler =>
    exact Or.inl (other _ pos (List.Sublist.refl _) (List.sublist_cons_self _ _))
  | finish pos => exact Or.inl (other _ pos (List.Sublist.refl _) (List.Sublist.refl _))
  | mark pos call past stmt =>
    refine Or.inl (other _ pos ?_ ?_)
    · rw [RunnerState.held_ofBatch]
      exact List.sublist_cons_self _ _
    · rw [RunnerState.waiting_ofBatch]
      exact List.Sublist.refl _
  | markFailed pos call =>
    refine Or.inl (other _ pos ?_ ?_)
    · rw [RunnerState.held_ofBatch]
      exact List.sublist_cons_self _ _
    · rw [RunnerState.waiting_ofBatch]
      exact List.Sublist.refl _
  | crash => exact Or.inl (other _ rfl (List.nil_sublist _) (List.nil_sublist _))
  | _ => exact Or.inl ⟨List.Sublist.refl _, List.Sublist.refl _⟩

end Cluster.Step

/-- Held tickets were handed out, and none is held twice. -/
structure Tickets (s : Cluster) : Prop where
  range : ∀ r, ∀ c ∈ (s.runner r).held, 0 < c.ticket ∧ c.ticket ≤ (s.log c.job.id).claims
  nodup : ∀ r, ((s.runner r).held.map Claimed.key).Nodup
  disjoint : ∀ r r', r ≠ r' → ∀ c ∈ (s.runner r).held, ∀ c' ∈ (s.runner r').held, c.key ≠ c'.key

/-- Two held claims with one key are held by the same runner. -/
lemma Tickets.runner_eq {s : Cluster} (tickets : Tickets s) {r r' c c'}
    (hc : c ∈ (s.runner r).held) (hc' : c' ∈ (s.runner r').held) (e : c.key = c'.key) : r = r' := by
  by_contra hr
  exact tickets.disjoint r r' hr c hc c' hc' e

/-- A claimed job that is not superseded carries the latest ticket. -/
lemma Tickets.latest {s : Cluster} (tickets : Tickets s) {r c} (hc : c ∈ (s.runner r).held)
    (hsup : ¬ s.superseded c) : c.ticket = (s.log c.job.id).claims := by
  have hle := (tickets.range r c hc).2
  simp only [Cluster.superseded, decide_eq_true_eq] at hsup
  omega

/-- A claimed job in a fresh batch carries the next ticket of its job. -/
lemma mem_claimedBatch {log : Uuid → JobLog} {now returned c}
    (h : c ∈ claimedBatch log now returned) :
    c.job ∈ returned ∧ c.ticket = (log c.job.id).claims + 1 ∧ c.claimedAt = now := by
  obtain ⟨j, hj, rfl⟩ := List.mem_map.mp h
  exact ⟨hj, rfl, rfl⟩

/-- A batch has every job once. -/
lemma claimedBatch_nodup {log : Uuid → JobLog} {now returned}
    (h : (returned.map Job.id).Nodup) :
    ((claimedBatch log now returned).map Claimed.key).Nodup := by
  have hfst : ((claimedBatch log now returned).map Claimed.key).map Prod.fst =
      returned.map Job.id := by
    simp [claimedBatch, Claimed.key, Function.comp_def]
  exact List.Nodup.of_map Prod.fst (hfst ▸ h)

/-- No held ticket of a job in a fresh batch equals the fresh one. -/
lemma Tickets.fresh {s : Cluster} (tickets : Tickets s) {r c c' now returned}
    (hc : c ∈ (s.runner r).held) (hc' : c' ∈ claimedBatch s.log now returned) :
    c.key ≠ c'.key := by
  intro e
  obtain ⟨hid, hticket⟩ := Prod.mk.inj e
  have hrange := (tickets.range r c hc).2
  have hnew := (mem_claimedBatch hc').2.1
  rw [hid] at hrange
  omega

/-- One step keeps the tickets apart. -/
lemma Cluster.Step.tickets {fleet s s'} {e : Event} (step : Cluster.Step fleet s e s')
    (tickets : Tickets s) : Tickets s' where
  range r c hc := by
    rcases step.held r with ⟨hsub, -⟩ | ⟨now, locked, returned, rfl, -, hheld, -⟩
    · have hold := tickets.range r c (hsub.subset hc)
      exact ⟨hold.1, le_trans hold.2 (step.claims_le _)⟩
    · rw [hheld] at hc
      obtain ⟨hret, hticket, -⟩ := mem_claimedBatch hc
      rcases step.claims c.job.id with h | ⟨_, _, _, _, _, -, -, h⟩
      · cases step with
        | claim polls past perm stmt order =>
          have hnew := @logClaim_of_mem s.log s.table returned c.job.id ⟨_, hret, rfl⟩
          rw [hticket]
          exact ⟨Nat.succ_pos _, hnew.ge⟩
      · rw [hticket, h]
        exact ⟨Nat.succ_pos _, le_refl _⟩
  nodup r := by
    rcases step.held r with ⟨hsub, -⟩ | ⟨now, locked, returned, rfl, -, hheld, -⟩
    · exact (hsub.map _).nodup (tickets.nodup r)
    · rw [hheld]
      exact claimedBatch_nodup step.claim_spec.2.nodup
  disjoint r r' hr c hc c' hc' := by
    rcases step.held r with ⟨hsub, -⟩ | ⟨now, locked, returned, rfl, -, hheld, -⟩
    · rcases step.held r' with ⟨hsub', -⟩ | ⟨now, locked, returned, rfl, -, hheld', -⟩
      · exact tickets.disjoint r r' hr c (hsub.subset hc) c' (hsub'.subset hc')
      · exact tickets.fresh (hsub.subset hc) (hheld' ▸ hc')
    · rcases step.held r' with ⟨hsub', -⟩ | ⟨now', locked', returned', e, -, -, -⟩
      · exact (tickets.fresh (hsub'.subset hc') (hheld ▸ hc)).symm
      · cases e
        exact absurd rfl hr

/-- A handler was started under handed-out tickets, under each at most once, and under none of a
job that still waits for its dispatch. -/
structure Starts (s : Cluster) : Prop where
  nodup : ∀ id, (s.log id).starts.Nodup
  range : ∀ id, ∀ k ∈ (s.log id).starts, 0 < k ∧ k ≤ (s.log id).claims
  fresh : ∀ r, ∀ c ∈ (s.runner r).waiting, c.ticket ∉ (s.log c.job.id).starts

/-- The log of starts grows only by the start of a waiting job's handler. -/
lemma Cluster.Step.starts_log {fleet s s'} {e : Event} (step : Cluster.Step fleet s e s')
    (id : Uuid) :
    (s'.log id).starts = (s.log id).starts ∨
      ∃ r c rest, e = .start r ∧ s.runner r = .dispatching (c :: rest) ∧
        s'.runner = Function.update s.runner r (.handling c s.clock rest) ∧ c.job.id = id ∧
        (s'.log id).starts = (s.log id).starts ++ [c.ticket] := by
  cases step with
  | claim polls past perm stmt order => exact Or.inl logClaim_starts
  | @start r c rest pos handler =>
    by_cases hid : id = c.job.id
    · subst hid
      refine Or.inr ⟨r, c, rest, rfl, pos, rfl, rfl, ?_⟩
      simp [logStart]
    · refine Or.inl ?_
      simp [logStart, Function.update_of_ne hid]
  | finish pos => exact Or.inl (update_field JobLog.starts rfl)
  | mark pos call past stmt => exact Or.inl logMark_starts
  | _ => exact Or.inl rfl

/-- One step starts a handler under a fresh ticket if at all. -/
lemma Cluster.Step.starts {fleet s s'} {e : Event} (step : Cluster.Step fleet s e s')
    (tickets : Tickets s) (starts : Starts s) : Starts s' where
  nodup id := by
    rcases step.starts_log id with h | ⟨r, c, rest, -, pos, -, rfl, h⟩
    · rw [h]
      exact starts.nodup id
    · have hfresh := starts.fresh r c (by simp [pos, RunnerState.waiting])
      rw [h]
      exact (starts.nodup _).append (List.nodup_singleton _) (by simpa using hfresh)
  range id k hk := by
    have hclaims := step.claims_le id
    rcases step.starts_log id with h | ⟨r, c, rest, -, pos, -, rfl, h⟩
    · rw [h] at hk
      have hold := starts.range id k hk
      exact ⟨hold.1, le_trans hold.2 hclaims⟩
    · rw [h] at hk
      rcases List.mem_append.mp hk with hk | hk
      · have hold := starts.range _ k hk
        exact ⟨hold.1, le_trans hold.2 hclaims⟩
      · cases List.mem_singleton.mp hk
        have hheld := tickets.range r c (by simp [pos, RunnerState.held])
        exact ⟨hheld.1, le_trans hheld.2 hclaims⟩
  fresh r c hc := by
    rcases step.starts_log c.job.id with h | ⟨r', c', rest, rfl, pos, hrunner, hid, h⟩
    · rw [h]
      rcases step.held r with ⟨-, hsub⟩ | ⟨now, locked, returned, -, -, -, hwaiting⟩
      · exact starts.fresh r c (hsub.subset hc)
      · -- a fresh ticket is above all tickets handed out before
        intro hmem
        have hnew := (mem_claimedBatch (hwaiting ▸ hc)).2.1
        have hold := (starts.range _ _ hmem).2
        omega
    · have hheld' : c' ∈ (s.runner r').held := by simp [pos, RunnerState.held]
      rw [h]
      intro hmem
      rcases List.mem_append.mp hmem with hmem | hmem
      · rcases step.held r with ⟨-, hsub⟩ | ⟨_, _, _, e, -⟩
        · exact starts.fresh r c (hsub.subset hc) hmem
        · cases e
      · have hkey : c.key = c'.key := Prod.ext hid.symm (List.mem_singleton.mp hmem)
        rw [hrunner] at hc
        by_cases hr : r = r'
        · subst hr
          rw [Function.update_self] at hc
          -- what a runner holds has different tickets
          have hnodup := tickets.nodup r
          simp only [pos, RunnerState.held, List.map_cons, List.nodup_cons] at hnodup
          exact hnodup.1 (hkey ▸ List.mem_map_of_mem hc)
        · rw [Function.update_of_ne hr] at hc
          exact hr (tickets.runner_eq (RunnerState.waiting_sublist.subset hc) hheld' hkey)

section Run
variable {fleet : ℕ → JobRunner} {s s' : Cluster} {ms : List (Move Cluster Event)}

/-- At the start nothing has been claimed. -/
lemma Cluster.Initial.tickets (init : s.Initial) : Tickets s where
  range r c hc := by simp [init.runner r, RunnerState.held] at hc
  nodup r := by simp [init.runner r, RunnerState.held]
  disjoint r _ _ c hc := by simp [init.runner r, RunnerState.held] at hc

/-- At the start nothing has been started. -/
lemma Cluster.Initial.starts (init : s.Initial) : Starts s where
  nodup id := by simp [init.log id, JobLog.empty]
  range id k hk := by simp [init.log id, JobLog.empty] at hk
  fresh r c hc := by simp [init.runner r, RunnerState.waiting] at hc

/-- In every run no ticket is held twice and no handler started twice under one ticket. -/
lemma tickets_of_run (init : s.Initial) (run : Run (Cluster.Step fleet) s ms s') :
    Tickets s' ∧ Starts s' :=
  run.invariant (fun s => Tickets s ∧ Starts s) (fun _ => True) ⟨init.tickets, init.starts⟩
    (fun _ _ _ step _ inv => ⟨step.tickets inv.1, step.starts inv.1 inv.2⟩) (fun _ _ => trivial)

/-- A job's handler is started at most once for each claim of the job. -/
lemma Starts.length_le (starts : Starts s) (id : Uuid) :
    (s.log id).starts.length ≤ (s.log id).claims := by
  have hsub : (s.log id).starts ⊆ (List.range (s.log id).claims).map Nat.succ := by
    intro k hk
    obtain ⟨hpos, hle⟩ := starts.range id k hk
    exact List.mem_map.mpr ⟨k - 1, List.mem_range.mpr (by omega), by omega⟩
  simpa using (List.subperm_of_subset (starts.nodup id) hsub).length_le

end Run
end Egras.Jobs
