import Egras.Jobs.Store
import Egras.Lib.Charging

/-!
# Jobs: how long a job waits

`claim_due` takes eligible jobs by `run_at`, so that a claim which could have taken a job and does not
has returned a full batch of jobs that were to run no later (`claimDue_earliest`). A job that waits
can therefore be passed over only while others are before it. Each of these was there at the start
(`ahead`), or it came before the job later (`overtakes`): it was enqueued or retried with an earlier
`run_at`, or its lease ran out and it was claimed again, as a claim leaves `run_at` as it is.
-/

namespace Egras.Jobs
open Egras.Lib

/-- Two jobs are due in one order or the other. -/
instance : Std.Total (fun j k : Job => j.runAt ≤ k.runAt) := ⟨fun j k => le_total j.runAt k.runAt⟩

/-- The order in which jobs are due is transitive. -/
instance : IsTrans Job (fun j k : Job => j.runAt ≤ k.runAt) := ⟨fun _ _ _ => le_trans⟩

/-- A claim that leaves out an eligible job returns a full batch of jobs that run no later. -/
lemma claimDue_earliest {t t' : JobsTable} {req now scan locked returned j}
    (perm : scan.Perm t.rows) (h : claimDue t req now scan locked = some (t', returned)) (hj : j ∈ t)
    (eligible : req.eligible now locked j = true) (left : ∀ k ∈ returned, k.id ≠ j.id) :
    returned.length = req.limit ∧ ∀ k ∈ returned, k.runAt ≤ j.runAt := by
  unfold claimDue at h
  split at h
  · rename_i hkinds
    rw [ClaimRequest.eligible, List.isEmpty_iff.mp hkinds] at eligible
    cases eligible
  · simp only at h
    split at h
    · cases h
    · obtain ⟨-, rfl⟩ := Prod.mk.inj (Option.some.inj h)
      have hmem : j ∈ scan.filter (req.eligible now locked) :=
        List.mem_filter.mpr ⟨perm.mem_iff.mpr hj, eligible⟩
      have hnot : j ∉ dueJobs req now scan locked :=
        fun hdue => left _ (List.mem_map_of_mem hdue) rfl
      obtain ⟨hlength, hearlier⟩ := take_insertionSort hmem hnot
      refine ⟨?_, ?_⟩
      · rw [List.length_map]
        exact hlength
      · intro k hk
        obtain ⟨q, hq, rfl⟩ := List.mem_map.mp hk
        exact hearlier q hq

/-- A claim step that leaves out an eligible job has returned a full batch of jobs that run no
later. -/
lemma Store.Step.earliest {s s' : Store} {req now locked returned j}
    (step : Store.Step s (.claim req now locked returned) s') (hj : j ∈ s.table)
    (eligible : req.eligible now locked j = true) (left : ∀ k ∈ returned, k.id ≠ j.id) :
    returned.length = req.limit ∧ ∀ k ∈ returned, k.runAt ≤ j.runAt := by
  cases step with
  | claim past perm stmt order =>
    have hrows := claimDue_earliest perm stmt hj eligible fun k hk => left k (order.mem_iff.mpr hk)
    exact ⟨order.length_eq.trans hrows.1, fun k hk => hrows.2 k (order.mem_iff.mp hk)⟩

/-- The jobs that wait to run no later than a job. -/
def ahead (j : Job) (t : JobsTable) : List Job :=
  t.select (fun k => k.id ≠ j.id && k.state = .pending && k.runAt ≤ j.runAt)

/-- The jobs ahead are the other pending ones that are due no later. -/
lemma mem_ahead {j k : Job} {t : JobsTable} :
    k ∈ ahead j t ↔ k ∈ t ∧ k.id ≠ j.id ∧ k.state = .pending ∧ k.runAt ≤ j.runAt := by
  simp [ahead, and_assoc]

/-- Every job is ahead once. -/
lemma nodup_ahead {j : Job} {t : JobsTable} : ((ahead j t).map Job.id).Nodup :=
  (List.filter_sublist.map Job.id).nodup t.nodup

/-- The returned jobs that another claim had before. -/
def reclaimed (t : JobsTable) (returned : List Job) : List Job :=
  returned.filter (fun k => t.any (fun q => q.id = k.id && q.state = .running))

/-- The jobs that come before a job in a move: new ones and retried ones that run no later, and those
that are claimed again. -/
def overtakes (j : Job) (m : Move Store Op) : ℕ :=
  match m.label with
  | .enqueue _ req _ => if req.runAt ≤ j.runAt then 1 else 0
  | .claim _ _ _ returned => (reclaimed m.pre.table returned).length
  | .mark (.failedRetry _ _ nextRunAt) _ => if nextRunAt ≤ j.runAt then 1 else 0
  | _ => 0

/-- How many jobs a claim takes that could have taken the job. -/
def passedBy (j : Job) (m : Move Store Op) : ℕ :=
  match m.label with
  | .claim req now locked _ => if req.eligible now locked j then req.limit else 0
  | _ => 0

/-- The move neither claims nor marks the job. -/
def LeavesWaiting (j : Job) (m : Move Store Op) : Prop :=
  (∀ req now locked returned, m.label = .claim req now locked returned → ∀ k ∈ returned, k.id ≠ j.id) ∧
    ∀ mk now, m.label = .mark mk now → mk.id ≠ j.id

section Pays
variable {s s' : Store} {j : Job}

/-- A claim takes jobs from before the job, or claims them again. -/
lemma Store.Step.claim_pays {req now locked returned}
    (step : Store.Step s (.claim req now locked returned) s') (hj : j ∈ s.table)
    (left : ∀ k ∈ returned, k.id ≠ j.id) :
    (ahead j s'.table).length + (if req.eligible now locked j then req.limit else 0) ≤
      (ahead j s.table).length + (reclaimed s.table returned).length := by
  obtain ⟨-, -, spec⟩ := step.claim_inv
  -- whoever still waits has not been returned
  have hwaits : ∀ k ∈ ahead j s'.table, k ∈ ahead j s.table ∧ ∀ q ∈ returned, q.id ≠ k.id := by
    intro k hk
    obtain ⟨hmem, hne, hpending, hle⟩ := mem_ahead.mp hk
    have hnot : ∀ q ∈ returned, q.id ≠ k.id := by
      intro q hq hid
      have hwritten := spec.written q hq
      rw [hid, Table.find?_key hmem] at hwritten
      cases hwritten
      obtain ⟨p, -, -, -, -, hclaimed⟩ := spec.eligible k hq
      rw [hclaimed] at hpending
      cases hpending
    have hsame := spec.frame k.id hnot
    rw [Table.find?_key hmem] at hsame
    exact ⟨mem_ahead.mpr ⟨(Table.find?_eq_some.mp hsame.symm).1, hne, hpending, hle⟩, hnot⟩
  by_cases eligible : req.eligible now locked j = true
  · obtain ⟨hfull, hearlier⟩ := step.earliest hj eligible left
    rw [if_pos eligible, ← hfull]
    -- of the returned jobs those that waited are gone from before the job
    have hsplit := List.length_eq_length_filter_add (l := returned)
      fun k => s.table.any (fun q => q.id = k.id && q.state = .running)
    have htaken : (ahead j s'.table ++ returned.filter
        (fun k => !s.table.any (fun q => q.id = k.id && q.state = .running))).length ≤
          (ahead j s.table).length := by
      refine length_le_of_keys (f := Job.id) (g := Job.id) ?_ ?_
      · rw [List.map_append]
        apply nodup_ahead.append ((List.filter_sublist.map Job.id).nodup spec.nodup)
        intro id hid hid'
        obtain ⟨k, hk, rfl⟩ := List.mem_map.mp hid
        obtain ⟨q, hq, hqk⟩ := List.mem_map.mp hid'
        exact (hwaits k hk).2 q (List.mem_filter.mp hq).1 hqk
      · intro k hk
        rcases List.mem_append.mp hk with hk | hk
        · exact ⟨k, (hwaits k hk).1, rfl⟩
        · obtain ⟨hret, hnot⟩ := List.mem_filter.mp hk
          obtain ⟨q, hq, -, hdue, -, hclaimed⟩ := spec.eligible k hret
          obtain ⟨hmem, hid⟩ := Table.find?_eq_some.mp hq
          have hle : q.runAt ≤ j.runAt := by
            have hk := hearlier k hret
            rw [hclaimed] at hk
            exact hk
          have hpending : q.state = .pending := by
            rcases Job.isDue_iff.mp hdue with ⟨hpending, -⟩ | ⟨hrunning, -⟩
            · exact hpending
            · have hany : s.table.any (fun q => q.id = k.id && q.state = .running) = true :=
                Table.any_eq_true.mpr ⟨q, hmem, by simp [hid, hrunning]⟩
              rw [hany] at hnot
              cases hnot
          exact ⟨q, mem_ahead.mpr ⟨hmem, hid ▸ left k hret, hpending, hle⟩, hid⟩
    rw [List.length_append] at htaken
    unfold reclaimed
    omega
  · rw [if_neg eligible]
    have hfewer : (ahead j s'.table).length ≤ (ahead j s.table).length :=
      length_le_of_keys (f := Job.id) (g := Job.id) nodup_ahead fun k hk => ⟨k, (hwaits k hk).1, rfl⟩
    omega

/-- One step: the jobs that pass are paid for by those before the job and by those that come. -/
lemma Store.Step.pays {op} (step : Store.Step s op s') (hj : j ∈ s.table)
    (left : LeavesWaiting j ⟨s, op, s'⟩) :
    (ahead j s'.table).length + passedBy j ⟨s, op, s'⟩ ≤
      (ahead j s.table).length + overtakes j ⟨s, op, s'⟩ := by
  cases op with
  | enqueue id req now =>
    obtain ⟨-, -, stmt⟩ := step.enqueue_inv
    show (ahead j s'.table).length + 0 ≤ _ + if req.runAt ≤ j.runAt then 1 else 0
    have hrows := (Table.insert?_eq_some stmt).2
    unfold ahead Table.select
    rw [hrows, List.filter_append, List.length_append]
    split
    · have hone := List.length_filter_le
        (fun k : Job => k.id ≠ j.id && k.state = .pending && k.runAt ≤ j.runAt)
        [⟨id, req.kind, req.payload, .pending, 0, req.maxAttempts, req.runAt, none, none, none, now,
          now⟩]
      simp only [List.length_singleton] at hone
      omega
    · rename_i hlater
      simp [hlater]
  | claim req now locked returned => exact step.claim_pays hj (left.1 _ _ _ _ rfl)
  | mark m now =>
    obtain ⟨-, -, stmt⟩ := step.mark_inv
    -- another row may wait before the job only if it is retried so early
    have hwaits : ∀ k ∈ ahead j s'.table, k ∈ ahead j s.table ∨
        k.id = m.id ∧ overtakes j ⟨s, .mark m now, s'⟩ = 1 := by
      intro k hk
      obtain ⟨hmem, hne, hpending, hle⟩ := mem_ahead.mp hk
      have hfind := Table.find?_key hmem
      rw [Mark.exec_find? stmt] at hfind
      obtain ⟨q, hq, hqk⟩ := Option.map_eq_some_iff.mp hfind
      split at hqk
      · rename_i hid
        subst hqk
        cases m with
        | done _ => cases hpending
        | failedRetry _ _ next => exact Or.inr ⟨hid, if_pos hle⟩
        | dead _ _ => cases hpending
      · subst hqk
        exact Or.inl (mem_ahead.mpr ⟨(Table.find?_eq_some.mp hq).1, hne, hpending, hle⟩)
    show (ahead j s'.table).length + 0 ≤ _
    by_cases hearly : overtakes j ⟨s, .mark m now, s'⟩ = 1
    · have hlength : (ahead j s'.table).length ≤
          ((ahead j s.table).map Job.id ++ [m.id]).length := by
        refine length_le_of_keys (f := Job.id) (g := fun id => id) nodup_ahead ?_
        intro k hk
        rcases hwaits k hk with hold | ⟨hid, -⟩
        · exact ⟨k.id, List.mem_append_left _ (List.mem_map_of_mem hold), rfl⟩
        · exact ⟨m.id, List.mem_append_right _ (List.mem_singleton_self _), hid.symm⟩
      simp only [List.length_append, List.length_map, List.length_singleton] at hlength
      omega
    · have hlength : (ahead j s'.table).length ≤ (ahead j s.table).length := by
        refine length_le_of_keys (f := Job.id) (g := Job.id) nodup_ahead ?_
        intro k hk
        rcases hwaits k hk with hold | ⟨-, hcomes⟩
        · exact ⟨k, hold, rfl⟩
        · exact absurd hcomes hearly
      omega
  | tick =>
    show (ahead j s'.table).length + 0 ≤ _
    rw [step.tick_inv.1]
    omega

/-- A job that is neither claimed nor marked stays as it is. -/
lemma Store.Step.waits {op} (step : Store.Step s op s') (hj : j ∈ s.table)
    (left : LeavesWaiting j ⟨s, op, s'⟩) : j ∈ s'.table := by
  have hrow := step.frame (Table.find?_key hj) (fun req now locked returned hop => left.1 _ _ _ _ hop)
    fun m now hop => left.2 m now hop
  exact (Table.find?_eq_some.mp hrow).1

end Pays

/-- While a job waits, the claims that could have taken it take no more jobs than waited before it at
the start, were enqueued or retried since to run no later, or were claimed again after their lease had
run out. -/
theorem waiting_bounded {s s' : Store} {ms j} (run : Run Store.Step s ms s') (hj : j ∈ s.table)
    (left : ∀ m ∈ ms, LeavesWaiting j m) :
    (ms.map (passedBy j)).sum ≤ (ahead j s.table).length + (ms.map (overtakes j)).sum := by
  have hcharge := run.charge (fun s => (ahead j s.table).length) (passedBy j) (overtakes j)
    (fun s => j ∈ s.table) (LeavesWaiting j) hj
    (fun _ _ _ step hleft hj => step.waits hj hleft)
    (fun _ _ _ step hleft hj => step.pays hj hleft) left
  omega

/-- A job that is due after `emailJob`. -/
def laterJob : Job := { emailJob with id := 2, runAt := 1 }

/-- Two due jobs. -/
def twoDue : JobsTable := ⟨[emailJob, laterJob], by decide⟩

/-- A claim of one job passes over the later one, which had one job before it. -/
theorem waiting_bounded_twoDue :
    ∃ ms s', Run Store.Step ⟨twoDue, 1⟩ ms s' ∧ (ms.map (passedBy laterJob)).sum = 1 ∧
      (ms.map (passedBy laterJob)).sum ≤
        (ahead laterJob twoDue).length + (ms.map (overtakes laterJob)).sum := by
  obtain ⟨t, stmt⟩ : ∃ t, claimDue twoDue ⟨"worker-1", ["email.send"], .fromSecs 60 (by decide), 1⟩ 1
      twoDue.rows (fun _ => false) = some (t, [emailJob.claimed "worker-1" 60000001 1]) :=
    ⟨⟨[emailJob.claimed "worker-1" 60000001 1, laterJob], by decide⟩, by decide +kernel⟩
  have step : Store.Step ⟨twoDue, 1⟩ _ _ :=
    .claim (le_refl (1 : Timestamp)) (List.Perm.refl _) stmt (List.Perm.refl _)
  refine ⟨_, _, .single step, rfl, waiting_bounded (.single step) ?_ ?_⟩
  · exact List.mem_cons_of_mem _ (List.mem_singleton_self _)
  · intro m hm
    cases List.mem_singleton.mp hm
    constructor
    · intro req now locked returned hop k hk
      cases hop
      cases List.mem_singleton.mp hk
      decide
    · intro mk now hop
      cases hop

end Egras.Jobs
