import Egras.Jobs.Leases
import Egras.Jobs.Progress

/-!
# Jobs: how often a job is started

`attempts` is written by `mark_failed_retry` and `mark_dead` only: a claim does not count, so that a
run that ends with the death of its worker leaves no trace in the row. `attempts_counted` bounds the
starts of a handler and the attempt count of any run by `max_attempts` together with the claims that
took over an expired lease and the marks written after such a takeover. Where every mark is that of
the worker that holds the job (`MarkHeld`), `attempts_bounded` leaves the takeovers only: they are
what the design does not count.

The invariant (`Counted`) relates the row to the log. A claim of a pending job is paid for by the
enqueue, by a retry of the runner with the latest ticket or by a late mark; retries of the latter
kind stay below `max_attempts`, because each is decided on the row as claimed, whose attempts
include all retries before it (`HeldCounted`).
-/

namespace Egras.Jobs
open Egras.Lib

/-- The counts of a row and of its log agree. -/
structure Counted (l : JobLog) (j : Job) : Prop where
  nonneg : 0 ≤ j.attempts
  fits : j.attempts ≤ i32Max
  claims : l.claims + (if j.state = .pending then 1 else 0) ≤ l.takeovers + 1 + l.retries + l.late
  retries : (l.retries : Int) ≤ j.attempts
  bound : l.retries = 0 ∨ (l.retries : Int) < j.maxAttempts
  attempts : j.attempts ≤ l.retries + 2 * l.late + (if j.state = .dead then 1 else 0)

/-- The counts of a claimed job agree with those of its row. -/
structure HeldCounted (l : JobLog) (c : Claimed) (j : Job) : Prop where
  maxAttempts : c.job.maxAttempts = j.maxAttempts
  nonneg : 0 ≤ c.job.attempts
  attempts : c.job.attempts ≤ j.attempts
  latest : c.ticket = l.claims →
    (l.retries : Int) ≤ c.job.attempts ∧ j.attempts ≤ l.retries + 2 * l.late

/-- Only the counts of the log matter. -/
lemma Counted.congr {l l' : JobLog} {j} (h : l.SameCounts l') (counted : Counted l j) :
    Counted l' j where
  nonneg := counted.nonneg
  fits := counted.fits
  claims := by rw [h.claims, h.takeovers, h.retries, h.late]; exact counted.claims
  retries := by rw [h.retries]; exact counted.retries
  bound := by rw [h.retries]; exact counted.bound
  attempts := by rw [h.retries, h.late]; exact counted.attempts

/-- Only the counts of the log matter. -/
lemma HeldCounted.congr {l l' : JobLog} {c j} (h : l.SameCounts l') (held : HeldCounted l c j) :
    HeldCounted l' c j where
  maxAttempts := held.maxAttempts
  nonneg := held.nonneg
  attempts := held.attempts
  latest := by rw [h.claims, h.retries, h.late]; exact held.latest

/-- The log of a claim of a stored row. -/
lemma logClaim_takeovers {log : Uuid → JobLog} {t : JobsTable} {returned id j}
    (h : ∃ k ∈ returned, k.id = id) (hj : t.find? id = some j) :
    (logClaim log t returned id).takeovers =
      (log id).takeovers + if j.state = .running then 1 else 0 := by
  have hany : returned.any (fun k => k.id = id) = true := by simpa using h
  obtain ⟨hmem, hid⟩ := Table.find?_eq_some.mp hj
  have hrow : t.any (fun k => k.id = id && k.state = .running) = true ↔ j.state = .running := by
    simp only [Table.any_eq_true, Bool.and_eq_true, decide_eq_true_eq]
    constructor
    · rintro ⟨k, hk, hkid, hs⟩
      rw [Table.eq_of_key hmem hk (hid.trans hkid.symm)]
      exact hs
    · intro hs
      exact ⟨j, hmem, hid, hs⟩
  simp only [logClaim, hany, if_true, hrow]

/-- A claim keeps the counts. -/
lemma Counted.claimed {log : Uuid → JobLog} {t : JobsTable} {returned id j workerId u now now'}
    (counted : Counted (log id) j) (hj : t.find? id = some j) (due : j.isDue now')
    (ret : ∃ k ∈ returned, k.id = id) :
    Counted (logClaim log t returned id) (j.claimed workerId u now) := by
  have hclaims := counted.claims
  have hattempts := counted.attempts
  refine ⟨counted.nonneg, counted.fits, ?_, ?_, ?_, ?_⟩
  · rw [logClaim_of_mem ret, logClaim_takeovers ret hj, logClaim_retries, logClaim_late]
    simp only [Job.claimed]
    rcases Job.isDue_iff.mp due with ⟨hs, -⟩ | ⟨hs, -⟩
    · simp only [hs, if_true] at hclaims
      simp only [hs, reduceCtorEq, if_false]
      omega
    · simp only [hs, reduceCtorEq, if_false] at hclaims
      simp only [hs, reduceCtorEq, if_true, if_false]
      omega
  · rw [logClaim_retries]
    exact counted.retries
  · rw [logClaim_retries]
    exact counted.bound
  · rw [logClaim_retries, logClaim_late]
    simp only [Job.claimed, reduceCtorEq, if_false]
    rcases Job.isDue_iff.mp due with ⟨hs, -⟩ | ⟨hs, -⟩ <;>
      simpa only [hs, reduceCtorEq, if_false] using hattempts

/-- A mark that counts an attempt is refused on a full counter. -/
lemma Mark.exec_attempts {t t' : JobsTable} {m : Mark} {now j} (h : m.exec t now = some t')
    (hj : t.find? m.id = some j) : m = .done m.id ∨ j.attempts ≠ i32Max := by
  have hover : attemptsOverflow t m.id = false → j.attempts ≠ i32Max := by
    intro hfalse hmax
    obtain ⟨hmem, hid⟩ := Table.find?_eq_some.mp hj
    have := Table.any_eq_false.mp hfalse j hmem
    simp [hid, hmax] at this
  cases m with
  | done id => exact Or.inl rfl
  | failedRetry id error next =>
    simp only [exec, markFailedRetry] at h
    split at h
    · cases h
    · rename_i hno
      exact Or.inr (hover (Bool.eq_false_iff.mpr hno))
  | dead id error =>
    simp only [exec, markDead] at h
    split at h
    · cases h
    · rename_i hno
      exact Or.inr (hover (Bool.eq_false_iff.mpr hno))

/-- A mark adds one to the attempts or, if it records success, keeps them. -/
lemma Mark.apply_attempts {m : Mark} {now j} :
    (m.apply now j).attempts = if m = .done m.id then j.attempts else j.attempts + 1 := by
  cases m <;> simp [apply, Mark.id]

/-- A late mark keeps the counts. -/
lemma Counted.late {l : JobLog} {m : Mark} {now j} (counted : Counted l j)
    (room : m = .done m.id ∨ j.attempts ≠ i32Max) :
    Counted { l with late := l.late + 1 } (m.apply now j) := by
  have hclaims := counted.claims
  have hattempts := counted.attempts
  have hfits := counted.fits
  have hnonneg := counted.nonneg
  have hretries := counted.retries
  have hm := @Mark.apply_attempts m now j
  refine ⟨?_, ?_, ?_, ?_, ?_, ?_⟩
  · split at hm <;> omega
  · split at hm
    · omega
    · have hne := room.resolve_left ‹_›
      omega
  · simp only
    split at hclaims <;> split <;> omega
  · simp only
    split at hm <;> omega
  · rw [Mark.apply_maxAttempts]
    exact counted.bound
  · simp only
    split at hattempts <;> split at hm <;> split <;> omega

/-- A late mark keeps the counts of the claimed jobs. -/
lemma HeldCounted.late {l : JobLog} {m : Mark} {now j c} (held : HeldCounted l c j) :
    HeldCounted { l with late := l.late + 1 } c (m.apply now j) := by
  have hattempts := held.attempts
  have hm := @Mark.apply_attempts m now j
  refine ⟨?_, held.nonneg, ?_, ?_⟩
  · rw [Mark.apply_maxAttempts]
    exact held.maxAttempts
  · split at hm <;> omega
  · intro hticket
    obtain ⟨hr, ha⟩ := held.latest hticket
    refine ⟨hr, ?_⟩
    simp only
    split at hm <;> omega

/-- The attempt after a claimed run does not wrap around below the largest count. -/
lemma nextAttempt_eq {job : Job} (nonneg : 0 ≤ job.attempts) (h : job.attempts < i32Max) :
    nextAttempt job = job.attempts + 1 := by
  unfold nextAttempt wrapI32
  unfold i32Max at h
  exact Int.bmod_eq_of_le (by omega) (by omega)

/-- The log entry after a mark of the runner with the latest ticket. -/
def JobLog.marked (l : JobLog) : Mark → JobLog
  | .failedRetry _ _ _ => { l with retries := l.retries + 1 }
  | _ => l

/-- A mark of the runner with the latest ticket keeps the counts. -/
lemma Counted.marked {runner : JobRunner} {l : JobLog} {m : Mark} {now utcNow j c outcome}
    (counted : Counted l j) (held : HeldCounted l c j) (hticket : c.ticket = l.claims)
    (call : dispatchMark runner c.job outcome utcNow = some m)
    (room : m = .done m.id ∨ j.attempts ≠ i32Max) :
    Counted (l.marked m) (m.apply now j) := by
  have hclaims := counted.claims
  have hfits := counted.fits
  have hnonneg := counted.nonneg
  have hretries := counted.retries
  have hmax := held.maxAttempts
  have hsnap := held.attempts
  -- nobody has claimed the job since, so that the row counts what the runner knows
  obtain ⟨hr, ha⟩ := held.latest hticket
  cases m with
  | done id =>
    refine ⟨hnonneg, hfits, ?_, hretries, counted.bound, ?_⟩
    · simp only [JobLog.marked, Mark.apply, reduceCtorEq, if_false]
      omega
    · simp only [JobLog.marked, Mark.apply, reduceCtorEq, if_false]
      omega
  | dead id error =>
    have hne := room.resolve_left Mark.noConfusion
    refine ⟨?_, ?_, ?_, ?_, counted.bound, ?_⟩
    · simp only [Mark.apply]
      omega
    · simp only [Mark.apply]
      omega
    · simp only [JobLog.marked, Mark.apply, reduceCtorEq, if_false]
      omega
    · simp only [JobLog.marked, Mark.apply]
      omega
    · simp only [JobLog.marked, Mark.apply, if_true]
      omega
  | failedRetry id error next =>
    have hne := room.resolve_left Mark.noConfusion
    have hlt := dispatchMark_failedRetry call
    rw [nextAttempt_eq held.nonneg (by omega)] at hlt
    refine ⟨?_, ?_, ?_, ?_, ?_, ?_⟩
    · simp only [Mark.apply]
      omega
    · simp only [Mark.apply]
      omega
    · simp only [JobLog.marked, Mark.apply, if_true]
      omega
    · simp only [JobLog.marked, Mark.apply]
      omega
    · simp only [JobLog.marked, Mark.apply]
      omega
    · simp only [JobLog.marked, Mark.apply, reduceCtorEq, if_false]
      omega

/-- A mark of the latest ticket keeps the counts of the jobs claimed under other tickets. -/
lemma HeldCounted.marked {l : JobLog} {m : Mark} {now j c} (held : HeldCounted l c j)
    (hticket : c.ticket ≠ l.claims) : HeldCounted (l.marked m) c (m.apply now j) := by
  have hattempts := held.attempts
  have hm := @Mark.apply_attempts m now j
  refine ⟨?_, held.nonneg, ?_, ?_⟩
  · rw [Mark.apply_maxAttempts]
    exact held.maxAttempts
  · split at hm <;> omega
  · intro h
    refine absurd (h.trans ?_) hticket
    cases m <;> rfl

/-- The counts agree for all rows and all claimed jobs, and unknown jobs have no log. -/
structure CountsAgree (s : Cluster) : Prop where
  unknown : ∀ id, s.table.find? id = none → s.log id = .empty
  row : ∀ id j, s.table.find? id = some j → Counted (s.log id) j
  held : ∀ r, ∀ c ∈ (s.runner r).held, ∃ j, s.table.find? c.job.id = some j ∧
    HeldCounted (s.log c.job.id) c j

/-- A row appears only by an enqueue, which leaves the log alone. -/
lemma Cluster.Step.new_row {fleet s s'} {e : Event} (step : Cluster.Step fleet s e s') {id}
    (hnone : s.table.find? id = none) :
    (s'.table.find? id = none ∧ s'.log id = s.log id ∨
      ∃ j, s'.table.find? id = some j ∧ s'.log id = s.log id ∧ j.state = .pending ∧
        j.attempts = 0) ∨
    ∃ c, c.job.id = id ∧ ∃ r, c ∈ (s.runner r).held := by
  cases step with
  | @enqueue id' req now t past stmt =>
    have hrow : t.find? id = if id' = id then some _ else s.table.find? id :=
      Table.find?_insert? stmt
    rw [hnone] at hrow
    split at hrow
    · exact Or.inl (Or.inr ⟨_, hrow, rfl, rfl, rfl⟩)
    · exact Or.inl (Or.inl ⟨hrow, rfl⟩)
  | @claim r now scan locked t rows returned replied polls past perm stmt order =>
    have spec := (claimDue_spec perm stmt).perm order
    have hnot : ∀ j ∈ returned, j.id ≠ id := by
      rintro j hj rfl
      obtain ⟨q, hq, -⟩ := spec.eligible j hj
      rw [hnone] at hq
      cases hq
    exact Or.inl (Or.inl ⟨(spec.frame id hnot).trans hnone, logClaim_of_not_mem hnot⟩)
  | @start r c rest pos handler =>
    by_cases hid : id = c.job.id
    · exact Or.inr ⟨c, hid.symm, r, by simp [pos, RunnerState.held]⟩
    · exact Or.inl (Or.inl ⟨hnone, Function.update_of_ne hid _ _⟩)
  | @finish r c startedAt rest handled pos =>
    by_cases hid : id = c.job.id
    · exact Or.inr ⟨c, hid.symm, r, by simp [pos, RunnerState.held]⟩
    · exact Or.inl (Or.inl ⟨hnone, Function.update_of_ne hid _ _⟩)
  | @mark r c startedAt outcome rest utcNow m now t pos call past stmt =>
    by_cases hid : id = c.job.id
    · exact Or.inr ⟨c, hid.symm, r, by simp [pos, RunnerState.held]⟩
    · refine Or.inl (Or.inl ⟨?_, logMark_of_ne hid⟩)
      rw [Mark.exec_find? stmt, hnone]
      rfl
  | _ => exact Or.inl (Or.inl ⟨hnone, rfl⟩)

/-- The log entry of a job after a mark about it. -/
lemma logMark_self {s : Cluster} {c : Claimed} {m} :
    logMark s c m c.job.id = if s.superseded c
      then { s.log c.job.id with late := (s.log c.job.id).late + 1 }
      else (s.log c.job.id).marked m := by
  unfold logMark
  rw [Function.update_self]
  split
  · rfl
  · cases m <;> rfl

/-- One step keeps the counts of a row. -/
lemma Cluster.Step.counted {fleet s s'} {e : Event} (step : Cluster.Step fleet s e s')
    (tickets : Tickets s) (inv : CountsAgree s) {id j} (hj : s'.table.find? id = some j) :
    Counted (s'.log id) j := by
  cases hf : s.table.find? id with
  | none =>
    rcases step.new_row hf with (⟨hnone, -⟩ | ⟨j', hj', hlog, hs, ha⟩) | ⟨c, rfl, r, hc⟩
    · rw [hnone] at hj
      cases hj
    · rw [hj'] at hj
      cases hj
      rw [hlog, inv.unknown id hf]
      refine ⟨ha.ge, ha ▸ (by decide), ?_, ha.ge, Or.inl rfl, ?_⟩
      · simp [hs, JobLog.empty]
      · simp [hs, ha, JobLog.empty]
    · obtain ⟨j', hj', -⟩ := inv.held r c hc
      rw [hf] at hj'
      cases hj'
  | some q =>
    have hcount := inv.row id q hf
    rcases step.row hf with ⟨h, hsame⟩ | ⟨r, now, _, returned, _, rfl, -, hdue, hret, h, hlog⟩ |
      ⟨r, m, now, c, startedAt, rfl, hid, hcurrent, rfl, h, hlog⟩
    · rw [h] at hj
      cases hj
      exact hcount.congr hsame
    · rw [h] at hj
      cases hj
      rw [hlog]
      exact hcount.claimed hf hdue hret
    · rw [h] at hj
      cases hj
      obtain ⟨_, _, _, _, _, pos, call, -, -, ⟨-, -, stmt, -⟩ | ⟨hexec, -⟩⟩ := step.mark_inv
      · have room := Mark.exec_attempts stmt (hid ▸ hf)
        rw [pos] at hcurrent
        cases hcurrent
        rw [hlog, logMark_self]
        split
        · exact hcount.late room
        · rename_i hsup
          have hheld : c ∈ (s.runner r).held := by simp [pos, RunnerState.held]
          obtain ⟨q', hq', held⟩ := inv.held r c hheld
          rw [hf] at hq'
          cases hq'
          exact hcount.marked held (tickets.latest hheld hsup) call room
      · cases hexec

/-- One step keeps the counts of the claimed jobs. -/
lemma Cluster.Step.heldCounted {fleet s s'} {e : Event} (step : Cluster.Step fleet s e s')
    (tickets : Tickets s) (inv : CountsAgree s) {r c} (hc : c ∈ (s'.runner r).held) :
    ∃ j, s'.table.find? c.job.id = some j ∧ HeldCounted (s'.log c.job.id) c j := by
  rcases step.held r with ⟨hsub, -⟩ | ⟨now, locked, returned, rfl, -, hheld, -⟩
  · have hc₀ := hsub.subset hc
    obtain ⟨q, hq, held⟩ := inv.held r c hc₀
    rcases step.row hq with ⟨h, hsame⟩ | ⟨_, _, _, returned, _, rfl, -, -, hret, h, hlog⟩ |
      ⟨r', m, now, c', startedAt, rfl, hid, hcurrent, hid', h, hlog⟩
    · exact ⟨q, h, held.congr hsame⟩
    · refine ⟨_, h, held.maxAttempts, held.nonneg, held.attempts, ?_⟩
      intro hticket
      have hle := (tickets.range r c hc₀).2
      rw [hlog, logClaim_of_mem hret] at hticket
      omega
    · refine ⟨_, h, ?_⟩
      rw [hlog, ← hid', logMark_self, hid']
      have hheld' := RunnerState.mem_held_of_current hcurrent
      split
      · exact held.late
      · rename_i hsup
        refine held.marked (fun hticket => ?_)
        have hlatest := tickets.latest hheld' hsup
        have hkey : c.key = c'.key := Prod.ext hid'.symm (hticket.trans (hid' ▸ hlatest.symm))
        have hr := tickets.runner_eq hc₀ hheld' hkey
        subst hr
        exact tickets.ne_of_marked step hcurrent hc hkey
  · rw [hheld] at hc
    obtain ⟨hret, hticket, hat⟩ := mem_claimedBatch hc
    have spec := step.claim_spec.2
    obtain ⟨q, hq, -, hdue, -, hjob⟩ := spec.eligible c.job hret
    have hcount := inv.row _ q hq
    have hattempts := hcount.attempts
    have hlog : s'.log = logClaim s.log s.table returned := by
      cases step
      rfl
    refine ⟨c.job, spec.written c.job hret, rfl, ?_, le_refl _, ?_⟩
    · rw [hjob]
      exact hcount.nonneg
    · intro _
      rw [hlog, logClaim_retries, logClaim_late]
      have hsame : c.job.attempts = q.attempts := by rw [hjob]; rfl
      rw [hsame]
      refine ⟨hcount.retries, ?_⟩
      rcases Job.isDue_iff.mp hdue with ⟨hs, -⟩ | ⟨hs, -⟩ <;>
        simpa only [hs, reduceCtorEq, if_false, Int.add_zero] using hattempts

/-- Every step keeps the counts in agreement. -/
lemma Cluster.Step.countsAgree {fleet s s'} {e : Event} (step : Cluster.Step fleet s e s')
    (tickets : Tickets s) (inv : CountsAgree s) : CountsAgree s' where
  row _ _ hj := step.counted tickets inv hj
  held _ _ hc := step.heldCounted tickets inv hc
  unknown id hnone := by
    cases hf : s.table.find? id with
    | none =>
      rcases step.new_row hf with (⟨-, hlog⟩ | ⟨j, hj, -⟩) | ⟨c, rfl, r, hc⟩
      · rw [hlog]
        exact inv.unknown id hf
      · rw [hnone] at hj
        cases hj
      · obtain ⟨j, hj, -⟩ := inv.held r c hc
        rw [hf] at hj
        cases hj
    | some q =>
      rcases step.row hf with ⟨h, -⟩ | ⟨_, _, _, _, _, -, -, -, -, h, -⟩ |
        ⟨_, _, _, _, _, -, -, -, -, h, -⟩
      · rw [hnone] at h
        cases h
      · rw [hnone] at h
        cases h
      · rw [hnone] at h
        cases h

section Run
variable {fleet : ℕ → JobRunner} {s s' : Cluster} {ms : List (Move Cluster Event)}

/-- The counts agree in every state of a run that starts with an empty table. -/
lemma countsAgree_of_run (init : s.Initial) (empty : s.table = Table.empty)
    (run : Run (Cluster.Step fleet) s ms s') : CountsAgree s' := by
  have start : CountsAgree s := by
    refine ⟨fun id _ => init.log id, ?_, ?_⟩
    · intro id j hj
      rw [empty] at hj
      cases hj
    · intro r c hc
      simp [init.runner r, RunnerState.held] at hc
  exact (run.invariant (fun s => Tickets s ∧ CountsAgree s) (fun _ => True) ⟨init.tickets, start⟩
    (fun _ _ _ step _ inv => ⟨step.tickets inv.1, step.countsAgree inv.1 inv.2⟩)
    (fun _ _ => trivial)).2

/-- In every run from an empty table, the handler of a job with `max_attempts ≥ 1` is started at
most `max_attempts` times, plus once for every claim that took over an expired lease and for every
late mark; its attempts exceed `max_attempts` by two for every late mark at most. -/
lemma attempts_counted (init : s.Initial) (empty : s.table = Table.empty)
    (run : Run (Cluster.Step fleet) s ms s') {j} (hj : j ∈ s'.table) (pos : 1 ≤ j.maxAttempts) :
    ((s'.log j.id).starts.length : Int) ≤
        j.maxAttempts + (s'.log j.id).takeovers + (s'.log j.id).late ∧
      j.attempts ≤ j.maxAttempts + 2 * (s'.log j.id).late := by
  have counted := (countsAgree_of_run init empty run).row _ j (Table.find?_key hj)
  have hstarts := (tickets_of_run init run).2.length_le j.id
  have hclaims := counted.claims
  have hattempts := counted.attempts
  have hbound : ((s'.log j.id).retries : Int) + 1 ≤ j.maxAttempts := by
    rcases counted.bound with h | h
    · rw [h]
      simpa using pos
    · exact h
  constructor
  · split at hclaims <;> omega
  · split at hattempts <;> omega

/-- A job that is left running is due again from the end of its lease on. -/
lemma running_due_again (empty : s.table = Table.empty) (run : Run (Cluster.Step fleet) s ms s')
    {j} (hj : j ∈ s'.table) (hrun : j.state = .running) :
    ∃ u, j.lockedUntil = some u ∧ ∀ now, u ≤ now → j.isDue now := by
  obtain ⟨_, storeRun⟩ := run.map Cluster.store
    (fun _ _ _ step => step.store.imp_right fun ⟨op, hop, _⟩ => ⟨op, hop⟩)
  have hinit : s.store = Store.init s.clock := by rw [Cluster.store, empty, Store.init]
  rw [hinit] at storeRun
  obtain ⟨u, hu⟩ := (Store.locksMatch_of_run storeRun j hj).lockedUntil hrun
  refine ⟨u, hu, ?_⟩
  intro now hle
  exact Job.isDue_iff.mpr (Or.inr ⟨hrun, u, hu, hle⟩)

/-- The step writes no mark of a runner whose lease has been taken over. -/
def MarkHeld (mv : Move Cluster Event) : Prop :=
  ∀ r m now c startedAt, mv.label = .mark r m now true →
    (mv.pre.runner r).current = some (c, startedAt) → ¬ mv.pre.superseded c

/-- A step whose mark is that of the worker that holds the job counts no late mark. -/
lemma Cluster.Step.late_eq {e : Event} (step : Cluster.Step fleet s e s')
    (held : MarkHeld ⟨s, e, s'⟩) (id : Uuid) : (s'.log id).late = (s.log id).late := by
  cases step with
  | claim => exact logClaim_late
  | start => exact update_field JobLog.late rfl
  | finish => exact update_field JobLog.late rfl
  | @mark r c startedAt outcome rest utcNow m now t pos call past stmt =>
    by_cases hid : id = c.job.id
    · have hsup : ¬ s.superseded c := held r m now c startedAt rfl (by rw [pos]; rfl)
      show (logMark s c m id).late = _
      rw [hid, logMark_self, if_neg hsup]
      cases m <;> rfl
    · exact congrArg JobLog.late (logMark_of_ne hid)
  | _ => rfl

/-- A run in which every mark is that of the worker that holds the job has no late mark. -/
lemma no_late_of_run (init : s.Initial) (run : Run (Cluster.Step fleet) s ms s')
    (held : ∀ m ∈ ms, MarkHeld m) (id : Uuid) : (s'.log id).late = 0 := by
  apply run.invariant (fun s => (s.log id).late = 0) MarkHeld
  · rw [init.log id]
    rfl
  · intro a e b step hheld h
    rw [step.late_eq hheld id, h]
  · exact held

/-- In every run from an empty table in which no mark is written by a worker whose lease was taken
over, the handler of a job with `max_attempts ≥ 1` is started at most `max_attempts` times, plus
once for every claim that took over an expired lease; its attempts never exceed `max_attempts`; and
a job that is left running is due again from the end of its lease on. -/
theorem attempts_bounded (init : s.Initial) (empty : s.table = Table.empty)
    (run : Run (Cluster.Step fleet) s ms s') (held : ∀ m ∈ ms, MarkHeld m) {j}
    (hj : j ∈ s'.table) (pos : 1 ≤ j.maxAttempts) :
    ((s'.log j.id).starts.length : Int) ≤ j.maxAttempts + (s'.log j.id).takeovers ∧
      j.attempts ≤ j.maxAttempts ∧
      (j.state = .running → ∃ u, j.lockedUntil = some u ∧ ∀ now, u ≤ now → j.isDue now) := by
  obtain ⟨hstarts, hattempts⟩ := attempts_counted init empty run hj pos
  have hlate := no_late_of_run init run held j.id
  rw [hlate] at hstarts hattempts
  refine ⟨?_, ?_, ?_⟩
  · simpa using hstarts
  · simpa using hattempts
  · exact running_due_again empty run hj

/-- Worker 0 dies in the handler of a job that may be attempted once; worker 1 starts it again. -/
def crashedWorker : List Event :=
  [.enqueue 1 ⟨"email.send", .null, 1, 0⟩ 0,
    .claim 0 0 (fun _ => false)
      [{ emailJob.claimed "worker-0" 60000000 0 with maxAttempts := 1 }] true,
    .start 0,
    .crash 0,
    .tick 60000000,
    .claim 1 60000000 (fun _ => false)
      [{ emailJob.claimed "worker-1" 120000000 60000000 with maxAttempts := 1 }] true,
    .start 1]

/-- What `crashedWorker` comes to. -/
lemma crashedWorker_end :
    ((Cluster.fresh Table.empty).execs emailFleet (fun _ => true) crashedWorker).map (fun s =>
      ((s.table.find? 1).map (fun j => (j.id, j.maxAttempts, j.attempts)),
        (s.log 1).starts, (s.log 1).takeovers, (s.log 1).late)) =
      some (some (1, 1, 0), [1, 2], 1, 0) := by decide +kernel

/-- The handler of a job with one attempt is started twice. -/
theorem crash_not_counted :
    ¬ ∀ fleet s ms s', s.Initial → s.table = Table.empty → Run (Cluster.Step fleet) s ms s' →
      ∀ j ∈ s'.table, 1 ≤ j.maxAttempts →
        ((s'.log j.id).starts.length : Int) ≤ j.maxAttempts ∧ j.attempts ≤ j.maxAttempts := by
  intro property
  obtain ⟨s, hs, hend⟩ := Option.map_eq_some_iff.mp crashedWorker_end
  obtain ⟨ms, run, -, -⟩ := Cluster.execs_sound hs
  obtain ⟨hrow, hlog⟩ := Prod.mk.inj hend
  obtain ⟨hstarts, -⟩ := Prod.mk.inj hlog
  obtain ⟨j, hj, hcols⟩ := Option.map_eq_some_iff.mp hrow
  obtain ⟨hid, hcols⟩ := Prod.mk.inj hcols
  obtain ⟨hmax, -⟩ := Prod.mk.inj hcols
  have bound := (property _ _ _ _ Cluster.fresh_initial rfl run j (Table.find?_eq_some.mp hj).1
    hmax.ge).1
  rw [hid, hstarts, hmax] at bound
  exact absurd bound (by decide)

/-- Worker 1 then finishes the job: its second start is paid for by the takeover. -/
theorem attempts_bounded_crashed :
    ∃ ms s' j, Run (Cluster.Step emailFleet) (Cluster.fresh Table.empty) ms s' ∧ j ∈ s'.table ∧
      j.state = .done ∧ (s'.log j.id).starts = [1, 2] ∧
      ((s'.log j.id).starts.length : Int) ≤ j.maxAttempts + (s'.log j.id).takeovers ∧
      j.attempts ≤ j.maxAttempts := by
  have hstates : ((Cluster.fresh Table.empty).execs emailFleet (fun _ => true)
      (crashedWorker ++ [.finish 1 (.ok ())])).bind (fun s =>
        (s.exec emailFleet (.mark 1 (.done 1) 60000000 true)).map (fun s' =>
          (((s.runner 1).current.map (fun p => s.superseded p.1), (s'.log 1).starts),
            (s'.table.find? 1).map (fun j => (j.id, j.maxAttempts, j.state))))) =
      some ((some false, [1, 2]), some (1, 1, .done)) := by decide +kernel
  obtain ⟨s, hs, hlast⟩ := Option.bind_eq_some_iff.mp hstates
  obtain ⟨s', hs', hend⟩ := Option.map_eq_some_iff.mp hlast
  obtain ⟨hlog, hrow⟩ := Prod.mk.inj hend
  obtain ⟨hpre, hstarts⟩ := Prod.mk.inj hlog
  obtain ⟨ms, run, hlabels, -⟩ := Cluster.execs_sound hs
  have run' := run.snoc (Cluster.exec_sound hs')
  -- worker 0 never comes to its mark, and worker 1 holds the latest ticket
  have held : ∀ mv ∈ ms ++ [⟨s, .mark 1 (.done 1) 60000000 true, s'⟩], MarkHeld mv := by
    intro mv hmv r m now c startedAt hlabel hcurrent hsup
    rcases List.mem_append.mp hmv with hmv | hmv
    · have hmem := List.mem_map_of_mem (f := Move.label) hmv
      rw [hlabels, hlabel] at hmem
      simp [crashedWorker] at hmem
    · cases List.mem_singleton.mp hmv
      cases hlabel
      rw [hcurrent] at hpre
      simp [hsup] at hpre
  obtain ⟨j, hj, hcols⟩ := Option.map_eq_some_iff.mp hrow
  obtain ⟨hid, hcols⟩ := Prod.mk.inj hcols
  obtain ⟨hmax, hdone⟩ := Prod.mk.inj hcols
  have hmem := (Table.find?_eq_some.mp hj).1
  obtain ⟨bound, attempts, -⟩ := attempts_bounded Cluster.fresh_initial rfl run' held hmem hmax.ge
  exact ⟨_, s', j, run', hmem, hdone, hid ▸ hstarts, bound, attempts⟩

end Run
end Egras.Jobs
