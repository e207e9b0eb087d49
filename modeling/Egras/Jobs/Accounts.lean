import Egras.Jobs.Attempts

/-!
# Jobs: what the table tells

Over every run of the cluster the `jobs` table gives a true account of what happened. A job stays
what it was ordered to be (`Job.SameOrder`), and the last event that touched a row which differs from
the beginning explains it (`Earned`): the enqueue, the claim that returned it, or the mark of the
outcome with which a handler of its kind came back after it was called with the payload of the job.
`attempts` counts the failures that were written (`failures`).

A handler is heard by the runner that called it, which then stands before its mark; `Books` carries
what it has heard (`Heard`) from there to the row.
-/

namespace Egras.Jobs
open Egras.Lib

/-- What a job is asked to do, and by which enqueue. -/
structure Job.SameOrder (j k : Job) : Prop where
  id : j.id = k.id
  kind : j.kind = k.kind
  payload : j.payload = k.payload
  maxAttempts : j.maxAttempts = k.maxAttempts
  createdAt : j.createdAt = k.createdAt

namespace Job.SameOrder
variable {j k l : Job}

/-- Every job has its own order. -/
lemma refl : j.SameOrder j := ⟨rfl, rfl, rfl, rfl, rfl⟩

/-- The same order either way. -/
lemma symm (h : j.SameOrder k) : k.SameOrder j :=
  ⟨h.id.symm, h.kind.symm, h.payload.symm, h.maxAttempts.symm, h.createdAt.symm⟩

/-- The same order all along. -/
lemma trans (h : j.SameOrder k) (h' : k.SameOrder l) : j.SameOrder l :=
  ⟨h.id.trans h'.id, h.kind.trans h'.kind, h.payload.trans h'.payload,
    h.maxAttempts.trans h'.maxAttempts, h.createdAt.trans h'.createdAt⟩

/-- A claim keeps the order. -/
lemma claimed {workerId lockedUntil now} : (j.claimed workerId lockedUntil now).SameOrder j :=
  ⟨rfl, rfl, rfl, rfl, rfl⟩

/-- A mark keeps the order. -/
lemma marked {m : Mark} {now} : (m.apply now j).SameOrder j := by
  cases m <;> exact ⟨rfl, rfl, rfl, rfl, rfl⟩

end Job.SameOrder

/-- The handler of a job comes back with an outcome: its runner had claimed the job and called the
handler of its kind with its payload. -/
def Heard (fleet : ℕ → JobRunner) (ms : List (Move Cluster Event)) (k : Job) (r : ℕ) (c : Claimed)
    (handled : Outcome) : Prop :=
  c.job.SameOrder k ∧ k.kind ∈ (fleet r).registeredKinds ∧
    ∃ m ∈ ms, m.label = .finish r handled ∧
      ∃ startedAt rest, m.pre.runner r = .handling c startedAt rest

/-- An event that explains a row, after the moves before it. -/
inductive Explains (fleet : ℕ → JobRunner) (before : List (Move Cluster Event)) (k : Job) :
    Event → Prop
  | ordered {req now} (pending : k.state = .pending) (kind : k.kind = req.kind)
      (payload : k.payload = req.payload) (maxAttempts : k.maxAttempts = req.maxAttempts)
      (runAt : k.runAt = req.runAt) : Explains fleet before k (.enqueue k.id req now)
  | claimed {r now locked returned replied} (returns : k ∈ returned) (running : k.state = .running)
      (lockedBy : k.lockedBy = some (fleet r).workerId)
      (lockedUntil : k.lockedUntil = some (now + (fleet r).lease)) :
      Explains fleet before k (.claim r now locked returned replied)
  | succeeded {r c now} (heard : Heard fleet before k r c (.ok ())) (done : k.state = .done) :
      Explains fleet before k (.mark r (.done k.id) now true)
  | refused {r c msg now} (heard : Heard fleet before k r c (.error (.permanent msg)))
      (dead : k.state = .dead) (error : k.lastError = some msg) :
      Explains fleet before k (.mark r (.dead k.id msg) now true)
  | exhausted {r c msg now} (heard : Heard fleet before k r c (.error (.retryable msg)))
      (last : k.maxAttempts ≤ nextAttempt c.job) (dead : k.state = .dead)
      (error : k.lastError = some msg) :
      Explains fleet before k (.mark r (.dead k.id msg) now true)
  | postponed {r c msg next now} (heard : Heard fleet before k r c (.error (.retryable msg)))
      (remaining : nextAttempt c.job < k.maxAttempts) (pending : k.state = .pending)
      (error : k.lastError = some msg) (runAt : k.runAt = next) :
      Explains fleet before k (.mark r (.failedRetry k.id msg next) now true)

/-- The last event that has touched a row explains it. -/
def Earned (fleet : ℕ → JobRunner) (ms : List (Move Cluster Event)) (k : Job) : Prop :=
  ∃ before m after, ms = before ++ m :: after ∧ Explains fleet before k m.label ∧
    ∀ n ∈ after, n.post.table.find? k.id = n.pre.table.find? k.id

/-- A written mark that counts an attempt of the job. -/
def Event.fails (id : Uuid) : Event → Bool
  | .mark _ (.failedRetry id' _ _) _ true | .mark _ (.dead id' _) _ true => id' = id
  | _ => false

/-- How many failures of a job were written. -/
def failures (ms : List (Move Cluster Event)) (id : Uuid) : ℕ :=
  ms.countP (fun m => m.label.fails id)

/-- The attempts of a job that is in the table. -/
def attemptsOf (t : JobsTable) (id : Uuid) : Int := ((t.find? id).map Job.attempts).getD 0

section Mono
variable {fleet : ℕ → JobRunner} {ms : List (Move Cluster Event)} {mv : Move Cluster Event}
  {k : Job}

/-- What was heard in a part of the run was heard in the run. -/
lemma Heard.mono {ms' r c handled} (h : Heard fleet ms k r c handled) (hsub : ms ⊆ ms') :
    Heard fleet ms' k r c handled := by
  obtain ⟨hsame, hkind, m, hm, hheard⟩ := h
  exact ⟨hsame, hkind, m, hsub hm, hheard⟩

/-- What was heard stays heard. -/
lemma Heard.snoc {r c handled} (h : Heard fleet ms k r c handled) :
    Heard fleet (ms ++ [mv]) k r c handled :=
  h.mono (List.subset_append_left _ _)

/-- What a handler said of a job it said of every state of it. -/
lemma Heard.congr {k' : Job} {r c handled} (h : Heard fleet ms k r c handled)
    (hsame : k.SameOrder k') : Heard fleet ms k' r c handled := by
  obtain ⟨hsame', hkind, hheard⟩ := h
  exact ⟨hsame'.trans hsame, hsame.kind ▸ hkind, hheard⟩

/-- A row that is not touched has earned what it had earned. -/
lemma Earned.snoc (h : Earned fleet ms k)
    (untouched : mv.post.table.find? k.id = mv.pre.table.find? k.id) :
    Earned fleet (ms ++ [mv]) k := by
  obtain ⟨before, m, after, rfl, hexplains, hafter⟩ := h
  refine ⟨before, m, after ++ [mv], by simp, hexplains, fun n hn => ?_⟩
  rcases List.mem_append.mp hn with hn | hn
  · exact hafter n hn
  · rw [List.mem_singleton.mp hn]
    exact untouched

/-- The event that has just happened is the last. -/
lemma Explains.earned (h : Explains fleet ms k mv.label) : Earned fleet (ms ++ [mv]) k :=
  ⟨ms, mv, [], rfl, h, fun _ hn => by cases hn⟩

/-- The mark that a runner makes of what it has heard explains the row that it writes. -/
lemma Heard.explains {r c handled utcNow m now} {j : Job} (h : Heard fleet ms j r c handled)
    (call : dispatchMark (fleet r) c.job handled utcNow = some m) :
    Explains fleet ms (m.apply now j) (.mark r m now true) := by
  have heard : Heard fleet ms (m.apply now j) r c handled := h.congr Job.SameOrder.marked.symm
  have hmax : (m.apply now j).maxAttempts = c.job.maxAttempts := heard.1.maxAttempts.symm
  have hid : (m.apply now j).id = c.job.id := heard.1.id.symm
  unfold dispatchMark at call
  split at call
  · cases call
    rw [← hid]
    exact .succeeded heard rfl
  · cases call
    rw [← hid]
    exact .refused heard rfl rfl
  · split at call
    · rename_i hlast
      cases call
      rw [← hid]
      refine .exhausted heard ?_ rfl rfl
      exact hmax ▸ hlast
    · rename_i hleft
      obtain ⟨next, -, rfl⟩ := Option.map_eq_some_iff.mp call
      rw [← hid]
      refine .postponed heard ?_ rfl rfl rfl
      exact hmax ▸ lt_of_not_ge hleft

end Mono

section Attempts
variable {t t' : JobsTable} {id : Uuid}

/-- The attempts of a job that is there. -/
lemma attemptsOf_of_find? {j : Job} (h : t.find? id = some j) : attemptsOf t id = j.attempts := by
  unfold attemptsOf
  rw [h]
  rfl

/-- A written mark of a stored job adds what it counts to the attempts. -/
lemma Mark.attemptsOf {m : Mark} {now r j} (stmt : m.exec t now = some t')
    (hj : t.find? m.id = some j) :
    Jobs.attemptsOf t' id =
      Jobs.attemptsOf t id + if (Event.mark r m now true).fails id then 1 else 0 := by
  by_cases hid : m.id = id
  · subst hid
    have hrow := Mark.exec_find?_self stmt
    rw [hj, Option.map_some] at hrow
    rw [attemptsOf_of_find? hrow, attemptsOf_of_find? hj, Mark.apply_attempts]
    cases m <;> simp [Mark.id, Event.fails]
  · have hrow := Mark.exec_find?_ne stmt (Ne.symm hid)
    have hnot : (Event.mark r m now true).fails id = false := by
      cases m with
      | done _ => rfl
      | failedRetry id' _ _ => exact decide_eq_false hid
      | dead id' _ => exact decide_eq_false hid
    unfold Jobs.attemptsOf
    rw [hrow, hnot]
    simp

/-- A claim keeps the attempts. -/
lemma ClaimSpec.attemptsOf {req now locked returned}
    (spec : ClaimSpec t req now locked t' returned) :
    Jobs.attemptsOf t' id = Jobs.attemptsOf t id := by
  by_cases h : ∃ k ∈ returned, k.id = id
  · obtain ⟨k, hk, rfl⟩ := h
    obtain ⟨q, hq, -, -, -, hkq⟩ := spec.eligible k hk
    rw [attemptsOf_of_find? hq, attemptsOf_of_find? (spec.written k hk), hkq]
    rfl
  · have hframe := spec.frame id fun k hk hid => h ⟨k, hk, hid⟩
    unfold Jobs.attemptsOf
    rw [hframe]

/-- A new job has no attempts. -/
lemma attemptsOf_enqueueInTx {id' req now} (stmt : enqueueInTx t id' req now = some t') :
    attemptsOf t' id = attemptsOf t id := by
  have hfind := Table.find?_insert? (k := id) stmt
  unfold attemptsOf
  rw [hfind]
  split
  · rename_i hid
    have hnone : t.find? id = none := by
      apply Table.find?_eq_none.mpr
      intro r hr hkey
      exact (Table.insert?_eq_some stmt).1 r hr (hkey.trans hid.symm)
    rw [hnone]
    rfl
  · rfl

end Attempts

namespace Cluster.Step
variable {fleet : ℕ → JobRunner} {s s' : Cluster} {e : Event}

/-- A row appears only by an enqueue. -/
lemma born {id k} (step : Step fleet s e s') (hnone : s.table.find? id = none)
    (hk : s'.table.find? id = some k) :
    ∃ req now, e = .enqueue id req now ∧ k.state = .pending ∧ k.kind = req.kind ∧
      k.payload = req.payload ∧ k.maxAttempts = req.maxAttempts ∧ k.runAt = req.runAt := by
  cases e with
  | enqueue id' req now =>
    cases step with
    | enqueue past stmt =>
      rw [Table.find?_insert? stmt, hnone] at hk
      split at hk
      · rename_i hid
        cases hk
        exact ⟨req, now, by rw [← hid], rfl, rfl, rfl, rfl, rfl⟩
      · cases hk
  | claim r now locked returned replied =>
    obtain ⟨-, spec⟩ := step.claim_spec
    have hframe : s'.table.find? id = s.table.find? id := by
      apply spec.frame
      intro k' hk' hid
      obtain ⟨q, hq, -⟩ := spec.eligible k' hk'
      rw [hid, hnone] at hq
      cases hq
    rw [hframe, hnone] at hk
    cases hk
  | mark r m now executed =>
    obtain ⟨-, -, -, -, -, -, -, -, -, ⟨-, -, stmt, -⟩ | ⟨-, htable, -⟩⟩ := step.mark_inv
    · rw [Mark.exec_find? stmt, hnone] at hk
      cases hk
    · rw [htable, hnone] at hk
      cases hk
  | start r =>
    cases step
    cases hnone.symm.trans hk
  | skip r =>
    cases step
    cases hnone.symm.trans hk
  | finish r handled =>
    cases step
    cases hnone.symm.trans hk
  | crash r =>
    cases step
    cases hnone.symm.trans hk
  | tick clock =>
    cases step
    cases hnone.symm.trans hk

/-- A stored job stays stored, as the same order. -/
lemma sameOrder {id j} (step : Step fleet s e s') (hj : s.table.find? id = some j) :
    ∃ k, s'.table.find? id = some k ∧ j.SameOrder k := by
  rcases step.row hj with ⟨hsame, -⟩ | ⟨_, _, _, _, _, -, -, -, -, hclaimed, -⟩ |
    ⟨_, _, _, _, _, -, -, -, -, hmarked, -⟩
  · exact ⟨j, hsame, .refl⟩
  · exact ⟨_, hclaimed, Job.SameOrder.claimed.symm⟩
  · exact ⟨_, hmarked, Job.SameOrder.marked.symm⟩

/-- A runner that is about to mark was so before, or its handler has just come back. -/
lemma marking_of {r c startedAt outcome rest} (step : Step fleet s e s')
    (snapshots : Snapshots fleet s) (pos : s'.runner r = .marking c startedAt outcome rest) :
    s.runner r = .marking c startedAt outcome rest ∨
      e = .finish r outcome ∧ s.runner r = .handling c startedAt rest := by
  have other {r' st} (moved : Function.update s.runner r' st r = .marking c startedAt outcome rest) :
      r = r' ∧ st = .marking c startedAt outcome rest ∨
        s.runner r = .marking c startedAt outcome rest := by
    by_cases hr : r = r'
    · subst hr
      rw [Function.update_self] at moved
      exact Or.inl ⟨rfl, moved⟩
    · rw [Function.update_of_ne hr] at moved
      exact Or.inr moved
  cases step with
  | enqueue past stmt => exact Or.inl pos
  | @claim r' now scan locked t rows returned replied polls past perm stmt order =>
    rcases other pos with ⟨rfl, hst⟩ | hold
    · split at hst
      · cases hbatch : claimedBatch s.log now returned <;>
          exact RunnerState.noConfusion ((congrArg RunnerState.ofBatch hbatch).symm.trans hst)
      · cases hst
    · exact Or.inl hold
  | start pos' handler =>
    rcases other pos with ⟨rfl, hst⟩ | hold
    · cases hst
    · exact Or.inl hold
  | @skip r' c' rest' pos' noHandler =>
    -- a claim hands out registered kinds only
    have hheld : c' ∈ (s.runner r').held := by
      rw [pos']
      exact List.mem_cons_self
    exact absurd (snapshots r' c' hheld).kind noHandler
  | @finish r' c' startedAt' rest' handled pos' =>
    rcases other pos with ⟨rfl, hst⟩ | hold
    · have hheld : c' ∈ (s.runner r).held := by
        rw [pos']
        exact List.mem_cons_self
      have houtcome : dispatchOutcome (fleet r) c'.job handled = handled := by
        unfold dispatchOutcome
        rw [if_pos (List.contains_iff_mem.mpr (snapshots r c' hheld).kind)]
      rw [houtcome] at hst
      cases hst
      exact Or.inr ⟨rfl, pos'⟩
    · exact Or.inl hold
  | mark pos' call past stmt =>
    rcases other pos with ⟨rfl, hst⟩ | hold
    · rename_i rest' _ _ _ _
      cases rest' <;> cases hst
    · exact Or.inl hold
  | markFailed pos' call =>
    rcases other pos with ⟨rfl, hst⟩ | hold
    · rename_i rest' _ _ _
      cases rest' <;> cases hst
    · exact Or.inl hold
  | crash =>
    rcases other pos with ⟨rfl, hst⟩ | hold
    · cases hst
    · exact Or.inl hold
  | tick le => exact Or.inl pos

end Cluster.Step

/-- What the runners and the table owe to the run so far. -/
structure Books (fleet : ℕ → JobRunner) (t : JobsTable) (ms : List (Move Cluster Event))
    (s : Cluster) : Prop where
  snapshots : Snapshots fleet s
  held : ∀ r, ∀ c ∈ (s.runner r).held, ∃ k, s.table.find? c.job.id = some k ∧ c.job.SameOrder k
  heard : ∀ r c startedAt outcome rest, s.runner r = .marking c startedAt outcome rest →
    Heard fleet ms c.job r c outcome
  kept : ∀ j ∈ t, ∃ k ∈ s.table, j.SameOrder k
  earned : ∀ k ∈ s.table, k ∈ t ∨ Earned fleet ms k
  attempts : ∀ id, attemptsOf s.table id = attemptsOf t id + failures ms id

namespace Books
variable {fleet : ℕ → JobRunner} {t : JobsTable} {ms : List (Move Cluster Event)} {s s' : Cluster}
  {e : Event}

/-- What a runner holds is stored after every step. -/
lemma held_step (books : Books fleet t ms s) (step : Cluster.Step fleet s e s') {r c}
    (hc : c ∈ (s'.runner r).held) :
    ∃ k, s'.table.find? c.job.id = some k ∧ c.job.SameOrder k := by
  rcases step.held r with ⟨hsub, -⟩ | ⟨now, locked, returned, rfl, -, hheld, -⟩
  · obtain ⟨j, hj, hsame⟩ := books.held r c (hsub.subset hc)
    obtain ⟨k, hk, hsame'⟩ := step.sameOrder hj
    exact ⟨k, hk, hsame.trans hsame'⟩
  · rw [hheld] at hc
    exact ⟨c.job, step.claim_spec.2.written _ (mem_claimedBatch hc).1, .refl⟩

/-- A runner has heard what it is about to mark. -/
lemma heard_step (books : Books fleet t ms s) (step : Cluster.Step fleet s e s')
    {r c startedAt outcome rest} (pos : s'.runner r = .marking c startedAt outcome rest) :
    Heard fleet (ms ++ [⟨s, e, s'⟩]) c.job r c outcome := by
  rcases step.marking_of books.snapshots pos with hold | ⟨rfl, hpos⟩
  · exact (books.heard r c startedAt outcome rest hold).snoc
  · have hheld : c ∈ (s.runner r).held := by
      rw [hpos]
      exact List.mem_cons_self
    have hlast : ⟨s, .finish r outcome, s'⟩ ∈ ms ++ [⟨s, .finish r outcome, s'⟩] :=
      List.mem_append_right _ (List.mem_singleton_self _)
    exact ⟨.refl, (books.snapshots r c hheld).kind, _, hlast, rfl, startedAt, rest, hpos⟩

/-- Every row is explained after every step. -/
lemma earned_step (books : Books fleet t ms s) (step : Cluster.Step fleet s e s') {k}
    (hk : k ∈ s'.table) : k ∈ t ∨ Earned fleet (ms ++ [⟨s, e, s'⟩]) k := by
  have hfind := Table.find?_key hk
  cases hbefore : s.table.find? k.id with
  | none =>
    obtain ⟨req, now, rfl, pending, kind, payload, maxAttempts, runAt⟩ := step.born hbefore hfind
    exact Or.inr (Explains.ordered pending kind payload maxAttempts runAt).earned
  | some j =>
    rcases step.row hbefore with ⟨hsame, -⟩ |
      ⟨r, now, locked, returned, replied, rfl, -, -, hret, hclaimed, -⟩ |
      ⟨r, m, now, c, startedAt, rfl, hid, -, hcid, hmarked, -⟩
    · cases hfind.symm.trans hsame
      have hearned := books.earned k (Table.find?_eq_some.mp hbefore).1
      exact hearned.imp_right (Earned.snoc · (hfind.trans hbefore.symm))
    · cases hfind.symm.trans hclaimed
      obtain ⟨k', hk', hkid⟩ := hret
      have hwritten := step.claim_spec.2.written k' hk'
      rw [hkid, hfind] at hwritten
      cases hwritten
      exact Or.inr (Explains.claimed hk' rfl rfl rfl).earned
    · cases hfind.symm.trans hmarked
      obtain ⟨c', startedAt', outcome, rest, utcNow, pos, call, -⟩ := step.mark_inv
      have heard := books.heard r c' startedAt' outcome rest pos
      have hheld : c' ∈ (s.runner r).held := by
        rw [pos]
        exact List.mem_cons_self
      obtain ⟨q, hq, hsame⟩ := books.held r c' hheld
      have hqj : q = j := by
        rw [← dispatchMark_id call, hid, hbefore] at hq
        exact (Option.some.inj hq).symm
      exact Or.inr ((heard.congr (hqj ▸ hsame)).explains call).earned

/-- The attempts grow with the failures that are written. -/
lemma attempts_step (books : Books fleet t ms s) (step : Cluster.Step fleet s e s') (id : Uuid) :
    attemptsOf s'.table id = attemptsOf t id + failures (ms ++ [⟨s, e, s'⟩]) id := by
  have hcount : failures (ms ++ [⟨s, e, s'⟩]) id = failures ms id + if e.fails id then 1 else 0 := by
    unfold failures
    rw [List.countP_append, List.countP_singleton]
  have hbefore := books.attempts id
  suffices hstep : attemptsOf s'.table id = attemptsOf s.table id + if e.fails id then 1 else 0 by
    rw [hstep, hcount, hbefore]
    split <;> omega
  cases e with
  | enqueue id' req now =>
    cases step with
    | enqueue past stmt =>
      rw [attemptsOf_enqueueInTx stmt]
      exact (add_zero _).symm
  | claim r now locked returned replied =>
    rw [step.claim_spec.2.attemptsOf]
    exact (add_zero _).symm
  | mark r m now executed =>
    obtain ⟨c, startedAt, outcome, rest, utcNow, pos, call, -, -, ⟨rfl, -, stmt, -⟩ |
      ⟨rfl, htable, -⟩⟩ := step.mark_inv
    · have hheld : c ∈ (s.runner r).held := by
        rw [pos]
        exact List.mem_cons_self
      obtain ⟨j, hj, -⟩ := books.held r c hheld
      rw [← dispatchMark_id call] at hj
      exact Mark.attemptsOf stmt hj
    · rw [htable]
      have hnot : (Event.mark r m now false).fails id = false := by cases m <;> rfl
      rw [hnot]
      exact (add_zero _).symm
  | start r =>
    cases step
    exact (add_zero _).symm
  | skip r =>
    cases step
    exact (add_zero _).symm
  | finish r handled =>
    cases step
    exact (add_zero _).symm
  | crash r =>
    cases step
    exact (add_zero _).symm
  | tick clock =>
    cases step
    exact (add_zero _).symm

/-- Every step keeps the books. -/
lemma step (books : Books fleet t ms s) (step : Cluster.Step fleet s e s') :
    Books fleet t (ms ++ [⟨s, e, s'⟩]) s' where
  snapshots := step.snapshots books.snapshots
  held _ _ hc := books.held_step step hc
  heard _ _ _ _ _ pos := books.heard_step step pos
  kept j hj := by
    obtain ⟨k, hk, hsame⟩ := books.kept j hj
    obtain ⟨k', hk', hsame'⟩ := step.sameOrder (Table.find?_key hk)
    exact ⟨k', (Table.find?_eq_some.mp hk').1, hsame.trans hsame'⟩
  earned _ hk := books.earned_step step hk
  attempts id := books.attempts_step step id

end Books

/-- At the start the books are empty. -/
lemma Cluster.Initial.books {fleet s} (init : Cluster.Initial s) :
    Books fleet s.table [] s where
  snapshots := init.snapshots
  held r c hc := by simp [init.runner r, RunnerState.held] at hc
  heard r c startedAt outcome rest pos := by
    rw [init.runner r] at pos
    cases pos
  kept j hj := ⟨j, hj, .refl⟩
  earned k hk := Or.inl hk
  attempts id := (add_zero _).symm

/-- What a run owes to its events. -/
lemma books_of_run {fleet s ms s'} (init : Cluster.Initial s)
    (run : Run (Cluster.Step fleet) s ms s') : Books fleet s.table ms s' := by
  induction run with
  | nil => exact init.books
  | snoc _ move ih => exact ih.step move

/-- Over every run of any number of runners no job gets lost or changes its order, every row is as
it was or is explained by the last event of the run that has touched it, and the attempts of a job
have grown by the failures that were written. -/
theorem jobs_accounted {fleet s ms s'} (init : Cluster.Initial s)
    (run : Run (Cluster.Step fleet) s ms s') :
    (∀ j ∈ s.table, ∃ k ∈ s'.table, j.SameOrder k) ∧
    (∀ k ∈ s'.table, k ∈ s.table ∨ Earned fleet ms k) ∧
    ∀ k ∈ s'.table, k.attempts = attemptsOf s.table k.id + failures ms k.id := by
  have books := books_of_run init run
  refine ⟨books.kept, books.earned, ?_⟩
  intro k hk
  rw [← books.attempts k.id, attemptsOf_of_find? (Table.find?_key hk)]

/-- A job that is enqueued, fails once for a time and then succeeds. -/
def retriedRun : List Event :=
  [.enqueue 1 ⟨"email.send", .null, 5, 0⟩ 0,
    .claim 0 0 (fun _ => false) [emailJob.claimed "worker-0" 60000000 0] true,
    .start 0,
    .finish 0 (.error (.retryable "greylisted")),
    .mark 0 (.failedRetry 1 "greylisted" 5000000) 0 true]

/-- The failure of the job is in the account of its run. -/
theorem jobs_accounted_retried :
    ∃ ms s', Run (Cluster.Step emailFleet) (.fresh Table.empty) ms s' ∧
      ms.map Move.label = retriedRun ∧ (s'.table.rows.map Job.attempts = [1]) ∧
      (∀ k ∈ s'.table, k ∈ (Table.empty : JobsTable) ∨ Earned emailFleet ms k) := by
  have hstates : ((Cluster.fresh Table.empty).execs emailFleet (fun _ => true) retriedRun).map
      (fun s => s.table.rows.map Job.attempts) = some [1] := by decide +kernel
  obtain ⟨s, hs, hattempts⟩ := Option.map_eq_some_iff.mp hstates
  obtain ⟨ms, run, hlabels, -⟩ := Cluster.execs_sound hs
  exact ⟨ms, s, run, hlabels, hattempts, (jobs_accounted Cluster.fresh_initial run).2.1⟩

end Egras.Jobs
