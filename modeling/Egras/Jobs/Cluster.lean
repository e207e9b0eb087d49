import Egras.Jobs.Runner
import Egras.Jobs.Store
import Mathlib.Logic.Function.Basic

/-!
# Jobs: runners sharing a table

Any number of runners over one `jobs` table. A runner follows `JobRunner::run`: it polls, takes the
rows a claim returned and dispatches them one after the other; a dispatch starts the handler, waits
for its outcome and makes one `mark_*` call. Runners are numbered; `fleet r` is the configuration of
runner `r`. Between any two steps of a runner the clock may advance, other runners may take theirs,
and the runner's process may end (`crash`, which is the shutdown as well).

A statement may fail without effect (`executed = false`), and the reply of a claim may be lost
although its rows were written (`replied = false`); either way `run` logs the error and goes on.

`JobLog` is bookkeeping that no step reads. It numbers the claims of each job: the *ticket* of a
claimed job is the number of the claim that returned it, so that a runner's lease has been taken
over exactly when its ticket is below `claims`.
-/

namespace Egras.Jobs
open Egras.Lib

/-- A claimed job in the hands of a runner. -/
structure Claimed where
  job : Job
  ticket : ℕ
  claimedAt : Timestamp
deriving DecidableEq

/-- What tells the claims of all jobs apart. -/
def Claimed.key (c : Claimed) : Uuid × ℕ := (c.job.id, c.ticket)

/-- Where a runner is in its loop. -/
inductive RunnerState
  | polling
  | dispatching (rest : List Claimed)
  | handling (c : Claimed) (startedAt : Timestamp) (rest : List Claimed)
  | marking (c : Claimed) (startedAt : Timestamp) (outcome : Outcome) (rest : List Claimed)
  | stopped

namespace RunnerState

/-- The loop over a batch with these jobs left. -/
def ofBatch : List Claimed → RunnerState
  | [] => .polling
  | c :: rest => .dispatching (c :: rest)

/-- The claimed jobs whose dispatch has not begun. -/
def waiting : RunnerState → List Claimed
  | .dispatching rest | .handling _ _ rest | .marking _ _ _ rest => rest
  | _ => []

/-- The claimed job being dispatched, with the time at which its dispatch began. -/
def current : RunnerState → Option (Claimed × Timestamp)
  | .handling c startedAt _ | .marking c startedAt _ _ => some (c, startedAt)
  | _ => none

/-- All claimed jobs in the runner's hands. -/
def held : RunnerState → List Claimed
  | .polling | .stopped => []
  | .dispatching rest => rest
  | .handling c _ rest | .marking c _ _ rest => c :: rest

/-- A runner holds the batch that it has claimed. -/
@[simp] lemma held_ofBatch {rest : List Claimed} : (ofBatch rest).held = rest := by
  cases rest <;> rfl

/-- All of a claimed batch waits. -/
@[simp] lemma waiting_ofBatch {rest : List Claimed} : (ofBatch rest).waiting = rest := by
  cases rest <;> rfl

/-- No job of a claimed batch has started. -/
@[simp] lemma current_ofBatch {rest : List Claimed} : (ofBatch rest).current = none := by
  cases rest <;> rfl

/-- The current job is held. -/
lemma mem_held_of_current {st : RunnerState} {c startedAt}
    (h : st.current = some (c, startedAt)) : c ∈ st.held := by
  cases st <;> simp_all [current, held]

/-- The waiting jobs are held. -/
lemma waiting_sublist {st : RunnerState} : st.waiting.Sublist st.held := by
  cases st <;> simp [waiting, held]

end RunnerState

/-- What happened to a job so far. -/
structure JobLog where
  /-- claims that returned the job -/
  claims : ℕ
  /-- claims among them that took over an expired lease -/
  takeovers : ℕ
  /-- the tickets under which its handler was started -/
  starts : List ℕ
  /-- retries written by the runner with the latest ticket -/
  retries : ℕ
  /-- marks written by a runner whose lease had been taken over -/
  late : ℕ
  /-- whether its handler ever returned `Ok` -/
  okReturned : Bool

/-- The log of a job that was never claimed. -/
def JobLog.empty : JobLog := ⟨0, 0, [], 0, 0, false⟩

/-- The table, the clock, the runners and the log. -/
structure Cluster where
  table : JobsTable
  clock : Timestamp
  runner : ℕ → RunnerState
  log : Uuid → JobLog

/-- The steps, with the values they take from outside. -/
inductive Event
  | enqueue (id : Uuid) (req : EnqueueRequest) (now : Timestamp)
  | claim (r : ℕ) (now : Timestamp) (locked : Uuid → Bool) (returned : List Job) (replied : Bool)
  | start (r : ℕ)
  | skip (r : ℕ)
  | finish (r : ℕ) (handled : Outcome)
  | mark (r : ℕ) (m : Mark) (now : Timestamp) (executed : Bool)
  | crash (r : ℕ)
  | tick (clock : Timestamp)

/-- The runner that takes a step. -/
def Event.runner : Event → Option ℕ
  | .claim r _ _ _ _ | .start r | .skip r | .finish r _ | .mark r _ _ _ | .crash r => some r
  | .enqueue _ _ _ | .tick _ => none

/-- Log a claim that returned these rows of the table. -/
def logClaim (log : Uuid → JobLog) (t : JobsTable) (returned : List Job) (id : Uuid) : JobLog :=
  if returned.any (fun j => j.id = id) then
    { log id with
      claims := (log id).claims + 1
      takeovers := (log id).takeovers +
        if t.any (fun j => j.id = id && j.state = .running) then 1 else 0 }
  else log id

/-- The batch that a claim hands to a runner. -/
def claimedBatch (log : Uuid → JobLog) (now : Timestamp) (returned : List Job) : List Claimed :=
  returned.map (fun j => ⟨j, (log j.id).claims + 1, now⟩)

/-- Log the start of a handler. -/
def logStart (log : Uuid → JobLog) (c : Claimed) : Uuid → JobLog :=
  Function.update log c.job.id
    { log c.job.id with starts := (log c.job.id).starts ++ [c.ticket] }

/-- Log what a handler returned. -/
def logFinish (log : Uuid → JobLog) (c : Claimed) (handled : Outcome) : Uuid → JobLog :=
  Function.update log c.job.id
    { log c.job.id with
      okReturned := (log c.job.id).okReturned || decide (handled = .ok ()) }

/-- Whether the claim of a job has been followed by another one. -/
def Cluster.superseded (s : Cluster) (c : Claimed) : Bool :=
  c.ticket < (s.log c.job.id).claims

/-- Log a mark that was written. -/
def logMark (s : Cluster) (c : Claimed) (m : Mark) : Uuid → JobLog :=
  Function.update s.log c.job.id <|
    if s.superseded c then
      { s.log c.job.id with late := (s.log c.job.id).late + 1 }
    else
      match m with
      | .failedRetry _ _ _ =>
        { s.log c.job.id with retries := (s.log c.job.id).retries + 1 }
      | _ => s.log c.job.id

/-- Let runner `r` move to another place of its loop. -/
def Cluster.setRunner (s : Cluster) (r : ℕ) (st : RunnerState) : Cluster :=
  { s with runner := Function.update s.runner r st }

/-- One step of one party. -/
inductive Cluster.Step (fleet : ℕ → JobRunner) : Cluster → Event → Cluster → Prop
  | enqueue {s id req now t}
      (past : now ≤ s.clock)
      (stmt : enqueueInTx s.table id req now = some t) :
      Step fleet s (.enqueue id req now) { s with table := t }
  | claim {s r now scan locked t rows returned replied}
      (polls : s.runner r = .polling)
      (past : now ≤ s.clock)
      (perm : scan.Perm s.table.rows)
      (stmt : claimDue s.table (fleet r).claimRequest now scan locked = some (t, rows))
      (order : returned.Perm rows) :
      Step fleet s (.claim r now locked returned replied)
        { table := t
          clock := s.clock
          runner := Function.update s.runner r
            (if replied then .ofBatch (claimedBatch s.log now returned) else .polling)
          log := logClaim s.log s.table returned }
  | start {s r c rest}
      (pos : s.runner r = .dispatching (c :: rest))
      (handler : c.job.kind ∈ (fleet r).registeredKinds) :
      Step fleet s (.start r)
        { s.setRunner r (.handling c s.clock rest) with log := logStart s.log c }
  | skip {s r c rest}
      (pos : s.runner r = .dispatching (c :: rest))
      (noHandler : c.job.kind ∉ (fleet r).registeredKinds) :
      Step fleet s (.skip r)
        (s.setRunner r
          (.marking c s.clock (dispatchOutcome (fleet r) c.job (.ok ())) rest))
  | finish {s r c startedAt rest handled}
      (pos : s.runner r = .handling c startedAt rest) :
      Step fleet s (.finish r handled)
        { s.setRunner r
            (.marking c startedAt (dispatchOutcome (fleet r) c.job handled) rest) with
          log := logFinish s.log c handled }
  | mark {s r c startedAt outcome rest utcNow m now t}
      (pos : s.runner r = .marking c startedAt outcome rest)
      (call : dispatchMark (fleet r) c.job outcome utcNow = some m)
      (past : now ≤ s.clock)
      (stmt : m.exec s.table now = some t) :
      Step fleet s (.mark r m now true)
        { table := t
          clock := s.clock
          runner := Function.update s.runner r (.ofBatch rest)
          log := logMark s c m }
  | markFailed {s r c startedAt outcome rest utcNow m now}
      (pos : s.runner r = .marking c startedAt outcome rest)
      (call : dispatchMark (fleet r) c.job outcome utcNow = some m) :
      Step fleet s (.mark r m now false) (s.setRunner r (.ofBatch rest))
  | crash {s r} :
      Step fleet s (.crash r) (s.setRunner r .stopped)
  | tick {s clock}
      (le : s.clock ≤ clock) :
      Step fleet s (.tick clock) { s with clock := clock }

/-- Before the first runner starts: nothing is claimed and nothing is logged. -/
structure Cluster.Initial (s : Cluster) : Prop where
  runner : ∀ r, s.runner r = .polling
  log : ∀ id, s.log id = .empty

/-- The table and the clock of a cluster. -/
def Cluster.store (s : Cluster) : Store := ⟨s.table, s.clock⟩

/-! ## Running the steps -/

/-- The state after an event, for claims that meet the rows in storage order and for hosts whose
clock is right; `none` when the event cannot happen. -/
def Cluster.exec (fleet : ℕ → JobRunner) (s : Cluster) : Event → Option Cluster
  | .enqueue id req now =>
    if now ≤ s.clock then
      (enqueueInTx s.table id req now).map (fun t => { s with table := t })
    else none
  | .claim r now locked returned replied =>
    match s.runner r, claimDue s.table (fleet r).claimRequest now s.table.rows locked with
    | .polling, some (t, rows) =>
      if now ≤ s.clock ∧ returned = rows then
        some
          { table := t
            clock := s.clock
            runner := Function.update s.runner r
              (if replied then .ofBatch (claimedBatch s.log now returned) else .polling)
            log := logClaim s.log s.table returned }
      else none
    | _, _ => none
  | .start r =>
    match s.runner r with
    | .dispatching (c :: rest) =>
      if c.job.kind ∈ (fleet r).registeredKinds then
        some { s.setRunner r (.handling c s.clock rest) with log := logStart s.log c }
      else none
    | _ => none
  | .skip r =>
    match s.runner r with
    | .dispatching (c :: rest) =>
      if c.job.kind ∈ (fleet r).registeredKinds then none
      else
        some (s.setRunner r (.marking c s.clock (dispatchOutcome (fleet r) c.job (.ok ())) rest))
    | _ => none
  | .finish r handled =>
    match s.runner r with
    | .handling c startedAt rest =>
      some
        { s.setRunner r (.marking c startedAt (dispatchOutcome (fleet r) c.job handled) rest) with
          log := logFinish s.log c handled }
    | _ => none
  | .mark r m now executed =>
    match s.runner r with
    | .marking c _ outcome rest =>
      if dispatchMark (fleet r) c.job outcome s.clock = some m then
        if executed then
          if now ≤ s.clock then
            (m.exec s.table now).map (fun t =>
              { table := t
                clock := s.clock
                runner := Function.update s.runner r (.ofBatch rest)
                log := logMark s c m })
          else none
        else some (s.setRunner r (.ofBatch rest))
      else none
    | _ => none
  | .crash r => some (s.setRunner r .stopped)
  | .tick clock => if s.clock ≤ clock then some { s with clock := clock } else none

/-- What `exec` computes is a step. -/
lemma Cluster.exec_sound {fleet s s'} {e : Event} (h : Cluster.exec fleet s e = some s') :
    Cluster.Step fleet s e s' := by
  cases e with
  | enqueue id req now =>
    simp only [exec] at h
    split at h
    · obtain ⟨t, ht, rfl⟩ := Option.map_eq_some_iff.mp h
      exact .enqueue ‹_› ht
    · cases h
  | claim r now locked returned replied =>
    simp only [exec] at h
    split at h
    · rename_i t rows hr hc
      split at h
      · rename_i hcond
        cases h
        obtain ⟨past, rfl⟩ := hcond
        exact .claim hr past (List.Perm.refl _) hc (List.Perm.refl _)
      · cases h
    · cases h
  | start r =>
    simp only [exec] at h
    split at h
    · split at h
      · cases h
        exact .start ‹_› ‹_›
      · cases h
    · cases h
  | skip r =>
    simp only [exec] at h
    split at h
    · split at h
      · cases h
      · cases h
        exact .skip ‹_› ‹_›
    · cases h
  | finish r handled =>
    simp only [exec] at h
    split at h
    · cases h
      exact .finish ‹_›
    · cases h
  | mark r m now executed =>
    simp only [exec] at h
    split at h
    · split at h
      · cases executed with
        | true =>
          simp only [if_true] at h
          split at h
          · obtain ⟨t, ht, rfl⟩ := Option.map_eq_some_iff.mp h
            exact .mark ‹_› ‹_› ‹_› ht
          · cases h
        | false =>
          cases h
          exact .markFailed ‹_› ‹_›
      · cases h
    · cases h
  | crash r =>
    cases h
    exact .crash
  | tick clock =>
    simp only [exec] at h
    split at h
    · cases h
      exact .tick ‹_›
    · cases h

/-- The state after a list of events, all of whose moves pass a check. -/
def Cluster.execs (fleet : ℕ → JobRunner) (check : Move Cluster Event → Bool) (s : Cluster) :
    List Event → Option Cluster
  | [] => some s
  | e :: es => (s.exec fleet e).bind (fun s' =>
    if check ⟨s, e, s'⟩ then s'.execs fleet check es else none)

/-- What `execs` computes is the end of a run with these events. -/
lemma Cluster.execs_sound {fleet check s s'} {es : List Event}
    (h : Cluster.execs fleet check s es = some s') :
    ∃ ms, Run (Cluster.Step fleet) s ms s' ∧ ms.map Move.label = es ∧ ∀ m ∈ ms, check m := by
  induction es generalizing s with
  | nil =>
    cases h
    exact ⟨[], .nil, rfl, by simp⟩
  | cons e es ih =>
    obtain ⟨t, ht, hrest⟩ := Option.bind_eq_some_iff.mp h
    split at hrest
    · rename_i hcheck
      obtain ⟨ms, run, hlabels, hall⟩ := ih hrest
      refine ⟨⟨s, e, t⟩ :: ms, Run.cons (exec_sound ht) run, ?_, ?_⟩
      · rw [List.map_cons, hlabels]
      · intro m hm
        rcases List.mem_cons.mp hm with rfl | hm
        · exact hcheck
        · exact hall m hm
    · cases hrest

/-- A fleet of identical runners for the kind of `emailJob`. -/
def emailFleet (r : ℕ) : JobRunner where
  workerId := if r = 0 then "worker-0" else "worker-1"
  registeredKinds := ["email.send"]
  cfg := .default

/-- A cluster before its first step, with these jobs in the table. -/
def Cluster.fresh (t : JobsTable) : Cluster := ⟨t, 0, fun _ => .polling, fun _ => .empty⟩

/-- A fresh cluster is at its start. -/
lemma Cluster.fresh_initial {t : JobsTable} : (Cluster.fresh t).Initial :=
  ⟨fun _ => rfl, fun _ => rfl⟩

end Egras.Jobs
