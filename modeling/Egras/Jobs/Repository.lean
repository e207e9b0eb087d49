import Egras.Jobs.Model
import Egras.Lib.Table
import Mathlib.Data.List.Sort

/-!
# Jobs: the repository

Port of `jobs/persistence/jobs_repository_pg.rs`: the five statements that write the `jobs` table.
Each is a function of the table, of the statement's `now()` and of its bind parameters; `none` says
that Postgres refuses the statement, which then changes nothing.

Two things are left open by `claim_due`, and are parameters here: the order `scan` in which rows
with the same `run_at` are met, and the rows `locked` by other transactions at that moment, which
`FOR UPDATE SKIP LOCKED` passes over. `now()` is the time at which a statement's transaction began.

`claimDue_spec` and `Mark.exec_find?` say once what each statement can do to the table; later
modules use these and never unfold a statement.

Rust → Lean naming: `enqueue_in_tx` → `enqueueInTx`, `claim_due` → `claimDue`, `mark_done`,
`mark_failed_retry`, `mark_dead` → `markDone`, `markFailedRetry`, `markDead`.
-/

namespace Egras.Jobs
open Egras.Lib

/-- The `jobs` table under its primary key. -/
abbrev JobsTable := Table Job Job.id

/-- Insert a pending job (Rust `enqueue_in_tx`). -/
def enqueueInTx (t : JobsTable) (id : Uuid) (req : EnqueueRequest) (now : Timestamp) :
    Option JobsTable :=
  t.insert?
    { id
      kind := req.kind
      payload := req.payload
      state := .pending
      attempts := 0
      maxAttempts := req.maxAttempts
      runAt := req.runAt
      lockedUntil := none
      lockedBy := none
      lastError := none
      createdAt := now
      updatedAt := now }

/-- The state and time part of the `due` query of `claim_due`. -/
def Job.isDue (j : Job) (now : Timestamp) : Bool :=
  (j.state = .pending && j.runAt ≤ now) ||
    (j.state = .running && j.lockedUntil.any (fun u => u ≤ now))

/-- The parameters of a claim (Rust `claim_due`). -/
structure ClaimRequest where
  workerId : String
  kinds : List String
  visibility : Duration
  limit : ℕ

/-- The `SET` list of the claim: what a claimed row becomes. -/
def Job.claimed (j : Job) (workerId : String) (lockedUntil now : Timestamp) : Job :=
  { j with
    state := .running
    lockedUntil := some lockedUntil
    lockedBy := some workerId
    updatedAt := now }

/-- A claimed job keeps its id. -/
@[simp] lemma Job.claimed_id {j : Job} {workerId lockedUntil now} :
    (j.claimed workerId lockedUntil now).id = j.id := rfl

/-- The lease a claim hands out, in microseconds: `visibility.as_secs() as i64` seconds. -/
def ClaimRequest.lease (req : ClaimRequest) : Int := makeInterval (wrapI64 req.visibility.secs)

/-- Whether the `due` query may select a row: its `WHERE` clause and `SKIP LOCKED`. -/
def ClaimRequest.eligible (req : ClaimRequest) (now : Timestamp) (locked : Uuid → Bool) (j : Job) :
    Bool :=
  req.kinds.contains j.kind && j.isDue now && !locked j.id

/-- The `due` query of the claim: eligible rows by `run_at`, `limit` of them at most. -/
def dueJobs (req : ClaimRequest) (now : Timestamp) (scan : List Job) (locked : Uuid → Bool) :
    List Job :=
  ((scan.filter (req.eligible now locked)).insertionSort (fun j k => j.runAt ≤ k.runAt)).take
    req.limit

/-- Claim due jobs (Rust `claim_due`): the new table and the claimed rows as written. -/
def claimDue (t : JobsTable) (req : ClaimRequest) (now : Timestamp) (scan : List Job)
    (locked : Uuid → Bool) : Option (JobsTable × List Job) :=
  if req.kinds.isEmpty then
    some (t, [])
  else
    let due := dueJobs req now scan locked
    let lockedUntil := now + req.lease
    if !due.isEmpty && !timestampInRange lockedUntil then
      none
    else
      some (t.updateWhere (fun j => due.any (fun d => d.id = j.id))
          (fun j => j.claimed req.workerId lockedUntil now) (fun _ => Job.claimed_id),
        due.map (fun j => j.claimed req.workerId lockedUntil now))

/-- Record success (Rust `mark_done`). -/
def markDone (t : JobsTable) (id : Uuid) (now : Timestamp) : JobsTable :=
  t.updateWhere (fun j => j.id = id) (fun j =>
    { j with state := .done, lockedUntil := none, lockedBy := none, updatedAt := now })

/-- Whether `attempts + 1` overflows the `INT` column of the row with this id. -/
def attemptsOverflow (t : JobsTable) (id : Uuid) : Bool :=
  t.any (fun j => j.id = id && j.attempts = i32Max)

/-- Count the attempt and schedule the next one (Rust `mark_failed_retry`). -/
def markFailedRetry (t : JobsTable) (id : Uuid) (error : String) (nextRunAt now : Timestamp) :
    Option JobsTable :=
  if attemptsOverflow t id then
    none
  else
    some (t.updateWhere (fun j => j.id = id) (fun j =>
      { j with
        state := .pending
        attempts := j.attempts + 1
        lastError := some error
        runAt := nextRunAt
        lockedUntil := none
        lockedBy := none
        updatedAt := now }))

/-- Count the attempt and give the job up (Rust `mark_dead`). -/
def markDead (t : JobsTable) (id : Uuid) (error : String) (now : Timestamp) : Option JobsTable :=
  if attemptsOverflow t id then
    none
  else
    some (t.updateWhere (fun j => j.id = id) (fun j =>
      { j with
        state := .dead
        attempts := j.attempts + 1
        lastError := some error
        lockedUntil := none
        lockedBy := none
        updatedAt := now }))

/-- A call to one of the three `mark_*` statements. -/
inductive Mark
  | done (id : Uuid)
  | failedRetry (id : Uuid) (error : String) (nextRunAt : Timestamp)
  | dead (id : Uuid) (error : String)
deriving DecidableEq

namespace Mark

/-- The job a mark is about. -/
def id : Mark → Uuid
  | .done id | .failedRetry id _ _ | .dead id _ => id

/-- Run the statement of a mark. -/
def exec (t : JobsTable) (now : Timestamp) : Mark → Option JobsTable
  | .done id => some (markDone t id now)
  | .failedRetry id error nextRunAt => markFailedRetry t id error nextRunAt now
  | .dead id error => markDead t id error now

/-- What the statement of a mark makes of the row it is about. -/
def apply (m : Mark) (now : Timestamp) (j : Job) : Job :=
  match m with
  | .done _ => { j with state := .done, lockedUntil := none, lockedBy := none, updatedAt := now }
  | .failedRetry _ error nextRunAt =>
    { j with
      state := .pending
      attempts := j.attempts + 1
      lastError := some error
      runAt := nextRunAt
      lockedUntil := none
      lockedBy := none
      updatedAt := now }
  | .dead _ error =>
    { j with
      state := .dead
      attempts := j.attempts + 1
      lastError := some error
      lockedUntil := none
      lockedBy := none
      updatedAt := now }

/-- A mark leaves the id of a job. -/
@[simp] lemma apply_id {m : Mark} {now j} : (m.apply now j).id = j.id := by
  cases m <;> rfl

/-- A mark leaves the kind of a job. -/
@[simp] lemma apply_kind {m : Mark} {now j} : (m.apply now j).kind = j.kind := by
  cases m <;> rfl

/-- A mark leaves the attempts that a job has. -/
@[simp] lemma apply_maxAttempts {m : Mark} {now j} :
    (m.apply now j).maxAttempts = j.maxAttempts := by
  cases m <;> rfl

/-- Every mark clears both lock columns. -/
lemma apply_unlocked {m : Mark} {now j} :
    (m.apply now j).lockedUntil = none ∧ (m.apply now j).lockedBy = none := by
  cases m <;> exact ⟨rfl, rfl⟩

/-- No mark leaves a job running. -/
lemma apply_state_ne {m : Mark} {now j} : (m.apply now j).state ≠ .running := by
  cases m <;> exact JobState.noConfusion

/-- A mark that runs rewrites the row it is about and no other. -/
lemma exec_eq {t t' : JobsTable} {m : Mark} {now} (h : m.exec t now = some t') :
    t' = t.updateWhere (fun j => j.id = m.id) (m.apply now) (fun _ => apply_id) := by
  cases m with
  | done id =>
    cases h
    rfl
  | failedRetry id error nextRunAt =>
    simp only [exec, markFailedRetry] at h
    split at h
    · cases h
    · cases h
      rfl
  | dead id error =>
    simp only [exec, markDead] at h
    split at h
    · cases h
    · cases h
      rfl

/-- What is stored under a key after a mark. -/
lemma exec_find? {t t' : JobsTable} {m : Mark} {now k} (h : m.exec t now = some t') :
    t'.find? k = (t.find? k).map (fun j => if j.id = m.id then m.apply now j else j) := by
  rw [exec_eq h, Table.find?_updateWhere]
  simp

/-- A mark does not touch the other rows. -/
lemma exec_find?_ne {t t' : JobsTable} {m : Mark} {now k} (h : m.exec t now = some t')
    (hk : k ≠ m.id) : t'.find? k = t.find? k := by
  rw [exec_find? h]
  cases hf : t.find? k with
  | none => rfl
  | some j =>
    have hj := (Table.find?_eq_some.mp hf).2
    simp [hj, hk]

/-- What becomes of the row a mark is about. -/
lemma exec_find?_self {t t' : JobsTable} {m : Mark} {now} (h : m.exec t now = some t') :
    t'.find? m.id = (t.find? m.id).map (m.apply now) := by
  rw [exec_find? h]
  cases hf : t.find? m.id with
  | none => rfl
  | some j =>
    have hj := (Table.find?_eq_some.mp hf).2
    simp [hj]

end Mark

/-- A due row is pending and past its `run_at` or running under an expired lease. -/
lemma Job.isDue_iff {j : Job} {now} :
    j.isDue now ↔ (j.state = .pending ∧ j.runAt ≤ now) ∨
      (j.state = .running ∧ ∃ u, j.lockedUntil = some u ∧ u ≤ now) := by
  cases h : j.lockedUntil <;> simp [Job.isDue, h]

section Claim
variable {t t' : JobsTable} {req : ClaimRequest} {now : Timestamp} {scan returned : List Job}
  {locked : Uuid → Bool}

/-- The rows the `due` query selects are stored, eligible and not locked by others. -/
lemma mem_dueJobs (perm : scan.Perm t.rows) {j} (h : j ∈ dueJobs req now scan locked) :
    j ∈ t ∧ j.kind ∈ req.kinds ∧ j.isDue now ∧ locked j.id = false := by
  have hf := (List.mem_insertionSort _).mp (List.mem_of_mem_take h)
  obtain ⟨hs, hp⟩ := List.mem_filter.mp hf
  simp only [ClaimRequest.eligible, Bool.and_eq_true, List.contains_iff_mem, Bool.not_eq_true'] at hp
  exact ⟨perm.mem_iff.mp hs, hp.1.1, hp.1.2, hp.2⟩

/-- No row is selected twice. -/
lemma nodup_dueJobs (perm : scan.Perm t.rows) :
    ((dueJobs req now scan locked).map Job.id).Nodup := by
  have hscan : (scan.map Job.id).Nodup := (perm.map _).nodup_iff.mpr t.nodup
  have hfilter : ((scan.filter (req.eligible now locked)).map Job.id).Nodup :=
    (List.filter_sublist.map Job.id).nodup hscan
  have hsort := ((List.perm_insertionSort (fun j k : Job => j.runAt ≤ k.runAt) _).map
    Job.id).nodup_iff.mpr hfilter
  exact ((List.take_sublist _ _).map Job.id).nodup hsort

/-- An eligible row is selected whenever the limit covers all eligible rows. -/
lemma mem_dueJobs_of_limit (perm : scan.Perm t.rows) {j} (hj : j ∈ t) (hk : j.kind ∈ req.kinds)
    (hd : j.isDue now) (hl : locked j.id = false)
    (hlim : (t.select (req.eligible now locked)).length ≤ req.limit) :
    j ∈ dueJobs req now scan locked := by
  unfold dueJobs
  rw [List.take_of_length_le]
  · rw [List.mem_insertionSort, List.mem_filter]
    exact ⟨perm.mem_iff.mpr hj, by simp [ClaimRequest.eligible, hk, hd, hl]⟩
  · rw [List.length_insertionSort, (perm.filter _).length_eq]
    exact hlim

/-- Nothing is due when no job is eligible or none is asked for. -/
lemma dueJobs_eq_nil (perm : scan.Perm t.rows) :
    dueJobs req now scan locked = [] ↔
      (∀ j ∈ t, req.eligible now locked j = false) ∨ req.limit = 0 := by
  have hsort : (scan.filter (req.eligible now locked)).insertionSort
      (fun j k => j.runAt ≤ k.runAt) = [] ↔ ∀ j ∈ t, req.eligible now locked j = false := by
    rw [← List.length_eq_zero_iff, List.length_insertionSort, List.length_eq_zero_iff,
      List.filter_eq_nil_iff]
    constructor
    · intro h j hj
      simpa using h j (perm.mem_iff.mpr hj)
    · intro h j hj
      simpa using h j (perm.mem_iff.mp hj)
  unfold dueJobs
  rw [List.take_eq_nil_iff, hsort]
  exact or_comm

/-- What a claim does: the rows it returns are distinct, at most `limit`, each an eligible row
rewritten by the claim; the table holds them as returned and every other row as before. -/
structure ClaimSpec (t : JobsTable) (req : ClaimRequest) (now : Timestamp) (locked : Uuid → Bool)
    (t' : JobsTable) (returned : List Job) : Prop where
  length_le : returned.length ≤ req.limit
  empty_iff : returned = [] ↔ (∀ j ∈ t, req.eligible now locked j = false) ∨ req.limit = 0
  nodup : (returned.map Job.id).Nodup
  eligible : ∀ j ∈ returned, ∃ q, t.find? j.id = some q ∧ q.kind ∈ req.kinds ∧ q.isDue now ∧
    locked q.id = false ∧ j = q.claimed req.workerId (now + req.lease) now
  written : ∀ j ∈ returned, t'.find? j.id = some j
  frame : ∀ k, (∀ j ∈ returned, j.id ≠ k) → t'.find? k = t.find? k

/-- Every claim that Postgres accepts meets `ClaimSpec`. -/
lemma claimDue_spec (perm : scan.Perm t.rows)
    (h : claimDue t req now scan locked = some (t', returned)) :
    ClaimSpec t req now locked t' returned := by
  unfold claimDue at h
  split at h
  · rename_i hkinds
    cases h
    -- a worker that handles no kind claims nothing
    have hnone : ∀ j ∈ t, req.eligible now locked j = false := by
      intro j _
      simp [ClaimRequest.eligible, List.isEmpty_iff.mp hkinds]
    exact ⟨by simp, iff_of_true rfl (Or.inl hnone), by simp, by simp, by simp, fun _ _ => rfl⟩
  · simp only at h
    split at h
    · cases h
    · obtain ⟨rfl, rfl⟩ := Prod.mk.inj (Option.some.inj h)
      have hmap : (dueJobs req now scan locked).map
          (Job.id ∘ fun j => j.claimed req.workerId (now + req.lease) now) =
          (dueJobs req now scan locked).map Job.id := rfl
      refine ⟨?_, ?_, ?_, ?_, ?_, ?_⟩
      · rw [List.length_map, dueJobs]
        exact List.length_take_le _ _
      · rw [List.map_eq_nil_iff]
        exact dueJobs_eq_nil perm
      · rw [List.map_map, hmap]
        exact nodup_dueJobs perm
      · intro j hj
        obtain ⟨q, hq, rfl⟩ := List.mem_map.mp hj
        obtain ⟨ht, hk, hd, hl⟩ := mem_dueJobs perm hq
        exact ⟨q, Table.find?_key ht, hk, hd, hl, rfl⟩
      · intro j hj
        obtain ⟨q, hq, rfl⟩ := List.mem_map.mp hj
        have ht := (mem_dueJobs perm hq).1
        have hsel : (dueJobs req now scan locked).any (fun d => d.id = q.id) = true :=
          List.any_eq_true.mpr ⟨q, hq, by simp⟩
        have hfind : t.find? (q.claimed req.workerId (now + req.lease) now).id = some q :=
          Table.find?_key ht
        rw [Table.find?_updateWhere, hfind, Option.map_some, if_pos hsel]
      · intro k hk
        rw [Table.find?_updateWhere]
        cases hf : t.find? k with
        | none => rfl
        | some q =>
          have hqk := (Table.find?_eq_some.mp hf).2
          have hsel : (dueJobs req now scan locked).any (fun d => d.id = q.id) = false := by
            refine List.any_eq_false.mpr (fun d hd he => ?_)
            refine hk _ (List.mem_map_of_mem hd) ?_
            simpa [Job.claimed, hqk] using he
          rw [Option.map_some, hsel]
          rfl

end Claim
end Egras.Jobs
