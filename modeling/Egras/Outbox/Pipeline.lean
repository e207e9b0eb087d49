import Egras.Jobs.Accounts
import Egras.Outbox.HandOff

/-!
# From an event to its handler

Relayers, transactions that append events and job runners on one database. The two models of the jobs
meet here: what the outbox takes for granted of the jobs (`OtherWork`) is what the runners do, and the
commit of a tick is, for the runners, an enqueue of each of its jobs. A run of the pipeline is therefore
a run of the outbox (`Pipeline.Step.outbox`) and one of the cluster (`Pipeline.Step.cluster`), so that
both accounts hold of it at once: of each relayed event there is one job, and that job is done or dead
only after a handler for the type of the event came back from the payload of the event
(`events_handled`).
-/

namespace Egras.Outbox
open Egras.Lib Egras.Jobs

/-- The transactions on the outbox, the runners, and what is noted of the jobs. -/
structure Pipeline (ι : Type) where
  pool : Pool ι (OutboxState ι) OutboxPos
  runner : ℕ → RunnerState
  log : Uuid → JobLog

/-- A turn of a transaction on the outbox, or a step of the cluster. -/
inductive PipelineEvent (ι : Type)
  | outbox (turn : Turn ι)
  | work (e : Event)

namespace Pipeline
variable {ι : Type}

/-- What the runners work on. -/
def cluster (P : Pipeline ι) : Cluster where
  table := P.pool.state.jobs
  clock := P.pool.state.now
  runner := P.runner
  log := P.log

/-- The database after a step of the cluster. -/
def workedOn (d : OutboxState ι) (s : Cluster) : OutboxState ι :=
  { d with jobs := s.table, now := s.clock }

/-- One step. A job is not enqueued under an identifier that an open transaction has inserted: the
statement waits for the end of that transaction. -/
inductive Step [DecidableEq ι] (fleet : ℕ → JobRunner) :
    Pipeline ι → PipelineEvent ι → Pipeline ι → Prop
  | outbox {P turn pool} (own : turn ≠ .elsewhere)
      (step : Pool.Step (outboxSystem ι) P.pool turn pool) :
      Step fleet P (.outbox turn) { P with pool := pool }
  | work {P e s} (step : Cluster.Step fleet P.cluster e s)
      (free : ∀ id req now, e = .enqueue id req now → ∀ i, ¬ P.pool.state.locks.Holds i (.job id)) :
      Step fleet P (.work e) ⟨P.pool.push (workedOn P.pool.state s), s.runner, s.log⟩

/-- Empty tables, no transaction and runners that poll. -/
def start (now : Timestamp) (uuids : List Uuid) : Pipeline ι where
  pool := .idle ι OutboxPos ⟨.empty, .empty, fun _ => none, .free, now, uuids⟩
  runner := fun _ => .polling
  log := fun _ => .empty

end Pipeline

/-! ## The outbox -/

section Pool
variable {ι : Type} {fleet : ℕ → JobRunner}

/-- What the runners do is other work. -/
lemma otherWork_step {d : OutboxState ι} {s s' : Cluster} {e : Event}
    (step : Cluster.Step fleet s e s') (table : s.table = d.jobs)
    (free : ∀ id req now, e = .enqueue id req now → ∀ i, ¬ d.locks.Holds i (.job id)) :
    OtherWork d (Pipeline.workedOn d s') := by
  have hwork : OtherWork d { d with jobs := s'.table } := by
    rcases step.store with hsame | ⟨op, hop, hlabel⟩
    · rw [← show s.table = s'.table from congrArg Store.table hsame, table]
      exact ⟨rfl, rfl, rfl, fun j hj => ⟨j, hj, rfl, rfl, rfl⟩, fun k hk => Or.inl ⟨k, hk, rfl⟩⟩
    · exact otherWork_store hop table fun id req now he => free id req now (hlabel id req now he)
  exact ⟨hwork.outbox, hwork.source, hwork.locks, hwork.kept, hwork.added⟩

variable [DecidableEq ι]

/-- A step of the pipeline is one of the transactions on the outbox. -/
lemma Pipeline.Step.pool {P Q : Pipeline ι} {e} (step : Pipeline.Step fleet P e Q) :
    ∃ turn, Pool.Step (outboxSystem ι) P.pool turn Q.pool := by
  cases step with
  | outbox own step => exact ⟨_, step⟩
  | work step free => exact ⟨_, .elsewhere (otherWork_step step rfl free)⟩

end Pool

/-! ## The runners -/

section Cluster
variable {ι : Type} {d d' : OutboxState ι} {i : ι}

/-- The time of a transaction that has begun is past, and the jobs that it has created are pending jobs
of that time. -/
def Dated (d : OutboxState ι) : OutboxPos → Prop
  | .ticking _ (.claiming start _ _) => start ≤ d.now
  | .ticking _ (.enqueue start _ _ created) | .ticking _ (.mark start _ created)
  | .ticking _ (.commit start _ created) =>
    start ≤ d.now ∧ ∀ c ∈ created, ∃ req, c.2 = pendingJob c.2.id req start
  | _ => True

/-- What is past stays past. -/
lemma Dated.later {p : OutboxPos} (h : Dated d p) (now : d.now ≤ d'.now) : Dated d' p := by
  unfold Dated at h ⊢
  split at h
  · exact le_trans h now
  · exact ⟨le_trans h.1 now, h.2⟩
  · exact ⟨le_trans h.1 now, h.2⟩
  · exact ⟨le_trans h.1 now, h.2⟩
  · trivial

/-- A transaction that begins has no time yet. -/
lemma dated_of_starts {p : OutboxPos} (h : p.starts = true) : Dated d p := by
  unfold OutboxPos.starts at h
  split at h
  · trivial
  · trivial
  · cases h

/-- A step of a transaction keeps the clock, and the jobs but for the commit of a tick. -/
structure Commits (d : OutboxState ι) (p : OutboxPos) (q : OutboxPos) (d' : OutboxState ι) : Prop where
  now : d'.now = d.now
  dated : Dated d p → Dated d' q
  jobs : d'.jobs = d.jobs ∨ ∃ cfg start events created,
    p = .ticking cfg (.commit start events created) ∧ d'.jobs = d.jobs.insertAll (created.map Prod.snd)

variable [DecidableEq ι]

/-- A tick whose claim is complete has changed nothing yet. -/
lemma commits_claimed {cfg : OutboxRelayerConfig} {p : OutboxPos} {start : Timestamp}
    {events : List OutboxEvent} {q : TickPos} (h : claimed i start events d = (q, d'))
    (past : Dated d p → start ≤ d.now) : Commits d p (.ticking cfg q) d' := by
  unfold claimed at h
  split at h
  · cases h
    exact ⟨rfl, fun _ => trivial, Or.inl rfl⟩
  · cases h
    exact ⟨rfl, fun hp => ⟨past hp, by simp⟩, Or.inl rfl⟩

/-- A step of a tick changes the jobs by its commit only. -/
lemma commits_tickNext {cfg : OutboxRelayerConfig} {p q : TickPos}
    (h : tickNext cfg i p d = some (q, d')) : Commits d (.ticking cfg p) (.ticking cfg q) d' := by
  cases p with
  | claim =>
    cases h
    exact ⟨rfl, fun _ => le_rfl, Or.inl rfl⟩
  | claiming start rows events =>
    cases rows with
    | nil => exact commits_claimed (Option.some.inj h) id
    | cons r rows =>
      simp only [tickNext] at h
      split at h
      · exact commits_claimed (Option.some.inj h) id
      split at h
      · split at h
        · cases h
          exact ⟨rfl, id, Or.inl rfl⟩
        · cases h
          exact ⟨rfl, id, Or.inl rfl⟩
      · cases h
        exact ⟨rfl, id, Or.inl rfl⟩
  | enqueue start events todo created =>
    cases todo with
    | nil =>
      cases h
      exact ⟨rfl, id, Or.inl rfl⟩
    | cons e todo =>
      simp only [tickNext] at h
      split at h
      · split at h
        · cases h
          exact ⟨rfl, fun _ => trivial, Or.inl rfl⟩
        · cases h
          refine ⟨rfl, ?_, Or.inl rfl⟩
          rintro ⟨past, hcreated⟩
          refine ⟨past, List.forall_mem_append.mpr ⟨hcreated, ?_⟩⟩
          exact List.forall_mem_singleton.mpr ⟨_, rfl⟩
      · cases h
  | mark start events created =>
    cases h
    exact ⟨rfl, id, Or.inl rfl⟩
  | commit start events created =>
    cases h
    exact ⟨rfl, fun _ => trivial, Or.inr ⟨cfg, start, events, created, rfl, rfl⟩⟩
  | done r => cases h

/-- A step of an appending transaction leaves the jobs alone. -/
lemma commits_appendNext {p q : AppendPos} (h : appendNext i p d = some (q, d')) :
    Commits d (.appending p) (.appending q) d' := by
  cases p with
  | start reqs =>
    cases h
    exact ⟨rfl, fun _ => trivial, Or.inl rfl⟩
  | insert start reqs appended =>
    cases reqs with
    | nil =>
      cases h
      exact ⟨rfl, fun _ => trivial, Or.inl rfl⟩
    | cons req reqs =>
      simp only [appendNext] at h
      split at h
      · split at h
        · cases h
          exact ⟨rfl, fun _ => trivial, Or.inl rfl⟩
        · cases h
          exact ⟨rfl, fun _ => trivial, Or.inl rfl⟩
      · cases h
  | commit appended =>
    cases h
    exact ⟨rfl, fun _ => trivial, Or.inl rfl⟩
  | done r => cases h

/-- Every step changes the jobs by the commit of a tick only. -/
lemma OutboxStep.commits {p q : OutboxPos} (h : OutboxStep i p d q d') : Commits d p q d' := by
  cases h with
  | next h =>
    cases p with
    | ticking cfg p =>
      obtain ⟨⟨q, d₁⟩, hnext, heq⟩ := Option.map_eq_some_iff.mp h
      cases heq
      exact commits_tickNext hnext
    | appending p =>
      obtain ⟨⟨q, d₁⟩, hnext, heq⟩ := Option.map_eq_some_iff.mp h
      cases heq
      exact commits_appendNext hnext
  | drops _ =>
    refine ⟨rfl, fun _ => ?_, Or.inl rfl⟩
    cases p with
    | ticking cfg p => exact trivial
    | appending p => exact trivial

/-- All transactions of a pipeline are dated. -/
def Pipeline.Dated (P : Pipeline ι) : Prop :=
  ∀ i c, P.pool.calls i = some c → Outbox.Dated P.pool.state c.pos

/-- The rows of a commit are enqueued one after the other. -/
lemma run_insertAll {fleet : ℕ → JobRunner} {s : Cluster} {start : Timestamp} {rows : List Job}
    (past : start ≤ s.clock) (pending : ∀ k ∈ rows, ∃ req, k = pendingJob k.id req start) :
    ∃ ms, Run (Cluster.Step fleet) s ms { s with table := s.table.insertAll rows } ∧
      ∀ m ∈ ms, ∃ id req now, m.label = .enqueue id req now := by
  induction rows generalizing s with
  | nil => exact ⟨[], .nil, by simp⟩
  | cons k rows ih =>
    obtain ⟨hk, hrows⟩ := List.forall_mem_cons.mp pending
    unfold Table.insertAll
    cases stmt : s.table.insert? k with
    | none => exact ih past hrows
    | some t =>
      obtain ⟨req, hreq⟩ := hk
      have step : Cluster.Step fleet s (.enqueue k.id req start) { s with table := t } := by
        apply Cluster.Step.enqueue past
        rw [enqueueInTx_eq, ← hreq]
        exact stmt
      obtain ⟨ms, run, henqueues⟩ := @ih { s with table := t } past hrows
      refine ⟨_, run.cons step, ?_⟩
      intro m hm
      rcases List.mem_cons.mp hm with rfl | hm
      · exact ⟨k.id, req, start, rfl⟩
      · exact henqueues m hm

end Cluster

/-! ## Both at once -/

section Steps
variable {ι : Type} [DecidableEq ι] {fleet : ℕ → JobRunner} {P Q : Pipeline ι} {e : PipelineEvent ι}

/-- A move of the cluster in a step of the pipeline: the enqueue of a tick's job, or the step itself. -/
def Shows (P : Pipeline ι) (e : PipelineEvent ι) (Q : Pipeline ι) (m : Move Cluster Event) : Prop :=
  (∃ id req now, m.label = .enqueue id req now) ∨
    e = .work m.label ∧ P.cluster = m.pre ∧ Q.cluster = m.post

/-- A step of the pipeline is some steps of the runners. -/
lemma Pipeline.Step.cluster (step : Pipeline.Step fleet P e Q) (dated : P.Dated) :
    ∃ ms, Run (Cluster.Step fleet) P.cluster ms Q.cluster ∧ ∀ m ∈ ms, Shows P e Q m := by
  cases step with
  | @outbox turn pool own step =>
    -- only the commit of a tick is seen by the runners
    have hsame (state : pool.state = P.pool.state) :
        ∃ ms, Run (Cluster.Step fleet) P.cluster ms (Pipeline.cluster { P with pool := pool }) ∧
          ∀ m ∈ ms, Shows P (.outbox turn) { P with pool := pool } m := by
      refine ⟨[], ?_, by simp⟩
      unfold Pipeline.cluster
      rw [state]
      exact .nil
    cases step.cause with
    | begins i hturn state => exact hsame state
    | elsewhere hturn env => exact absurd hturn own
    | moved i b c hturn there here move hcall =>
      have hcommits := OutboxStep.commits move
      have hdated := dated i b there
      rcases hcommits.jobs with hjobs | ⟨cfg, start, events, created, hpos, hjobs⟩
      · refine ⟨[], ?_, by simp⟩
        unfold Pipeline.cluster
        rw [hjobs, hcommits.now]
        exact .nil
      · rw [hpos] at hdated
        obtain ⟨past, hcreated⟩ := hdated
        have hpending : ∀ k ∈ created.map Prod.snd, ∃ req, k = pendingJob k.id req start := by
          intro k hk
          obtain ⟨c, hc, rfl⟩ := List.mem_map.mp hk
          exact hcreated c hc
        obtain ⟨ms, run, henqueues⟩ := @run_insertAll fleet P.cluster start _ past hpending
        refine ⟨ms, ?_, fun m hm => Or.inl (henqueues m hm)⟩
        have hcluster : Pipeline.cluster { P with pool := pool } =
            { P.cluster with table := P.cluster.table.insertAll (created.map Prod.snd) } := by
          unfold Pipeline.cluster
          rw [hjobs, hcommits.now]
        rw [hcluster]
        exact run
  | @work e s step free =>
    have hcluster : Pipeline.cluster ⟨P.pool.push (Pipeline.workedOn P.pool.state s), s.runner, s.log⟩ =
        s := by
      unfold Pipeline.cluster
      rw [Pool.push_state]
      rfl
    refine ⟨[⟨P.cluster, e, s⟩], ?_, ?_⟩
    · rw [hcluster]
      exact .single step
    · intro m hm
      cases List.mem_singleton.mp hm
      exact Or.inr ⟨rfl, rfl, hcluster⟩

/-- Transactions stay dated. -/
lemma Pipeline.Step.dated (step : Pipeline.Step fleet P e Q) (dated : P.Dated) : Q.Dated := by
  cases step with
  | outbox own step =>
    intro i c hc
    cases step.cause with
    | elsewhere hturn env => exact absurd hturn own
    | begins j hturn state =>
      cases step.call hc with
      | same hold => exact (dated i c hold).later (le_of_eq (congrArg OutboxState.now state.symm))
      | opened hturn' free starts hcall state' => exact dated_of_starts starts
      | moved hturn' =>
        cases hturn.symm.trans hturn'
    | moved j b c' hturn there here move hcall =>
      have hcommits := OutboxStep.commits move
      by_cases hij : i = j
      · subst hij
        cases here.symm.trans hc
        exact hcommits.dated (dated i b there)
      · cases step.call hc with
        | same hold => exact (dated i c hold).later (le_of_eq hcommits.now.symm)
        | opened hturn' free starts hcall' state' => exact dated_of_starts starts
        | moved hturn' =>
          cases hturn.symm.trans hturn'
          exact absurd rfl hij
  | @work e s step free =>
    intro i c hc
    refine (dated i c hc).later ?_
    show P.pool.state.now ≤ (P.pool.push _).state.now
    rw [Pool.push_state]
    exact step.clock_le

end Steps

section Runs
variable {ι : Type} [DecidableEq ι] {fleet : ℕ → JobRunner} {P Q : Pipeline ι}
  {ms : List (Move (Pipeline ι) (PipelineEvent ι))}

/-- A run of the pipeline is one of the runners, and every step of theirs but an enqueue is a step of
the pipeline. -/
lemma cluster_run (run : Run (Pipeline.Step fleet) P ms Q) (dated : P.Dated) :
    Q.Dated ∧ ∃ ns, Run (Cluster.Step fleet) P.cluster ns Q.cluster ∧
      ∀ n ∈ ns, ∃ m ∈ ms, Shows m.pre m.label m.post n := by
  induction run with
  | nil => exact ⟨dated, [], .nil, by simp⟩
  | @snoc ms R e Q run move ih =>
    obtain ⟨hdated, ns, hns, hshown⟩ := ih
    obtain ⟨ks, hks, hlast⟩ := move.cluster hdated
    refine ⟨move.dated hdated, ns ++ ks, hns.append hks, ?_⟩
    intro n hn
    rcases List.mem_append.mp hn with hn | hn
    · obtain ⟨m, hm, hshows⟩ := hshown n hn
      exact ⟨m, List.mem_append_left _ hm, hshows⟩
    · exact ⟨_, List.mem_append_right _ (List.mem_singleton_self _), hlast n hn⟩

/-- A run of the pipeline is one of the transactions on the outbox. -/
lemma pool_run (run : Run (Pipeline.Step fleet) P ms Q) :
    ∃ ns, Run (Pool.Step (outboxSystem ι)) P.pool ns Q.pool := by
  induction run with
  | nil => exact ⟨[], .nil⟩
  | snoc run move ih =>
    obtain ⟨ns, hns⟩ := ih
    obtain ⟨turn, step⟩ := move.pool
    exact ⟨_, hns.snoc step⟩

omit [DecidableEq ι] in
/-- The pipeline starts with idle runners. -/
lemma start_initial {now : Timestamp} {uuids : List Uuid} :
    (Pipeline.start now uuids : Pipeline ι).cluster.Initial :=
  ⟨fun _ => rfl, fun _ => rfl⟩

omit [DecidableEq ι] in
/-- At the start no transaction has begun. -/
lemma start_dated {now : Timestamp} {uuids : List Uuid} :
    (Pipeline.start now uuids : Pipeline ι).Dated :=
  fun _ _ hc => nomatch hc

end Runs

/-- A handler comes back from an event: a runner had claimed a job, found a handler for the type of the
event and called it with the payload of the event. -/
def Handled {ι : Type} (fleet : ℕ → JobRunner) (ms : List (Move (Pipeline ι) (PipelineEvent ι)))
    (e : OutboxEvent) (id : Uuid) (handled : Jobs.Outcome) : Prop :=
  ∃ m ∈ ms, ∃ r c startedAt rest, m.label = .work (.finish r handled) ∧
    m.pre.runner r = .handling c startedAt rest ∧ e.eventType ∈ (fleet r).registeredKinds ∧
    c.job.id = id ∧ c.job.kind = e.eventType ∧ c.job.payload = e.payload

/-- A job that was heard of in the cluster is handled in the pipeline. -/
lemma Handled.of_heard {ι : Type} {fleet : ℕ → JobRunner}
    {ms : List (Move (Pipeline ι) (PipelineEvent ι))} {ns : List (Move Cluster Event)}
    {e : OutboxEvent} {k : Job} {r c handled}
    (heard : Heard fleet ns k r c handled)
    (shown : ∀ n ∈ ns, ∃ m ∈ ms, Shows m.pre m.label m.post n) (kind : k.kind = e.eventType)
    (payload : k.payload = e.payload) : Handled fleet ms e k.id handled := by
  obtain ⟨hsame, hkind, n, hn, hlabel, startedAt, rest, pos⟩ := heard
  obtain ⟨m, hm, ⟨id, req, now, henqueue⟩ | ⟨hwork, hpre, -⟩⟩ := shown n hn
  · cases hlabel.symm.trans henqueue
  · refine ⟨m, hm, r, c, startedAt, rest, ?_, ?_, kind ▸ hkind, hsame.id, hsame.kind.trans kind,
      hsame.payload.trans payload⟩
    · rw [hwork, hlabel]
    · rw [← hpre] at pos
      exact pos

section Handles
variable {ι : Type} [DecidableEq ι] {fleet : ℕ → JobRunner} {now : Timestamp} {uuids : List Uuid}
  {Q : Pipeline ι} {ms : List (Move (Pipeline ι) (PipelineEvent ι))}

/-- From empty tables each relayed event is handed off to one job. -/
lemma handedOff_run (run : Run (Pipeline.Step fleet) (.start now uuids) ms Q) :
    HandedOff Q.pool.state := by
  obtain ⟨turns, hpool⟩ := pool_run run
  have fresh : Fresh (⟨.empty, .empty, fun _ => none, .free, now, uuids⟩ : OutboxState ι) :=
    ⟨rfl, fun _ => rfl⟩
  exact (outboxSystem_cooperates.sound_run hpool (Pool.sound_idle fresh.linked)).state.handedOff

/-- A job of an event that is done or dead has been handled. -/
lemma handled_run (run : Run (Pipeline.Step fleet) (.start now uuids) ms Q) {e : OutboxEvent}
    (he : e ∈ Q.pool.state.outbox) {k : Job} (hk : k ∈ Q.pool.state.jobs)
    (hsource : Q.pool.state.source k.id = some e.id) :
    (k.state = .done → Handled fleet ms e k.id (.ok ())) ∧
    (k.state = .dead → ∃ error, Handled fleet ms e k.id (.error error)) := by
  obtain ⟨hkind, hpayload⟩ := (handedOff_run run).same e he k hk hsource
  obtain ⟨-, ns, hns, hshown⟩ := cluster_run run start_dated
  rcases (books_of_run start_initial hns).earned k hk with hold | hearned
  · exact absurd hold Table.not_mem_empty
  · obtain ⟨before, n, after, rfl, hexplains, -⟩ := hearned
    have handled {r c outcome} (heard : Heard fleet before k r c outcome) :
        Handled fleet ms e k.id outcome :=
      Handled.of_heard (heard.mono (List.subset_append_left _ _)) hshown hkind hpayload
    generalize n.label = label at hexplains
    cases hexplains with
    | ordered pending => simp [pending]
    | claimed _ running => simp [running]
    | succeeded heard done => simp [done, handled heard]
    | refused heard dead => exact ⟨by simp [dead], fun _ => ⟨_, handled heard⟩⟩
    | exhausted heard last dead => exact ⟨by simp [dead], fun _ => ⟨_, handled heard⟩⟩
    | postponed _ _ pending => simp [pending]

end Handles

/-- From empty tables, whatever relayers, transactions that append events and job runners do in whatever
order: each relayed event has exactly one job and no other event has any, and a job of an event is done
only after a handler for the type of the event has succeeded on its payload, and dead only after one has
failed on it. -/
theorem events_handled {ι : Type} [DecidableEq ι] {fleet : ℕ → JobRunner} {now : Timestamp}
    {uuids : List Uuid} {Q : Pipeline ι} {ms : List (Move (Pipeline ι) (PipelineEvent ι))}
    (run : Run (Pipeline.Step fleet) (.start now uuids) ms Q) :
    HandedOff Q.pool.state ∧
    ∀ e ∈ Q.pool.state.outbox, ∀ k ∈ Q.pool.state.jobs, Q.pool.state.source k.id = some e.id →
      (k.state = .done → Handled fleet ms e k.id (.ok ())) ∧
      (k.state = .dead → ∃ error, Handled fleet ms e k.id (.error error)) :=
  ⟨handedOff_run run, fun _ he _ hk hsource => handled_run run he hk hsource⟩

/-! ## Runs of one side alone -/

section OneSide
variable {ι : Type} [DecidableEq ι] {fleet : ℕ → JobRunner} {P : Pipeline ι}

/-- A run of the transactions alone. -/
lemma run_of_pool {pool : Pool ι (OutboxState ι) OutboxPos}
    {ns : List (Move (Pool ι (OutboxState ι) OutboxPos) (Turn ι))}
    (run : Run (Pool.Step (outboxSystem ι)) P.pool ns pool)
    (own : ∀ n ∈ ns, n.label ≠ .elsewhere) :
    ∃ ms, Run (Pipeline.Step fleet) P ms { P with pool := pool } ∧
      ms.map Move.label = ns.map (fun n => .outbox n.label) := by
  generalize hstart : P.pool = start at run
  induction run with
  | nil =>
    subst hstart
    exact ⟨[], .nil, rfl⟩
  | @snoc ns t turn u run move ih =>
    obtain ⟨ms, hms, hlabels⟩ := ih fun n hn => own n (List.mem_append_left _ hn)
    have hown : turn ≠ .elsewhere := own _ (List.mem_append_right _ (List.mem_singleton_self _))
    refine ⟨_, hms.snoc (@Pipeline.Step.outbox ι _ fleet { P with pool := t } turn u hown move), ?_⟩
    rw [List.map_append, hlabels, List.map_append]
    rfl

/-- A run of the runners alone, in which nothing is enqueued. -/
lemma run_of_cluster {s : Cluster} {ns : List (Move Cluster Event)}
    (run : Run (Cluster.Step fleet) P.cluster ns s)
    (works : ∀ n ∈ ns, ∀ id req now, n.label ≠ .enqueue id req now) :
    ∃ ms Q, Run (Pipeline.Step fleet) P ms Q ∧ ms.map Move.label = ns.map (fun n => .work n.label) ∧
      Q.cluster = s ∧ Q.pool.state.outbox = P.pool.state.outbox ∧
      Q.pool.state.source = P.pool.state.source := by
  generalize hstart : P.cluster = start at run
  induction run with
  | nil => exact ⟨[], P, .nil, rfl, hstart, rfl, rfl⟩
  | @snoc ns t e u run move ih =>
    obtain ⟨ms, Q, hms, hlabels, hQ, houtbox, hsource⟩ :=
      ih fun n hn => works n (List.mem_append_left _ hn)
    have hwork := works _ (List.mem_append_right _ (List.mem_singleton_self _))
    rw [← hQ] at move
    refine ⟨_, _, hms.snoc (.work move fun id req now he => absurd he (hwork id req now)), ?_, ?_, ?_,
      ?_⟩
    · rw [List.map_append, hlabels, List.map_append]
      rfl
    · unfold Pipeline.cluster
      rw [Pool.push_state]
      rfl
    · rw [Pool.push_state]
      exact houtbox
    · rw [Pool.push_state]
      exact hsource

end OneSide

/-! ## A pipeline to run -/

section Example

/-- The turns of the transactions themselves. -/
def ownTurn : Turn Client → Bool
  | .elsewhere => false
  | _ => true

/-- An event is appended and relayed. -/
def relayedOnce : List (Act Client OutboxPos) :=
  .begins .first (.appending (.start [.new "user.created" .null])) :: Act.steps .first 4 ++
    .begins .second (.ticking ⟨10, 3⟩ .claim) :: Act.steps .second 7

/-- Runners for the event. -/
def userFleet (_ : ℕ) : JobRunner where
  workerId := "worker-0"
  registeredKinds := ["user.created"]
  cfg := .default

/-- Its job is claimed, handled and marked. -/
def handledOnce : List Event :=
  [.claim 0 100 (fun _ => false)
      [(pendingJob 0xb1 ⟨"user.created", .null, 3, 100⟩ 100).claimed "worker-0" 60000100 100] true,
    .start 0,
    .finish 0 (.ok ()),
    .mark 0 (.done 0xb1) 100 true]

/-- The runners' events enqueue nothing. -/
lemma handledOnce_works {e : Event} (h : e ∈ handledOnce) : ∀ id req now, e ≠ .enqueue id req now := by
  intro id req now he
  subst he
  simp [handledOnce] at h

/-- The event has been handled when its job is done. -/
theorem events_handled_created :
    ∃ ms Q, Run (Pipeline.Step userFleet) (.start 100 [0xe1, 0xb1] : Pipeline Client) ms Q ∧
      ∃ e ∈ Q.pool.state.outbox, Handled userFleet ms e 0xb1 (.ok ()) := by
  have hends : (Pool.perform (outboxSystem Client) OutboxPos.next (fun _ turn => ownTurn turn)
      (Pipeline.start 100 [0xe1, 0xb1]).pool relayedOnce).bind (fun pool =>
        ((Pipeline.cluster ⟨pool, fun _ => .polling, fun _ => .empty⟩).execs userFleet (fun _ => true)
          handledOnce).map fun s =>
            (pool.state.outbox.rows.map (fun e => (e.id, e.eventType)), pool.state.source 0xb1,
              s.table.rows.map (fun k => (k.id, k.state)))) =
      some ([(0xe1, "user.created")], some 0xe1, [(0xb1, .done)]) := by decide +kernel
  obtain ⟨pool, hpool, hrest⟩ := Option.bind_eq_some_iff.mp hends
  obtain ⟨s, hs, hvalues⟩ := Option.map_eq_some_iff.mp hrest
  obtain ⟨houtbox, hvalues⟩ := Prod.mk.inj hvalues
  obtain ⟨hsource, hjobs⟩ := Prod.mk.inj hvalues
  obtain ⟨turns, hturns, hown⟩ := Pool.run_of_perform (fun h => OutboxStep.next h) hpool
  have howned : ∀ n ∈ turns, n.label ≠ .elsewhere := by
    intro n hn hlabel
    have hturn := hown n hn
    rw [hlabel] at hturn
    cases hturn
  obtain ⟨ms, hrelays, -⟩ := @run_of_pool _ _ userFleet _ _ _ hturns howned
  obtain ⟨ns, hns, hlabels, -⟩ := Cluster.execs_sound hs
  obtain ⟨ks, Q, hworks, -, hQ, hkept, hcomes⟩ := run_of_cluster
    (P := ⟨pool, fun _ => .polling, fun _ => .empty⟩) hns fun n hn =>
      handledOnce_works (hlabels ▸ List.mem_map_of_mem hn)
  have hrun := hrelays.append hworks
  have hmem : (0xe1, "user.created") ∈ pool.state.outbox.rows.map (fun e => (e.id, e.eventType)) := by
    rw [houtbox]
    exact List.mem_singleton_self _
  obtain ⟨e, he, hkey⟩ := List.mem_map.mp hmem
  have hdone : (0xb1, JobState.done) ∈ s.table.rows.map (fun k => (k.id, k.state)) := by
    rw [hjobs]
    exact List.mem_singleton_self _
  obtain ⟨k, hk, hkdone⟩ := List.mem_map.mp hdone
  have hk' : k ∈ Q.pool.state.jobs := by
    have htable : Q.pool.state.jobs = s.table := congrArg Cluster.table hQ
    rw [htable]
    exact hk
  have he' : e ∈ Q.pool.state.outbox := hkept ▸ he
  have hlink : Q.pool.state.source k.id = some e.id := by
    rw [hcomes, (Prod.mk.inj hkdone).1, (Prod.mk.inj hkey).1]
    exact hsource
  have hhandled := ((events_handled hrun).2 e he' k hk' hlink).1 (Prod.mk.inj hkdone).2
  rw [(Prod.mk.inj hkdone).1] at hhandled
  exact ⟨_, Q, hrun, e, he', hhandled⟩

end Example
end Egras.Outbox
