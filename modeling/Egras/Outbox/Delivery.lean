import Egras.Jobs.Work
import Egras.Outbox.Pipeline
import Mathlib.Data.Set.Finite.Basic

/-!
# Events are delivered

What `events_handled` says that nothing else happens, this module says that it can always happen. A tick
that nobody disturbs takes the oldest unrelayed events, creates a job from each and commits
(`relays_tick`); ticks one after the other leave no event unrelayed (`relays_all`); and a runner that is
left alone then works off the jobs. So from every state that the pipeline reaches in which no lock is
held, one relayer and one runner deliver whatever is there (`events_delivered`).
-/

namespace Egras.Outbox
open Egras.Lib Egras.Jobs Relation

/-! ## A tick that is left alone -/

section Tick
variable {ι : Type} [DecidableEq ι] {cfg : OutboxRelayerConfig} {i : ι} {d d' : OutboxState ι}
  {start : Timestamp} {events : List OutboxEvent} {created : List (OutboxEvent × Job)}

/-- Some steps of a tick in a row. -/
abbrev Ticks (cfg : OutboxRelayerConfig) (i : ι) :
    TickPos × OutboxState ι → TickPos × OutboxState ι → Prop :=
  ReflTransGen fun a b => tickNext cfg i a.1 a.2 = some b

/-- No other transaction holds a lock. -/
def Alone (i : ι) (d : OutboxState ι) : Prop := ∀ k, d.locks.grants i k = true

/-- The next identifiers that are drawn are new. -/
structure Supplies (d : OutboxState ι) (n : ℕ) : Prop where
  enough : n ≤ d.uuids.length
  nodup : (d.uuids.take n).Nodup
  fresh : ∀ id ∈ d.uuids.take n, ∀ j ∈ d.jobs, j.id ≠ id

/-- The claim takes the first rows, as many as go into a batch. -/
lemma ticks_claiming {rows : List OutboxEvent} (alone : Alone i d)
    (found : ∀ r ∈ rows, r ∈ d.outbox ∧ r.relayedAt = none) :
    ∃ l, Alone i { d with locks := l } ∧ Ticks cfg i (.claiming start rows events, d)
      (claimed i start (events ++ rows.take (cfg.batchSize - events.length))
        { d with locks := l }) := by
  induction rows generalizing d events with
  | nil =>
    refine ⟨d.locks, alone, .single ?_⟩
    rw [List.take_nil, List.append_nil]
    rfl
  | cons r rows ih =>
    by_cases full : cfg.batchSize ≤ events.length
    · refine ⟨d.locks, alone, .single ?_⟩
      rw [Nat.sub_eq_zero_of_le full, List.take_zero, List.append_nil]
      exact if_pos full
    · obtain ⟨⟨hmem, hnone⟩, hrows⟩ := List.forall_mem_cons.mp found
      have hfind : (d.outbox.find? r.id).filter (fun e => e.relayedAt = none) = some r := by
        rw [Table.find?_key hmem]
        exact Option.filter_eq_some_iff.mpr ⟨rfl, decide_eq_true hnone⟩
      have step : tickNext cfg i (.claiming start (r :: rows) events) d =
          some (.claiming start rows (events ++ [r]), d.lock i (.event r.id)) := by
        simp only [tickNext, if_neg full, alone (.event r.id), if_true, hfind]
      have alone' : Alone i (d.lock i (.event r.id)) := fun k => Locks.grants_take (alone k)
      obtain ⟨l, hl, hticks⟩ := @ih (d.lock i (.event r.id)) (events ++ [r]) alone' hrows
      refine ⟨l, hl, .head step ?_⟩
      have htake : events ++ (r :: rows).take (cfg.batchSize - events.length) =
          events ++ [r] ++ rows.take (cfg.batchSize - (events ++ [r]).length) := by
        have hsize : cfg.batchSize - events.length = cfg.batchSize - (events ++ [r]).length + 1 := by
          rw [List.length_append, List.length_singleton]
          omega
        rw [hsize, List.take_succ_cons]
        exact List.append_cons ..
      rw [htake]
      exact hticks

/-- Each event gets a job under the next identifier. -/
lemma ticks_enqueue {todo : List OutboxEvent} (alone : Alone i d) (supplies : Supplies d todo.length)
    (unused : ∀ c ∈ created, c.2.id ∉ d.uuids.take todo.length) :
    ∃ l more, Alone i { d with locks := l } ∧
      (∀ c ∈ more, ∃ id ∈ d.uuids.take todo.length, c.2 = cfg.job c.1 id start d.now) ∧
      Ticks cfg i (.enqueue start events todo created, d)
        (.enqueue start events [] (created ++ more),
          { d with locks := l, uuids := d.uuids.drop todo.length }) := by
  induction todo generalizing d created with
  | nil =>
    refine ⟨d.locks, [], alone, by simp, ?_⟩
    rw [List.append_nil]
    exact .refl
  | cons e todo ih =>
    obtain ⟨enough, nodup, fresh⟩ := supplies
    cases huuids : d.uuids with
    | nil =>
      rw [huuids] at enough
      cases enough
    | cons id ids =>
      rw [huuids, List.length_cons, List.take_succ_cons] at nodup fresh unused
      rw [huuids] at enough
      obtain ⟨hid, nodup⟩ := List.nodup_cons.mp nodup
      have hjobs : d.jobs.any (fun j => j.id = id) = false :=
        Table.any_eq_false.mpr fun j hj => by simpa using fresh id List.mem_cons_self j hj
      have hcreated : created.any (fun c => c.2.id = id) = false := by
        refine List.any_eq_false.mpr fun c hc hsame => unused c hc ?_
        rw [of_decide_eq_true hsame]
        exact List.mem_cons_self
      let job := cfg.job e id start d.now
      have step : tickNext cfg i (.enqueue start events (e :: todo) created) d =
          some (.enqueue start events todo (created ++ [(e, job)]), d.draw.lock i (.job id)) := by
        simp only [tickNext, huuids, List.headD_cons, alone (.job id), if_true, hjobs, hcreated,
          Bool.or_self, Bool.false_eq_true, if_false]
        rfl
      have hdrawn : (d.draw.lock i (.job id)).uuids = ids := congrArg List.tail huuids
      have alone' : Alone i (d.draw.lock i (.job id)) := fun k => Locks.grants_take (alone k)
      have supplies' : Supplies (d.draw.lock i (.job id)) todo.length := by
        refine ⟨?_, ?_, ?_⟩
        · rw [hdrawn]
          exact Nat.le_of_succ_le_succ enough
        · rw [hdrawn]
          exact nodup
        · rw [hdrawn]
          exact fun k hk => fresh k (List.mem_cons_of_mem _ hk)
      have unused' : ∀ c ∈ created ++ [(e, job)],
          c.2.id ∉ (d.draw.lock i (.job id)).uuids.take todo.length := by
        rw [hdrawn]
        refine List.forall_mem_append.mpr ⟨fun c hc hmem => ?_, List.forall_mem_singleton.mpr hid⟩
        exact unused c hc (List.mem_cons_of_mem _ hmem)
      obtain ⟨l, more, hl, hmore, hticks⟩ := ih alone' supplies' unused'
      rw [hdrawn] at hmore hticks
      refine ⟨l, (e, job) :: more, hl, ?_, .head step ?_⟩
      · rw [List.length_cons, List.take_succ_cons]
        refine List.forall_mem_cons.mpr ⟨⟨id, List.mem_cons_self, rfl⟩, fun c hc => ?_⟩
        obtain ⟨k, hk, hck⟩ := hmore c hc
        exact ⟨k, List.mem_cons_of_mem _ hk, hck⟩
      · rw [List.append_cons created (e, job) more]
        exact hticks

/-! ### What a tick has done -/

/-- Events have been relayed and nothing else has changed: each event is there, marked or not, and so is
each job with its source; and an event that was unrelayed still is, or it has a job that is due. -/
structure Relays (d d' : OutboxState ι) : Prop where
  now : d'.now = d.now
  locks : d'.locks = .free
  events : ∀ e ∈ d.outbox, ∃ e' ∈ d'.outbox, { e' with relayedAt := e.relayedAt } = e
  jobs : ∀ j ∈ d.jobs, j ∈ d'.jobs ∧ d'.source j.id = d.source j.id
  delivered : ∀ e ∈ d.outbox, e.relayedAt = none → e ∈ d'.outbox ∨
    ∃ j ∈ d'.jobs, d'.source j.id = some e.id ∧ j.kind = e.eventType ∧ j.payload = e.payload ∧
      j.isDue d'.now

omit [DecidableEq ι] in
/-- Nothing has been relayed. -/
lemma Relays.refl (free : d.locks = .free) : Relays d d :=
  ⟨rfl, free, fun e he => ⟨e, he, rfl⟩, fun _ hj => ⟨hj, rfl⟩, fun _ he _ => Or.inl he⟩

omit [DecidableEq ι] in
/-- One relay after another. -/
lemma Relays.trans {d'' : OutboxState ι} (h : Relays d d') (h' : Relays d' d'') : Relays d d'' := by
  refine ⟨h'.now.trans h.now, h'.locks, fun e he => ?_, fun j hj => ?_, fun e he hnone => ?_⟩
  · obtain ⟨e', he', hsame⟩ := h.events e he
    obtain ⟨e'', he'', hsame'⟩ := h'.events e' he'
    refine ⟨e'', he'', ?_⟩
    rw [← hsame, ← hsame']
  · obtain ⟨hmem, hsource⟩ := h.jobs j hj
    obtain ⟨hmem', hsource'⟩ := h'.jobs j hmem
    exact ⟨hmem', hsource'.trans hsource⟩
  · rcases h.delivered e he hnone with hmem | ⟨j, hj, hsource, hkind, hpayload, hdue⟩
    · exact h'.delivered e hmem hnone
    · obtain ⟨hmem, hkept⟩ := h'.jobs j hj
      refine Or.inr ⟨j, hmem, hkept.trans hsource, hkind, hpayload, ?_⟩
      rw [h'.now]
      exact hdue

/-- A tick knows what it has claimed and created wherever it stands. -/
lemma knows_ticks {p q : TickPos} (h : Ticks cfg i (p, d) (q, d')) (hp : Knows d i (.ticking cfg p)) :
    Knows d' i (.ticking cfg q) := by
  generalize hb : (q, d') = b at h
  induction h generalizing q d' with
  | refl =>
    cases hb
    exact hp
  | @tail b c _ step ih =>
    obtain ⟨p', d₁⟩ := b
    cases hb
    exact (handsOver_tickNext step (ih rfl)).knows

/-- Without the elements that have the key of one of the first ones, the others are left. -/
lemma filter_notMem_take {α β : Type*} [DecidableEq β] {f : α → β} {l : List α} {n : ℕ}
    (h : (l.map f).Nodup) : l.filter (fun a => f a ∉ (l.take n).map f) = l.drop n := by
  have hdisjoint : ∀ a ∈ l.drop n, f a ∉ (l.take n).map f := by
    intro a ha hmem
    rw [← List.take_append_drop n l, List.map_append] at h
    exact (List.disjoint_of_nodup_append h) hmem (List.mem_map_of_mem ha)
  calc l.filter (fun a => f a ∉ (l.take n).map f)
      = (l.take n ++ l.drop n).filter (fun a => f a ∉ (l.take n).map f) := by
        rw [List.take_append_drop]
    _ = [] ++ l.drop n := by
        rw [List.filter_append]
        congr 1
        · refine List.filter_eq_nil_iff.mpr fun a ha hnot => ?_
          exact of_decide_eq_true hnot (List.mem_map_of_mem ha)
        · exact List.filter_eq_self.mpr fun a ha => decide_eq_true (hdisjoint a ha)

omit [DecidableEq ι] in
/-- Marking the first events leaves the others unrelayed. -/
lemma length_unrelayed_mark {t : OutboxTable} {n : ℕ} :
    (unrelayed (markRelayedInTx t (((unrelayed t).take n).map OutboxEvent.id) start)).length =
      (unrelayed t).length - n := by
  have hperm : (unrelayed t).Perm (t.select fun e => e.relayedAt = none) :=
    List.perm_insertionSort _ _
  have hselect : (markRelayedInTx t (((unrelayed t).take n).map OutboxEvent.id) start).select
      (fun e => e.relayedAt = none) = (t.select fun e => e.relayedAt = none).filter
        (fun e => e.id ∉ ((unrelayed t).take n).map OutboxEvent.id) := by
    refine (Table.select_updateWhere fun _ _ _ => rfl).trans ?_
    show t.rows.filter _ = (t.rows.filter _).filter _
    rw [List.filter_filter]
    exact List.filter_congr fun e _ => by rw [Bool.and_comm, decide_not]
  calc (unrelayed (markRelayedInTx t _ start)).length
      = _ := List.length_insertionSort _ _
    _ = _ := congrArg List.length hselect
    _ = _ := (hperm.filter _).length_eq.symm
    _ = ((unrelayed t).drop n).length := congrArg List.length (filter_notMem_take nodup_unrelayed)
    _ = (unrelayed t).length - n := List.length_drop

/-- What a tick does whose commit is due. -/
lemma relays_commit (alone : Alone i d)
    (knows : Knows d i (.ticking cfg (.commit start events created)))
    (due : ∀ c ∈ created, c.2.isDue d.now) :
    Relays d ((d.commitTick start events created).release i) := by
  obtain ⟨hclaims, -, hcreates, rfl⟩ := knows
  have hmarked {e : OutboxEvent} (he : e ∈ d.outbox) {c} (hc : c ∈ created) (hid : c.1.id = e.id) :
      c.1 = e := Table.eq_of_key (hclaims.unrelayed c.1 (List.mem_map_of_mem hc)).1 he hid
  have hjobs {j : Job} := @mem_jobs_commitTick ι d i start created hcreates j
  refine ⟨rfl, Locks.releaseAll_eq_free alone, fun e he => ?_, fun j hj => ⟨?_, ?_⟩, fun e he _ => ?_⟩
  · by_cases hclaimed : ∃ c ∈ created, c.1.id = e.id
    · obtain ⟨c, hc, hid⟩ := hclaimed
      obtain rfl := hmarked he hc hid
      exact ⟨c.1.relayed start, (mem_outbox_commitTick hclaims).mpr (Or.inl ⟨c, hc, rfl⟩), rfl⟩
    · push Not at hclaimed
      exact ⟨e, (mem_outbox_commitTick hclaims).mpr (Or.inr ⟨he, hclaimed⟩), rfl⟩
  · exact hjobs.mpr (Or.inl hj)
  · apply @source_of_not_created ι d start created j.id
    exact fun c hc hid => hcreates.fresh c hc j hj hid.symm
  · by_cases hclaimed : ∃ c ∈ created, c.1.id = e.id
    · obtain ⟨c, hc, hid⟩ := hclaimed
      obtain rfl := hmarked he hc hid
      obtain ⟨hkind, hpayload⟩ := hcreates.same c hc
      exact Or.inr ⟨c.2, hjobs.mpr (Or.inr ⟨c, hc, rfl⟩),
        @source_of_created ι d i start created hcreates c hc, hkind, hpayload, due c hc⟩
    · push Not at hclaimed
      exact Or.inl ((mem_outbox_commitTick hclaims).mpr (Or.inr ⟨he, hclaimed⟩))

omit [DecidableEq ι] in
/-- A part of a supply. -/
lemma Supplies.first {n m : ℕ} (h : Supplies d (n + m)) : Supplies d n := by
  obtain ⟨enough, nodup, fresh⟩ := h
  rw [List.take_add] at nodup fresh
  exact ⟨by omega, nodup.of_append_left, fun id hid => fresh id (List.mem_append_left _ hid)⟩

omit [DecidableEq ι] in
/-- What is left of a supply after some identifiers have been drawn. -/
lemma Supplies.drawn {n m : ℕ} (h : Supplies d (n + m)) (uuids : d'.uuids = d.uuids.drop n)
    (jobs : ∀ j ∈ d'.jobs, j ∈ d.jobs ∨ j.id ∈ d.uuids.take n) : Supplies d' m := by
  obtain ⟨enough, nodup, fresh⟩ := h
  rw [List.take_add] at nodup fresh
  refine ⟨?_, ?_, ?_⟩
  · rw [uuids, List.length_drop]
    omega
  · rw [uuids]
    exact nodup.of_append_right
  · rw [uuids]
    intro id hid j hj hsame
    rcases jobs j hj with hold | hnew
    · exact fresh id (List.mem_append_right _ hid) j hold hsame
    · rw [hsame] at hnew
      exact (List.disjoint_of_nodup_append nodup) hnew hid

omit [DecidableEq ι] in
/-- The unrelayed events are those of the table without a date. -/
lemma mem_unrelayed {t : OutboxTable} {e : OutboxEvent} :
    e ∈ unrelayed t ↔ e ∈ t ∧ e.relayedAt = none := by
  refine (List.mem_insertionSort _).trans (List.mem_filter.trans ?_)
  exact and_congr_right fun _ => decide_eq_true_iff

/-- A tick that is left alone relays the oldest events, as many as go into a batch. -/
lemma relays_tick (free : d.locks = .free) (size : 0 < cfg.batchSize) {n : ℕ}
    (supplies : Supplies d n) (left : (unrelayed d.outbox).length = n) (more : 0 < n) :
    ∃ d', Ticks cfg i (.claim, d) (.done (.ok (min cfg.batchSize n)), d') ∧ Relays d d' ∧
      (unrelayed d'.outbox).length = n - cfg.batchSize ∧ Supplies d' (n - cfg.batchSize) := by
  have alone : Alone i d := fun k => by rw [free]; exact Locks.grants_free
  let events := (unrelayed d.outbox).take cfg.batchSize
  have hlength : events.length = min cfg.batchSize n := by rw [List.length_take, left]
  have hevents : events.isEmpty = false := by
    rw [List.isEmpty_eq_false_iff, ← List.length_pos_iff, hlength]
    exact lt_min size more
  have hn : n = events.length + (n - cfg.batchSize) := by
    rw [hlength]
    omega
  rw [hn] at supplies
  -- the claim, and a job for each event
  obtain ⟨l, hl, hclaims⟩ := @ticks_claiming ι _ cfg i d d.now [] _ alone fun r => mem_unrelayed.mp
  rw [List.nil_append, List.length_nil, Nat.sub_zero, claimed, hevents] at hclaims
  obtain ⟨enough, nodup, fresh⟩ := supplies.first
  obtain ⟨l', created, hl', hcreated, henqueues⟩ :=
    @ticks_enqueue ι _ cfg i { d with locks := l } d.now events [] events hl ⟨enough, nodup, fresh⟩
      (by simp)
  rw [List.nil_append] at henqueues
  let e : OutboxState ι := { d with locks := l', uuids := d.uuids.drop events.length }
  have hcommit : Ticks cfg i (.claim, d) (.commit d.now events created, e) :=
    .tail (.tail (.trans (.head rfl hclaims) henqueues) rfl) rfl
  -- the commit
  have hknows : Knows e i (.ticking cfg (.commit d.now events created)) := knows_ticks hcommit trivial
  have hdue : ∀ c ∈ created, c.2.isDue e.now := by
    intro c hc
    obtain ⟨id, -, hjob⟩ := hcreated c hc
    rw [hjob]
    exact Job.isDue_iff.mpr (Or.inl ⟨rfl, le_rfl⟩)
  have hrelays : Relays e ((e.commitTick d.now events created).release i) :=
    relays_commit hl' hknows hdue
  refine ⟨(e.commitTick d.now events created).release i, hcommit.tail ?_, ?_, ?_, ?_⟩
  · rw [← hlength]
    rfl
  · exact ⟨hrelays.now, hrelays.locks, hrelays.events, hrelays.jobs, hrelays.delivered⟩
  · refine length_unrelayed_mark.trans ?_
    rw [left]
  · refine supplies.drawn rfl fun j hj => ?_
    obtain ⟨-, -, hcreates, -⟩ := hknows
    rcases (@mem_jobs_commitTick ι e i d.now created hcreates j).mp hj with hold | ⟨c, hc, rfl⟩
    · exact Or.inl hold
    · obtain ⟨id, hid, hjob⟩ := hcreated c hc
      rw [hjob]
      exact Or.inr hid

end Tick

/-! ## One tick after the other -/

/-- A transaction on the outbox begins. -/
def PipelineEvent.begins {ι : Type} : PipelineEvent ι → Bool
  | .outbox (.begins _) => true
  | _ => false

section Ticks
variable {ι : Type} [DecidableEq ι] {cfg : OutboxRelayerConfig}

/-- Ticks of a relayer that is left alone leave no event unrelayed. -/
lemma relays_all (size : 0 < cfg.batchSize) {n : ℕ} {P : Pool ι (OutboxState ι) OutboxPos}
    (free : P.state.locks = .free) (clients : {i | P.calls i = none}.Infinite)
    (supplies : Supplies P.state n) (left : (unrelayed P.state.outbox).length = n) :
    ∃ ms Q, Run (Pool.Step (outboxSystem ι)) P ms Q ∧ (∀ m ∈ ms, m.label ≠ .elsewhere) ∧
      (ms.map fun m => PipelineEvent.outbox m.label).countP PipelineEvent.begins * cfg.batchSize <
        n + cfg.batchSize ∧
      Relays P.state Q.state ∧ unrelayed Q.state.outbox = [] := by
  induction n using Nat.strong_induction_on generalizing P with
  | _ n ih =>
    rcases Nat.eq_zero_or_pos n with rfl | more
    · exact ⟨[], P, .nil, by simp, by simpa using size, .refl free, List.length_eq_zero_iff.mp left⟩
    · obtain ⟨i, hi⟩ := clients.nonempty
      obtain ⟨d, hticks, hrelays, hleft, hsupplies⟩ :=
        @relays_tick ι _ cfg i P.state free size n supplies left more
      have steps : ReflTransGen (fun a b : OutboxPos × OutboxState ι =>
          (outboxSystem ι).step i a.1 a.2 b.1 b.2) (.ticking cfg .claim, P.state)
          (.ticking cfg (.done (.ok (min cfg.batchSize n))), d) := by
        apply hticks.lift fun a => (OutboxPos.ticking cfg a.1, a.2)
        intro a b h
        exact OutboxStep.next (congrArg (Option.map _) h)
      obtain ⟨m, ms, R, run, hbegins, hmoves, hstate, hothers⟩ := Pool.run_of_call hi rfl steps
      have clients' : {j | R.calls j = none}.Infinite := by
        apply (clients.sdiff (Set.finite_singleton i)).mono
        rintro j ⟨hj, hne⟩
        exact (hothers j hne).trans hj
      rw [← hstate] at hrelays hleft hsupplies
      obtain ⟨ns, Q, run', hown, hcount, hrelays', hnone⟩ :=
        ih (n - cfg.batchSize) (by omega) hrelays.locks clients' hsupplies hleft
      refine ⟨m :: ms ++ ns, Q, run.append run', ?_, ?_, hrelays.trans hrelays', hnone⟩
      · intro k hk
        rcases List.mem_append.mp hk with hk | hk
        · rcases List.mem_cons.mp hk with rfl | hk
          · rw [hbegins]
            exact nofun
          · rw [hmoves k hk]
            exact nofun
        · exact hown k hk
      · have hfirst : (((m :: ms).map fun m => PipelineEvent.outbox m.label).countP
            PipelineEvent.begins) = 1 := by
          rw [List.map_cons, List.countP_cons, hbegins, List.countP_eq_zero.mpr]
          · rfl
          · intro e he
            obtain ⟨k, hk, rfl⟩ := List.mem_map.mp he
            rw [hmoves k hk]
            exact Bool.false_ne_true
        rw [List.map_append, List.countP_append, hfirst, Nat.add_mul, Nat.one_mul]
        rcases le_total cfg.batchSize n with hle | hle
        · omega
        · rw [Nat.sub_eq_zero_of_le hle, Nat.zero_add] at hcount
          -- the last tick
          have hzero :
              (ns.map fun m => PipelineEvent.outbox m.label).countP PipelineEvent.begins = 0 := by
            by_contra hpos
            exact absurd hcount (not_lt_of_ge (Nat.le_mul_of_pos_left _ (Nat.pos_of_ne_zero hpos)))
          rw [hzero]
          omega

end Ticks

/-! ## Delivery -/

section Delivery
variable {ι : Type} [DecidableEq ι] {fleet : ℕ → JobRunner} {now : Timestamp} {uuids : List Uuid}
  {P : Pipeline ι} {ns : List (Move (Pipeline ι) (PipelineEvent ι))} {cfg : OutboxRelayerConfig}
  {n r : ℕ}

/-- From every state that the pipeline reaches in which no lock is held, a relayer and a runner that are
left alone, with handlers that succeed, deliver every event: in as many ticks as the batches take, all
events are relayed and otherwise as they were, no job of the runner's kinds is due any more, and for
each event that was unrelayed and has a handler, this was called with its payload and succeeded. -/
theorem events_delivered (before : Run (Pipeline.Step fleet) (.start now uuids) ns P)
    (free : P.pool.state.locks = .free) (clients : {i | P.pool.calls i = none}.Infinite)
    (left : (unrelayed P.pool.state.outbox).length = n) (supplies : Supplies P.pool.state n)
    (size : 0 < cfg.batchSize) (polls : P.runner r = .polling) (lease : 0 < (fleet r).lease)
    (batch : 0 < (fleet r).cfg.batchSize)
    (inRange : timestampInRange (P.pool.state.now + (fleet r).lease)) :
    ∃ ms Q, Run (Pipeline.Step fleet) P ms Q ∧
      (ms.map Move.label).countP PipelineEvent.begins * cfg.batchSize < n + cfg.batchSize ∧
      (∀ m ∈ ms, ∀ e, m.label = .work e → e.runner = some r) ∧
      (∀ e ∈ P.pool.state.outbox, ∃ e' ∈ Q.pool.state.outbox,
        { e' with relayedAt := e.relayedAt } = e ∧ e'.relayedAt.isSome = true) ∧
      Q.cluster.due (fleet r) = [] ∧
      ∀ e ∈ P.pool.state.outbox, e.relayedAt = none → e.eventType ∈ (fleet r).registeredKinds →
        ∃ id, Handled fleet (ns ++ ms) e id (.ok ()) := by
  obtain ⟨ts, pool, hpool, hown, hcount, hrelays, hnone⟩ := relays_all size free clients supplies left
  obtain ⟨ms, hms, hlabels⟩ := @run_of_pool ι _ fleet P _ _ hpool hown
  let R : Pipeline ι := { P with pool := pool }
  have hpolls : R.cluster.runner r = .polling := polls
  have hrange : timestampInRange (R.cluster.clock + (fleet r).lease) := by
    show timestampInRange (pool.state.now + _)
    rw [hrelays.now]
    exact inRange
  obtain ⟨ks, s, hks, hrunner, -, -, hpolls', hdue, hend⟩ :=
    (Draining.of_polls hpolls).finishes lease batch hrange le_rfl
  have hworks : ∀ k ∈ ks, ∀ id req now, k.label ≠ .enqueue id req now := by
    intro k hk id req now he
    have hown := hrunner k hk
    rw [he] at hown
    cases hown
  obtain ⟨ms', Q, hms', hlabels', hQ, houtbox, hsource⟩ := run_of_cluster (P := R) hks hworks
  have hrun := before.append (hms.append hms')
  have hevents : ∀ e ∈ P.pool.state.outbox, ∃ e' ∈ Q.pool.state.outbox,
      { e' with relayedAt := e.relayedAt } = e ∧ e'.relayedAt.isSome = true := by
    intro e he
    obtain ⟨e', he', hsame⟩ := hrelays.events e he
    refine ⟨e', houtbox ▸ he', hsame, Option.isSome_iff_ne_none.mpr fun hunrelayed => ?_⟩
    have hmem : e' ∈ unrelayed pool.state.outbox := mem_unrelayed.mpr ⟨he', hunrelayed⟩
    rw [hnone] at hmem
    cases hmem
  refine ⟨ms ++ ms', Q, hms.append hms', ?_, ?_, hevents, hQ ▸ hdue, ?_⟩
  · have hzero : (ms'.map Move.label).countP PipelineEvent.begins = 0 := by
      rw [hlabels', List.countP_eq_zero]
      intro e he
      obtain ⟨k, -, rfl⟩ := List.mem_map.mp he
      exact Bool.false_ne_true
    rw [List.map_append, List.countP_append, hzero, hlabels]
    exact hcount
  · intro m hm e hlabel
    rcases List.mem_append.mp hm with hm | hm
    · have hmem := List.mem_map_of_mem (f := Move.label) hm
      rw [hlabels, hlabel] at hmem
      obtain ⟨t, -, ht⟩ := List.mem_map.mp hmem
      cases ht
    · have hmem := List.mem_map_of_mem (f := Move.label) hm
      rw [hlabels', hlabel] at hmem
      obtain ⟨k, hk, hwork⟩ := List.mem_map.mp hmem
      cases hwork
      exact hrunner k hk
  · intro e he hunrelayed hkind
    rcases hrelays.delivered e he hunrelayed with hmem | ⟨j, hj, hlink, hkind', -, hjdue⟩
    · have hmem' : e ∈ unrelayed pool.state.outbox := mem_unrelayed.mpr ⟨hmem, hunrelayed⟩
      rw [hnone] at hmem'
      cases hmem'
    · have hmem : j ∈ R.cluster.due (fleet r) :=
        Cluster.mem_due.mpr ⟨hj, by rw [hkind']; exact hkind, hjdue⟩
      obtain ⟨k, hk, hdone⟩ := hend.done hpolls' hdue (List.mem_map_of_mem hmem)
      obtain ⟨hkmem, hkid⟩ := Table.find?_eq_some.mp hk
      have hkjobs : k ∈ Q.pool.state.jobs := by
        have htable : Q.pool.state.jobs = s.table := congrArg Cluster.table hQ
        rw [htable]
        exact hkmem
      obtain ⟨e', he', hsame, -⟩ := hevents e he
      have hid : e'.id = e.id := by rw [← hsame]
      have hlink' : Q.pool.state.source k.id = some e'.id := by
        rw [hsource, hkid, hid]
        exact hlink
      have hhandled := (handled_run hrun he' hkjobs hlink').1 hdone
      rw [← hsame]
      exact ⟨k.id, hhandled⟩

end Delivery

/-! ## An event that is delivered -/

/-- Nothing has happened yet. -/
def nothingYet : OutboxState ℕ := ⟨.empty, .empty, fun _ => none, .free, 100, [0xe1, 0xb1]⟩

/-- The event that is appended. -/
def userCreated : OutboxEvent := (AppendRequest.new "user.created" .null).event 0xe1 100

/-- The event has been appended. -/
def appendedOnce : OutboxState ℕ :=
  ((nothingYet.draw.lock 0 (.event 0xe1)).commitAppend [userCreated]).release 0

/-- The transaction runs through its steps. -/
lemma appendedOnce_steps :
    ReflTransGen (fun a b : OutboxPos × OutboxState ℕ => (outboxSystem ℕ).step 0 a.1 a.2 b.1 b.2)
      (.appending (.start [.new "user.created" .null]), nothingYet)
      (.appending (.done (.ok [0xe1])), appendedOnce) := by
  let drawn := nothingYet.draw.lock 0 (.event 0xe1)
  refine .head (b := (.appending (.insert 100 [.new "user.created" .null] []), nothingYet))
    (.next rfl) ?_
  refine .head (b := (.appending (.insert 100 [] [userCreated]), drawn)) (.next rfl) ?_
  refine .head (b := (.appending (.commit [userCreated]), drawn)) (.next rfl) ?_
  exact .single (.next rfl)

/-- An event that has been appended gets handled. -/
theorem events_delivered_userCreated :
    ∃ ms Q id, Run (Pipeline.Step userFleet) (.start 100 [0xe1, 0xb1] : Pipeline ℕ) ms Q ∧
      Handled userFleet ms userCreated id (.ok ()) := by
  obtain ⟨m, ts, pool, hpool, hbegins, hmoves, hstate, hothers⟩ :=
    @Pool.run_of_call _ _ _ _ (outboxSystem ℕ) (Pipeline.start 100 [0xe1, 0xb1]).pool 0 _ _ _ rfl rfl
      appendedOnce_steps
  have hown : ∀ t ∈ m :: ts, t.label ≠ .elsewhere := by
    refine List.forall_mem_cons.mpr ⟨?_, fun t ht => ?_⟩
    · rw [hbegins]
      exact nofun
    · rw [hmoves t ht]
      exact nofun
  obtain ⟨ns, before, -⟩ := @run_of_pool ℕ _ userFleet _ _ _ hpool hown
  have hfree : pool.state.locks = .free := by
    rw [hstate]
    exact Locks.releaseAll_eq_free fun k => Locks.grants_take Locks.grants_free
  have hclients : {i | pool.calls i = none}.Infinite :=
    (Set.finite_singleton 0).infinite_compl.mono fun i hi => hothers i hi
  have hleft : (unrelayed pool.state.outbox).length = 1 := by
    rw [hstate]
    decide +kernel
  have hsupplies : Supplies pool.state 1 := by
    rw [hstate]
    exact ⟨by decide, by decide, fun _ _ j hj => absurd hj Table.not_mem_empty⟩
  have hrange : timestampInRange (pool.state.now + (userFleet 0).lease) := by
    rw [hstate]
    decide
  obtain ⟨ms, Q, after, -, -, -, -, hhandled⟩ := @events_delivered ℕ _ userFleet _ _ _ _ ⟨10, 3⟩ _ 0
    before hfree hclients hleft hsupplies (by decide) rfl (by decide) (by decide) hrange
  have hmem : userCreated ∈ pool.state.outbox := by
    rw [hstate, ← Table.mem_rows]
    decide +kernel
  obtain ⟨id, hid⟩ := hhandled userCreated hmem rfl (by decide)
  exact ⟨_, Q, id, before.append after, hid⟩

end Egras.Outbox
