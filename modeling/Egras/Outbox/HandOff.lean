import Egras.Jobs.Store
import Egras.Lib.Cooperate
import Egras.Outbox.Relayer

/-!
# Exactly-once hand-off from the outbox to the jobs

Relayers and transactions that append events interleave, and each may be dropped at any point. What
an open transaction has read and reserved is its own: the events that it has claimed stay unrelayed,
and the identifiers that it has inserted stay unused (`Knows`, `Spares`). A commit therefore links
each event that it marks with one job (`linked_commitTick`), and in every committed state the relayed
events are those that have a job, each exactly one (`outbox_exactly_once`).
-/

namespace Egras.Outbox
open Egras.Lib Egras.Jobs

/-! ## The committed state -/

/-- What has been handed off: exactly one job was created from each relayed event, with its type and
payload, and none from any other event. -/
structure HandedOff {ι : Type} (d : OutboxState ι) : Prop where
  one : ∀ e ∈ d.outbox, e.relayedAt.isSome = true → ∃! j, j ∈ d.jobs ∧ d.source j.id = some e.id
  same : ∀ e ∈ d.outbox, ∀ j ∈ d.jobs, d.source j.id = some e.id →
    j.kind = e.eventType ∧ j.payload = e.payload
  none : ∀ e ∈ d.outbox, e.relayedAt = none → ∀ j ∈ d.jobs, d.source j.id ≠ some e.id

/-- Every relayed event is linked with one job, and no other event with any. -/
structure Linked {ι : Type} (d : OutboxState ι) : Prop where
  sourced : ∀ id event, d.source id = some event →
    (∃ j ∈ d.jobs, j.id = id) ∧ ∃ e ∈ d.outbox, e.id = event ∧ e.relayedAt.isSome = true
  relayed : ∀ e ∈ d.outbox, e.relayedAt.isSome = true →
    ∃ j ∈ d.jobs, d.source j.id = some e.id ∧ j.kind = e.eventType ∧ j.payload = e.payload
  single : ∀ id id' event, d.source id = some event → d.source id' = some event → id = id'

/-- Relayed events stay as they are. -/
def KeepsRelayed {ι : Type} (d d' : OutboxState ι) : Prop :=
  ∀ e ∈ d.outbox, e.relayedAt.isSome = true → e ∈ d'.outbox

/-- No event has been recorded yet, and no job comes from one. -/
structure Fresh {ι : Type} (d : OutboxState ι) : Prop where
  outbox : d.outbox = Table.empty
  source : ∀ id, d.source id = none

section Linked
variable {ι : Type} {d : OutboxState ι}

/-- With no events nothing has to be linked. -/
lemma Fresh.linked (h : Fresh d) : Linked d := by
  refine ⟨fun id event hsource => ?_, fun e he _ => ?_, fun id _ event hsource _ => ?_⟩
  · rw [h.source id] at hsource
    cases hsource
  · rw [h.outbox] at he
    cases he
  · rw [h.source id] at hsource
    cases hsource

/-- The job that an event is linked with is the only one, by its identifier. -/
lemma Linked.handedOff (h : Linked d) : HandedOff d := by
  refine ⟨fun e he hrelayed => ?_, fun e he j hj hsource => ?_, fun e he hnone j hj hsource => ?_⟩
  · obtain ⟨j, hj, hsource, -, -⟩ := h.relayed e he hrelayed
    refine ⟨j, ⟨hj, hsource⟩, fun k hk => ?_⟩
    exact Table.eq_of_key hk.1 hj (h.single k.id j.id e.id hk.2 hsource)
  · obtain ⟨-, q, hq, hid, hrelayed⟩ := h.sourced j.id e.id hsource
    have hqe : q = e := Table.eq_of_key hq he hid
    rw [hqe] at hrelayed
    obtain ⟨k, hk, hsource', hkind, hpayload⟩ := h.relayed e he hrelayed
    have hkj : k = j := Table.eq_of_key hk hj (h.single k.id j.id e.id hsource' hsource)
    rw [← hkj]
    exact ⟨hkind, hpayload⟩
  · obtain ⟨-, q, hq, hid, hrelayed⟩ := h.sourced j.id e.id hsource
    have hqe : q = e := Table.eq_of_key hq he hid
    rw [hqe, hnone] at hrelayed
    cases hrelayed

/-- Nothing has changed. -/
lemma keepsRelayed_refl : KeepsRelayed d d := fun _ he _ => he

/-- One change after another. -/
lemma KeepsRelayed.trans {d' d'' : OutboxState ι} (h : KeepsRelayed d d') (h' : KeepsRelayed d' d'') :
    KeepsRelayed d d'' := fun e he hrelayed => h' e (h e he hrelayed) hrelayed

end Linked

/-- One more element with a key of its own. -/
lemma nodup_map_snoc {α β : Type*} {f : α → β} {l : List α} {a : α} (h : (l.map f).Nodup)
    (ha : ∀ b ∈ l, f b ≠ f a) : ((l ++ [a]).map f).Nodup := by
  rw [List.map_append]
  refine h.append (List.nodup_singleton _) fun k hk hnew => ?_
  obtain ⟨b, hb, rfl⟩ := List.mem_map.mp hk
  exact ha b hb (List.mem_singleton.mp hnew)

/-! ## What an open transaction knows -/

section Knows
variable {ι : Type} {d d' : OutboxState ι} {i j : ι}

/-- A tick has claimed events: they are unrelayed, and it holds the locks on them. -/
structure Claims (d : OutboxState ι) (i : ι) (events : List OutboxEvent) : Prop where
  unrelayed : ∀ e ∈ events, e ∈ d.outbox ∧ e.relayedAt = none
  held : ∀ e ∈ events, d.locks.Holds i (.event e.id)

/-- A tick has inserted jobs: no other row has their identifiers, and it holds the locks on them. -/
structure Creates (d : OutboxState ι) (i : ι) (created : List (OutboxEvent × Job)) : Prop where
  same : ∀ c ∈ created, c.2.kind = c.1.eventType ∧ c.2.payload = c.1.payload
  fresh : ∀ c ∈ created, ∀ k ∈ d.jobs, k.id ≠ c.2.id
  held : ∀ c ∈ created, d.locks.Holds i (.job c.2.id)
  nodup : (created.map (fun c => c.2.id)).Nodup

/-- A transaction has inserted events: likewise. -/
structure Appends (d : OutboxState ι) (i : ι) (appended : List OutboxEvent) : Prop where
  unrelayed : ∀ e ∈ appended, e.relayedAt = none
  fresh : ∀ e ∈ appended, ∀ q ∈ d.outbox, q.id ≠ e.id
  held : ∀ e ∈ appended, d.locks.Holds i (.event e.id)
  nodup : (appended.map OutboxEvent.id).Nodup

/-- What a transaction knows where it stands. -/
def Knows (d : OutboxState ι) (i : ι) : OutboxPos → Prop
  | .ticking _ (.claiming _ rows events) =>
    Claims d i events ∧ ((events ++ rows).map OutboxEvent.id).Nodup
  | .ticking _ (.enqueue _ events todo created) =>
    Claims d i events ∧ (events.map OutboxEvent.id).Nodup ∧ Creates d i created ∧
      created.map Prod.fst ++ todo = events
  | .ticking _ (.mark _ events created) | .ticking _ (.commit _ events created) =>
    Claims d i events ∧ (events.map OutboxEvent.id).Nodup ∧ Creates d i created ∧
      created.map Prod.fst = events
  | .appending (.insert _ _ appended) | .appending (.commit appended) => Appends d i appended
  | _ => True

/-- Before its first statement a transaction knows nothing. -/
lemma knows_of_starts {p : OutboxPos} (h : p.starts = true) : Knows d i p := by
  unfold OutboxPos.starts at h
  split at h
  · trivial
  · trivial
  · cases h

/-- A transaction keeps its locks, the events under them are as they were, and no row appears under
an identifier that it has locked. -/
structure Spares (j : ι) (d d' : OutboxState ι) : Prop where
  held : ∀ k, d.locks.Holds j k → d'.locks.Holds j k
  events : ∀ e ∈ d.outbox, d.locks.Holds j (.event e.id) → e ∈ d'.outbox
  noEvent : ∀ q ∈ d'.outbox, d.locks.Holds j (.event q.id) → ∃ e ∈ d.outbox, e.id = q.id
  noJob : ∀ k ∈ d'.jobs, d.locks.Holds j (.job k.id) → ∃ b ∈ d.jobs, b.id = k.id

/-- Nothing has changed. -/
lemma spares_refl : Spares j d d :=
  ⟨fun _ => id, fun _ he _ => he, fun q hq _ => ⟨q, hq, rfl⟩, fun k hk _ => ⟨k, hk, rfl⟩⟩

/-- Drawing an identifier disturbs nobody. -/
lemma spares_draw : Spares j d d.draw :=
  ⟨fun _ => id, fun _ he _ => he, fun q hq _ => ⟨q, hq, rfl⟩, fun k hk _ => ⟨k, hk, rfl⟩⟩

namespace Spares
variable (h : Spares j d d')
include h

/-- The claimed events of a spared tick stay claimed. -/
lemma claims {events : List OutboxEvent} (hc : Claims d j events) : Claims d' j events := by
  refine ⟨fun e he => ?_, fun e he => h.held _ (hc.held e he)⟩
  obtain ⟨hmem, hnone⟩ := hc.unrelayed e he
  exact ⟨h.events e hmem (hc.held e he), hnone⟩

/-- The jobs of a spared tick stay its own. -/
lemma creates {created : List (OutboxEvent × Job)} (hc : Creates d j created) :
    Creates d' j created := by
  refine ⟨hc.same, fun c hmem k hk hid => ?_, fun c hmem => h.held _ (hc.held c hmem), hc.nodup⟩
  obtain ⟨b, hb, hbk⟩ := h.noJob k hk (hid ▸ hc.held c hmem)
  exact hc.fresh c hmem b hb (hbk.trans hid)

/-- The events of a spared transaction stay its own. -/
lemma appends {appended : List OutboxEvent} (ha : Appends d j appended) : Appends d' j appended := by
  refine ⟨ha.unrelayed, fun e he q hq hid => ?_, fun e he => h.held _ (ha.held e he), ha.nodup⟩
  obtain ⟨b, hb, hbq⟩ := h.noEvent q hq (hid ▸ ha.held e he)
  exact ha.fresh e he b hb (hbq.trans hid)

/-- What a transaction knows stays true while it is spared. -/
lemma knows {p : OutboxPos} (hp : Knows d j p) : Knows d' j p := by
  unfold Knows at hp ⊢
  split at hp
  · exact ⟨h.claims hp.1, hp.2⟩
  · exact ⟨h.claims hp.1, hp.2.1, h.creates hp.2.2.1, hp.2.2.2⟩
  · exact ⟨h.claims hp.1, hp.2.1, h.creates hp.2.2.1, hp.2.2.2⟩
  · exact ⟨h.claims hp.1, hp.2.1, h.creates hp.2.2.1, hp.2.2.2⟩
  · exact h.appends hp
  · exact h.appends hp
  · trivial

end Spares
end Knows

/-! ## The commit of a tick -/

section CommitTick
variable {ι : Type} {d : OutboxState ι} {i : ι} {start : Timestamp} {created : List (OutboxEvent × Job)}

/-- The events that a tick has enqueued. -/
abbrev enqueued (created : List (OutboxEvent × Job)) : List OutboxEvent := created.map Prod.fst

/-- The enqueued events are those that jobs were created from. -/
lemma mem_enqueued {e : OutboxEvent} :
    e.id ∈ (enqueued created).map OutboxEvent.id ↔ ∃ c ∈ created, c.1.id = e.id := by
  simp only [enqueued, List.map_map, List.mem_map, Function.comp_apply]

/-- The jobs of a tick are the ones it has created. -/
lemma mem_jobs_commitTick (hcreates : Creates d i created) {k : Job} :
    k ∈ (d.commitTick start (enqueued created) created).jobs ↔
      k ∈ d.jobs ∨ ∃ c ∈ created, c.2 = k := by
  have hfresh : ∀ b ∈ created.map Prod.snd, ∀ p ∈ d.jobs, p.id ≠ b.id := by
    intro b hb
    obtain ⟨c, hc, rfl⟩ := List.mem_map.mp hb
    exact hcreates.fresh c hc
  have hnodup : ((created.map Prod.snd).map Job.id).Nodup := by
    rw [List.map_map]
    exact hcreates.nodup
  refine (Table.mem_insertAll hfresh hnodup).trans (or_congr_right ?_)
  exact List.mem_map

/-- A created job comes from its event. -/
lemma source_of_created (hcreates : Creates d i created) {c : OutboxEvent × Job}
    (hc : c ∈ created) :
    (d.commitTick start (enqueued created) created).source c.2.id = some c.1.id := by
  simp only [OutboxState.commitTick]
  cases hfind : created.find? (fun c' => c'.2.id = c.2.id) with
  | none =>
    have hne := List.find?_eq_none.mp hfind c hc
    simp at hne
  | some c' =>
    have hc' : c' ∈ created := List.mem_of_find?_eq_some hfind
    have hid : c'.2.id = c.2.id := by simpa using List.find?_some hfind
    rw [List.inj_on_of_nodup_map hcreates.nodup hc' hc hid]

/-- All other jobs come from where they came. -/
lemma source_of_not_created {id : Uuid} (h : ∀ c ∈ created, c.2.id ≠ id) :
    (d.commitTick start (enqueued created) created).source id = d.source id := by
  have hfind : created.find? (fun c => c.2.id = id) = none := by
    refine List.find?_eq_none.mpr fun c hc => ?_
    simpa using h c hc
  simp only [OutboxState.commitTick, hfind]

/-- Where a job comes from after a commit. -/
lemma source_commitTick (hcreates : Creates d i created) {id event : Uuid}
    (h : (d.commitTick start (enqueued created) created).source id = some event) :
    (∃ c ∈ created, c.2.id = id ∧ c.1.id = event) ∨ d.source id = some event := by
  by_cases hnew : ∃ c ∈ created, c.2.id = id
  · obtain ⟨c, hc, rfl⟩ := hnew
    rw [source_of_created hcreates hc] at h
    exact Or.inl ⟨c, hc, rfl, Option.some.inj h⟩
  · push Not at hnew
    rw [source_of_not_created hnew] at h
    exact Or.inr h

/-- The events that a tick marks are those that it has claimed; the others stay. -/
lemma mem_outbox_commitTick (hclaims : Claims d i (enqueued created)) {e : OutboxEvent} :
    e ∈ (d.commitTick start (enqueued created) created).outbox ↔
      (∃ c ∈ created, e = c.1.relayed start) ∨ e ∈ d.outbox ∧ ∀ c ∈ created, c.1.id ≠ e.id := by
  refine mem_markRelayedInTx.trans ⟨?_, ?_⟩
  · rintro ⟨q, hq, rfl⟩
    split
    · rename_i hids
      obtain ⟨c, hc, hid⟩ := mem_enqueued.mp hids
      have hcq : c.1 = q :=
        Table.eq_of_key (hclaims.unrelayed c.1 (List.mem_map_of_mem hc)).1 hq hid
      exact Or.inl ⟨c, hc, by rw [hcq]⟩
    · rename_i hids
      exact Or.inr ⟨hq, fun c hc hid => hids (mem_enqueued.mpr ⟨c, hc, hid⟩)⟩
  · rintro (⟨c, hc, rfl⟩ | ⟨he, hnot⟩)
    · refine ⟨c.1, (hclaims.unrelayed c.1 (List.mem_map_of_mem hc)).1, ?_⟩
      rw [if_pos (mem_enqueued.mpr ⟨c, hc, rfl⟩)]
    · refine ⟨e, he, ?_⟩
      rw [if_neg]
      intro hids
      obtain ⟨c, hc, hid⟩ := mem_enqueued.mp hids
      exact hnot c hc hid

/-- A relayed event is none of those that a tick has claimed. -/
lemma not_claimed (hclaims : Claims d i (enqueued created)) {e : OutboxEvent} (he : e ∈ d.outbox)
    (hrelayed : e.relayedAt.isSome = true) : ∀ c ∈ created, c.1.id ≠ e.id := by
  intro c hc hid
  obtain ⟨hmem, hnone⟩ := hclaims.unrelayed c.1 (List.mem_map_of_mem hc)
  rw [Table.eq_of_key hmem he hid] at hnone
  rw [hnone] at hrelayed
  cases hrelayed

/-- A commit leaves the relayed events as they were. -/
lemma keepsRelayed_commitTick (hclaims : Claims d i (enqueued created)) :
    KeepsRelayed d (d.commitTick start (enqueued created) created) := fun _ he hrelayed =>
  (mem_outbox_commitTick hclaims).mpr (Or.inr ⟨he, not_claimed hclaims he hrelayed⟩)

/-- A commit links every event that it marks with the job it has created from it. -/
lemma linked_commitTick (hclaims : Claims d i (enqueued created))
    (hnodup : ((enqueued created).map OutboxEvent.id).Nodup) (hcreates : Creates d i created)
    (h : Linked d) : Linked (d.commitTick start (enqueued created) created) := by
  have hkept := @keepsRelayed_commitTick ι d i start created hclaims
  -- an event that already has a job is not claimed
  have hold : ∀ id event, d.source id = some event → ∀ c ∈ created, c.1.id ≠ event := by
    intro id event hsource c hc hid
    obtain ⟨-, e, he, hevent, hrelayed⟩ := h.sourced id event hsource
    exact not_claimed hclaims he hrelayed c hc (hid.trans hevent.symm)
  refine ⟨fun id event hsource => ?_, fun e he hrelayed => ?_, fun id id' event hsource hsource' => ?_⟩
  · rcases source_commitTick hcreates hsource with ⟨c, hc, rfl, rfl⟩ | hsource
    · exact ⟨⟨c.2, (mem_jobs_commitTick hcreates).mpr (Or.inr ⟨c, hc, rfl⟩), rfl⟩,
        c.1.relayed start, (mem_outbox_commitTick hclaims).mpr (Or.inl ⟨c, hc, rfl⟩), rfl, rfl⟩
    · obtain ⟨⟨k, hk, hid⟩, e, he, hevent, hrelayed⟩ := h.sourced id event hsource
      exact ⟨⟨k, (mem_jobs_commitTick hcreates).mpr (Or.inl hk), hid⟩,
        e, hkept e he hrelayed, hevent, hrelayed⟩
  · rcases (mem_outbox_commitTick hclaims).mp he with ⟨c, hc, rfl⟩ | ⟨hmem, -⟩
    · exact ⟨c.2, (mem_jobs_commitTick hcreates).mpr (Or.inr ⟨c, hc, rfl⟩),
        source_of_created hcreates hc, hcreates.same c hc⟩
    · obtain ⟨k, hk, hsource, hsame⟩ := h.relayed e hmem hrelayed
      refine ⟨k, (mem_jobs_commitTick hcreates).mpr (Or.inl hk), ?_, hsame⟩
      rw [source_of_not_created fun c hc hid => hcreates.fresh c hc k hk hid.symm]
      exact hsource
  · rcases source_commitTick hcreates hsource with ⟨c, hc, rfl, hevent⟩ | hsource
    · rcases source_commitTick hcreates hsource' with ⟨c', hc', rfl, hevent'⟩ | hsource'
      · -- one event is enqueued once
        have hids : (created.map (fun c => c.1.id)).Nodup := by
          rw [enqueued, List.map_map] at hnodup
          exact hnodup
        rw [List.inj_on_of_nodup_map hids hc hc' (hevent.trans hevent'.symm)]
      · exact absurd hevent (hold id' event hsource' c hc)
    · rcases source_commitTick hcreates hsource' with ⟨c', hc', rfl, hevent'⟩ | hsource'
      · exact absurd hevent' (hold id event hsource c' hc')
      · exact h.single id id' event hsource hsource'

end CommitTick

/-! ## The commit of an append -/

section CommitAppend
variable {ι : Type} {d : OutboxState ι} {i : ι} {appended : List OutboxEvent}

/-- A commit adds the events that were appended. -/
lemma mem_outbox_commitAppend (happends : Appends d i appended) {e : OutboxEvent} :
    e ∈ (d.commitAppend appended).outbox ↔ e ∈ d.outbox ∨ e ∈ appended :=
  Table.mem_insertAll happends.fresh happends.nodup

/-- New events have not been relayed, so nothing comes from them. -/
lemma linked_commitAppend (happends : Appends d i appended) (h : Linked d) :
    Linked (d.commitAppend appended) := by
  refine ⟨fun id event hsource => ?_, fun e he hrelayed => ?_, h.single⟩
  · obtain ⟨hjob, e, he, hevent, hrelayed⟩ := h.sourced id event hsource
    exact ⟨hjob, e, (mem_outbox_commitAppend happends).mpr (Or.inl he), hevent, hrelayed⟩
  · rcases (mem_outbox_commitAppend happends).mp he with hold | hnew
    · exact h.relayed e hold hrelayed
    · rw [happends.unrelayed e hnew] at hrelayed
      cases hrelayed

/-- A commit of new events leaves the relayed ones as they were. -/
lemma keepsRelayed_commitAppend (happends : Appends d i appended) :
    KeepsRelayed d (d.commitAppend appended) := fun _ he _ =>
  (mem_outbox_commitAppend happends).mpr (Or.inl he)

end CommitAppend

/-! ## What else happens -/

section OtherWork
variable {ι : Type} {d d' : OutboxState ι} {j : ι} (h : OtherWork d d')
include h

/-- Other work disturbs no transaction of the outbox. -/
lemma OtherWork.spares : Spares j d d' := by
  refine ⟨fun k hheld => ?_, fun e he _ => ?_, fun q hq _ => ?_, fun k hk hheld => ?_⟩
  · rw [h.locks]
    exact hheld
  · rw [h.outbox]
    exact he
  · rw [h.outbox] at hq
    exact ⟨q, hq, rfl⟩
  · rcases h.added k hk with hold | hfree
    · exact hold
    · exact absurd hheld (hfree j)

/-- Other work leaves the links alone. -/
lemma OtherWork.linked (hl : Linked d) : Linked d' := by
  refine ⟨fun id event hsource => ?_, fun e he hrelayed => ?_, fun id id' event hsource hsource' => ?_⟩
  · rw [h.source] at hsource
    obtain ⟨⟨k, hk, rfl⟩, hevent⟩ := hl.sourced id event hsource
    obtain ⟨b, hb, hid, -, -⟩ := h.kept k hk
    rw [h.outbox]
    exact ⟨⟨b, hb, hid⟩, hevent⟩
  · rw [h.outbox] at he
    obtain ⟨k, hk, hsource, hkind, hpayload⟩ := hl.relayed e he hrelayed
    obtain ⟨b, hb, hid, hkind', hpayload'⟩ := h.kept k hk
    refine ⟨b, hb, ?_, hkind'.trans hkind, hpayload'.trans hpayload⟩
    rw [h.source, hid]
    exact hsource
  · rw [h.source] at hsource hsource'
    exact hl.single id id' event hsource hsource'

/-- Other work leaves the relayed events alone. -/
lemma OtherWork.keepsRelayed : KeepsRelayed d d' := by
  intro e he _
  rw [h.outbox]
  exact he

end OtherWork

section JobsWork
variable {ι : Type} {d : OutboxState ι} {t : JobsTable} {now : Timestamp}

/-- Rewriting jobs is other work when it leaves kind and payload alone. -/
lemma otherWork_updateWhere {p : Job → Bool} {f : Job → Job} {hf : ∀ j, (f j).id = j.id}
    (hsame : ∀ j, (f j).kind = j.kind ∧ (f j).payload = j.payload) :
    OtherWork d { d with jobs := d.jobs.updateWhere p f hf } := by
  have hmem : ∀ k, k ∈ d.jobs.updateWhere p f hf ↔ ∃ j ∈ d.jobs, (if p j then f j else j) = k :=
    fun _ => Table.mem_updateWhere
  refine ⟨rfl, rfl, rfl, fun j hj => ?_, fun k hk => ?_⟩
  · refine ⟨if p j then f j else j, (hmem _).mpr ⟨j, hj, rfl⟩, ?_⟩
    split
    · exact ⟨hf j, hsame j⟩
    · exact ⟨rfl, rfl, rfl⟩
  · obtain ⟨j, hj, rfl⟩ := (hmem k).mp hk
    refine Or.inl ⟨j, hj, ?_⟩
    split
    · exact (hf j).symm
    · rfl

/-- A worker that marks a job does other work. -/
lemma otherWork_mark {m : Mark} (h : m.exec d.jobs now = some t) :
    OtherWork d { d with jobs := t } := by
  rw [Mark.exec_eq h]
  exact otherWork_updateWhere fun j => ⟨Mark.apply_kind, by cases m <;> rfl⟩

/-- A worker that claims jobs does other work. -/
lemma otherWork_claimDue {req : ClaimRequest} {scan returned : List Job} {locked : Uuid → Bool}
    (h : claimDue d.jobs req now scan locked = some (t, returned)) :
    OtherWork d { d with jobs := t } := by
  unfold claimDue at h
  split at h
  · cases h
    exact ⟨rfl, rfl, rfl, fun j hj => ⟨j, hj, rfl, rfl, rfl⟩, fun k hk => Or.inl ⟨k, hk, rfl⟩⟩
  · simp only at h
    split at h
    · cases h
    · cases h
      exact otherWork_updateWhere fun j => ⟨rfl, rfl⟩

/-- Whoever enqueues a job under an identifier that no open transaction has inserted does other
work. -/
lemma otherWork_enqueue {id : Uuid} {req : EnqueueRequest}
    (h : enqueueInTx d.jobs id req now = some t) (hfree : ∀ i, ¬ d.locks.Holds i (.job id)) :
    OtherWork d { d with jobs := t } := by
  rw [enqueueInTx_eq] at h
  refine ⟨rfl, rfl, rfl, fun j hj => ?_, fun k hk => ?_⟩
  · exact ⟨j, (Table.mem_insert? h).mpr (Or.inl hj), rfl, rfl, rfl⟩
  · rcases (Table.mem_insert? h).mp hk with hold | rfl
    · exact Or.inl ⟨k, hold, rfl⟩
    · exact Or.inr hfree

/-- Whatever a statement does to the jobs is other work. -/
theorem otherWork_store {s s' : Store} {op : Op} (step : Store.Step s op s') (table : s.table = d.jobs)
    (free : ∀ id req now, op = .enqueue id req now → ∀ i, ¬ d.locks.Holds i (.job id)) :
    OtherWork d { d with jobs := s'.table } := by
  cases step with
  | enqueue past stmt => exact otherWork_enqueue (table ▸ stmt) (free _ _ _ rfl)
  | claim past perm stmt order => exact otherWork_claimDue (table ▸ stmt)
  | mark past stmt => exact otherWork_mark (table ▸ stmt)
  | tick le =>
    rw [table]
    exact ⟨rfl, rfl, rfl, fun j hj => ⟨j, hj, rfl, rfl, rfl⟩, fun k hk => Or.inl ⟨k, hk, rfl⟩⟩

end JobsWork

/-! ## What the steps do -/

section Effects
variable {ι : Type} {d d' : OutboxState ι} {i j : ι}

/-- What a step does to the mover, to the others and to the committed state. -/
structure HandsOver (i : ι) (d : OutboxState ι) (q : OutboxPos) (d' : OutboxState ι) : Prop where
  knows : Knows d' i q
  spares : ∀ j, j ≠ i → Spares j d d'
  linked : Linked d → Linked d'
  relayed : KeepsRelayed d d'

/-- A step that changes nothing but the position hands over what is known there. -/
lemma handsOver_same {q : OutboxPos} (h : Knows d i q) : HandsOver i d q d :=
  ⟨h, fun _ _ => spares_refl, id, keepsRelayed_refl⟩

/-- Drawing an identifier changes nothing that anybody knows. -/
lemma handsOver_draw {q : OutboxPos} (h : HandsOver i d.draw q d') : HandsOver i d q d' :=
  ⟨h.knows, fun j hne => ⟨(h.spares j hne).held, (h.spares j hne).events, (h.spares j hne).noEvent,
    (h.spares j hne).noJob⟩, fun hl => h.linked ⟨hl.sourced, hl.relayed, hl.single⟩, h.relayed⟩

variable [DecidableEq ι]

/-- A lock that is granted harms nobody. -/
lemma spares_lock {k : RowRef} (h : d.locks.grants i k = true) : Spares j d (d.lock i k) :=
  ⟨fun _ hheld => hheld.take h, fun _ he _ => he, fun q hq _ => ⟨q, hq, rfl⟩,
    fun b hb _ => ⟨b, hb, rfl⟩⟩

/-- Releasing locks takes none from the others. -/
lemma spares_release (h : j ≠ i) : Spares j d (d.release i) :=
  ⟨fun _ hheld => hheld.releaseAll h, fun _ he _ => he, fun q hq _ => ⟨q, hq, rfl⟩,
    fun b hb _ => ⟨b, hb, rfl⟩⟩

/-- A granted lock leaves the events and the jobs as they are. -/
lemma handsOver_lock {q : OutboxPos} {k : RowRef} (hgrants : d.locks.grants i k = true)
    (h : Knows (d.lock i k) i q) : HandsOver i d q (d.lock i k) :=
  ⟨h, fun _ _ => spares_lock hgrants, fun hl => ⟨hl.sourced, hl.relayed, hl.single⟩,
    keepsRelayed_refl⟩

/-- The end of a transaction that rolls back. -/
lemma handsOver_release {q : OutboxPos} (h : Knows (d.release i) i q) :
    HandsOver i d q (d.release i) :=
  ⟨h, fun _ hne => spares_release hne, fun hl => ⟨hl.sourced, hl.relayed, hl.single⟩,
    keepsRelayed_refl⟩

/-- A commit touches no row and no identifier that another transaction has locked. -/
lemma spares_commitTick {start : Timestamp} {created : List (OutboxEvent × Job)}
    (hclaims : Claims d i (enqueued created)) (hcreates : Creates d i created) (hne : j ≠ i) :
    Spares j d ((d.commitTick start (enqueued created) created).release i) := by
  refine ⟨fun _ hheld => hheld.releaseAll hne, fun e he hheld => ?_, fun q hq _ => ?_,
    fun k hk hheld => ?_⟩
  · refine (mem_outbox_commitTick hclaims).mpr (Or.inr ⟨he, fun c hc hid => ?_⟩)
    exact hne (hheld.unique (hid ▸ hclaims.held c.1 (List.mem_map_of_mem hc)))
  · exact id_of_mem_markRelayedInTx hq
  · rcases (@mem_jobs_commitTick ι d i start created hcreates k).mp hk with hmem | ⟨c, hc, rfl⟩
    · exact ⟨k, hmem, rfl⟩
    · exact absurd (hheld.unique (hcreates.held c hc)) hne

/-- A commit of new events disturbs nobody else. -/
lemma spares_commitAppend {appended : List OutboxEvent} (happends : Appends d i appended)
    (hne : j ≠ i) : Spares j d ((d.commitAppend appended).release i) := by
  refine ⟨fun _ hheld => hheld.releaseAll hne, fun e he _ => ?_, fun q hq hheld => ?_,
    fun k hk _ => ⟨k, hk, rfl⟩⟩
  · exact (mem_outbox_commitAppend happends).mpr (Or.inl he)
  · rcases (mem_outbox_commitAppend happends).mp hq with hold | hnew
    · exact ⟨q, hold, rfl⟩
    · exact absurd (hheld.unique (happends.held q hnew)) hne

/-! ### The steps of a tick -/

section Tick
variable {cfg : OutboxRelayerConfig} {start : Timestamp} {events : List OutboxEvent}
  {created : List (OutboxEvent × Job)}

/-- A tick whose claim is complete knows what it has claimed. -/
lemma handsOver_claimed {q : TickPos}
    (h : claimed i start events d = (q, d')) (hclaims : Claims d i events)
    (hnodup : (events.map OutboxEvent.id).Nodup) : HandsOver i d (.ticking cfg q) d' := by
  unfold claimed at h
  split at h
  · cases h
    exact handsOver_release trivial
  · cases h
    exact handsOver_same ⟨hclaims, hnodup, ⟨by simp, by simp, by simp, List.nodup_nil⟩, rfl⟩

/-- A tick claims one more event. -/
lemma Claims.lock {e : OutboxEvent} (h : Claims d i events)
    (hgrants : d.locks.grants i (.event e.id) = true) (he : e ∈ d.outbox)
    (hnone : e.relayedAt = none) : Claims (d.lock i (.event e.id)) i (events ++ [e]) := by
  have hspares : Spares i d (d.lock i (.event e.id)) := spares_lock hgrants
  have hold := hspares.claims h
  refine ⟨List.forall_mem_append.mpr ⟨hold.unrelayed, ?_⟩,
    List.forall_mem_append.mpr ⟨hold.held, ?_⟩⟩
  · exact List.forall_mem_singleton.mpr ⟨he, hnone⟩
  · exact List.forall_mem_singleton.mpr Locks.holds_take

/-- A tick creates one more job. -/
lemma Creates.lock {e : OutboxEvent} {k : Job} (h : Creates d i created)
    (hgrants : d.locks.grants i (.job k.id) = true)
    (hsame : k.kind = e.eventType ∧ k.payload = e.payload) (hjobs : ∀ b ∈ d.jobs, b.id ≠ k.id)
    (hcreated : ∀ c ∈ created, c.2.id ≠ k.id) :
    Creates (d.lock i (.job k.id)) i (created ++ [(e, k)]) := by
  have hspares : Spares i d (d.lock i (.job k.id)) := spares_lock hgrants
  have hold := hspares.creates h
  refine ⟨List.forall_mem_append.mpr ⟨hold.same, ?_⟩, List.forall_mem_append.mpr ⟨hold.fresh, ?_⟩,
    List.forall_mem_append.mpr ⟨hold.held, ?_⟩, nodup_map_snoc hold.nodup hcreated⟩
  · exact List.forall_mem_singleton.mpr hsame
  · exact List.forall_mem_singleton.mpr hjobs
  · exact List.forall_mem_singleton.mpr Locks.holds_take

/-- Every step of a tick hands over what it knows. -/
lemma handsOver_tickNext {p q : TickPos} (h : tickNext cfg i p d = some (q, d'))
    (hknows : Knows d i (.ticking cfg p)) : HandsOver i d (.ticking cfg q) d' := by
  cases p with
  | claim =>
    cases h
    refine handsOver_same ⟨⟨by simp, by simp⟩, ?_⟩
    rw [List.nil_append]
    exact nodup_unrelayed
  | claiming start rows events =>
    obtain ⟨hclaims, hnodup⟩ := hknows
    have hevents : (events.map OutboxEvent.id).Nodup := by
      rw [List.map_append] at hnodup
      exact hnodup.of_append_left
    cases rows with
    | nil => exact handsOver_claimed (Option.some.inj h) hclaims hevents
    | cons r rows =>
      have hskip : ((events ++ rows).map OutboxEvent.id).Nodup :=
        (((List.sublist_cons_self r rows).append_left events).map OutboxEvent.id).nodup hnodup
      simp only [tickNext] at h
      split at h
      -- the batch is full
      · exact handsOver_claimed (Option.some.inj h) hclaims hevents
      split at h
      · rename_i hgrants
        split at h
        · rename_i e hfind
          cases h
          -- the row under the lock is the latest one and still unrelayed
          obtain ⟨hfind, hnone⟩ := Option.filter_eq_some_iff.mp hfind
          obtain ⟨he, hid⟩ := Table.find?_eq_some.mp hfind
          rw [← hid] at hgrants ⊢
          refine handsOver_lock hgrants ⟨hclaims.lock hgrants he (of_decide_eq_true hnone), ?_⟩
          have hids : ((events ++ [e]) ++ rows).map OutboxEvent.id =
              (events ++ r :: rows).map OutboxEvent.id := by
            simp [hid]
          rw [hids]
          exact hnodup
        · cases h
          exact handsOver_same ⟨hclaims, hskip⟩
      · -- `SKIP LOCKED`
        cases h
        exact handsOver_same ⟨hclaims, hskip⟩
  | enqueue start events todo created =>
    obtain ⟨hclaims, hnodup, hcreates, hall⟩ := hknows
    cases todo with
    | nil =>
      cases h
      rw [List.append_nil] at hall
      exact handsOver_same ⟨hclaims, hnodup, hcreates, hall⟩
    | cons e todo =>
      simp only [tickNext] at h
      split at h
      · rename_i hgrants
        split at h
        · cases h
          exact handsOver_draw (handsOver_release trivial)
        · rename_i hfree
          cases h
          obtain ⟨hjobs, hcreated⟩ := Bool.or_eq_false_iff.mp (eq_false_of_ne_true hfree)
          have hdraw : Spares i d d.draw := spares_draw
          have hgrants' : d.draw.locks.grants i (.job (d.uuids.headD 0)) = true := hgrants
          have hcreates' := @Creates.lock ι d.draw i _ created e
            (cfg.job e (d.uuids.headD 0) start d.now) (hdraw.creates hcreates) hgrants' ⟨rfl, rfl⟩
            (fun b hb => of_decide_eq_false (eq_false_of_ne_true (Table.any_eq_false.mp hjobs b hb)))
            fun c hc => of_decide_eq_false (eq_false_of_ne_true (List.any_eq_false.mp hcreated c hc))
          refine handsOver_draw (handsOver_lock hgrants' ⟨?_, hnodup, hcreates', ?_⟩)
          · exact (spares_lock hgrants').claims (hdraw.claims hclaims)
          · rw [List.map_append, List.append_assoc]
            exact hall
      · cases h
  | mark start events created =>
    cases h
    exact handsOver_same hknows
  | commit start events created =>
    -- all events of the batch have their jobs by now
    obtain ⟨hclaims, hnodup, hcreates, rfl⟩ := hknows
    cases h
    refine ⟨trivial, fun j hne => spares_commitTick hclaims hcreates hne, fun hl => ?_, ?_⟩
    · have hlinked := @linked_commitTick ι d i start created hclaims hnodup hcreates hl
      exact ⟨hlinked.sourced, hlinked.relayed, hlinked.single⟩
    · exact keepsRelayed_commitTick hclaims
  | done r => cases h

end Tick

/-! ### The steps of an append -/

/-- A transaction appends one more event. -/
lemma Appends.lock {appended : List OutboxEvent} {e : OutboxEvent} (h : Appends d i appended)
    (hgrants : d.locks.grants i (.event e.id) = true) (hnone : e.relayedAt = none)
    (houtbox : ∀ q ∈ d.outbox, q.id ≠ e.id) (happended : ∀ q ∈ appended, q.id ≠ e.id) :
    Appends (d.lock i (.event e.id)) i (appended ++ [e]) := by
  have hspares : Spares i d (d.lock i (.event e.id)) := spares_lock hgrants
  have hold := hspares.appends h
  refine ⟨List.forall_mem_append.mpr ⟨hold.unrelayed, ?_⟩,
    List.forall_mem_append.mpr ⟨hold.fresh, ?_⟩, List.forall_mem_append.mpr ⟨hold.held, ?_⟩,
    nodup_map_snoc hold.nodup happended⟩
  · exact List.forall_mem_singleton.mpr hnone
  · exact List.forall_mem_singleton.mpr houtbox
  · exact List.forall_mem_singleton.mpr Locks.holds_take

/-- Every step of an appending transaction hands over what it knows. -/
lemma handsOver_appendNext {p q : AppendPos} (h : appendNext i p d = some (q, d'))
    (hknows : Knows d i (.appending p)) : HandsOver i d (.appending q) d' := by
  cases p with
  | start reqs =>
    cases h
    exact handsOver_same ⟨by simp, by simp, by simp, List.nodup_nil⟩
  | insert start reqs appended =>
    cases reqs with
    | nil =>
      cases h
      exact handsOver_same hknows
    | cons req reqs =>
      simp only [appendNext] at h
      split at h
      · rename_i hgrants
        split at h
        · cases h
          exact handsOver_draw (handsOver_release trivial)
        · rename_i hfree
          cases h
          obtain ⟨houtbox, happended⟩ := Bool.or_eq_false_iff.mp (eq_false_of_ne_true hfree)
          have hdraw : Spares i d d.draw := spares_draw
          have hgrants' : d.draw.locks.grants i (.event (d.uuids.headD 0)) = true := hgrants
          refine handsOver_draw (handsOver_lock hgrants' ?_)
          refine @Appends.lock ι d.draw i _ appended (req.event (d.uuids.headD 0) start)
            (hdraw.appends hknows) hgrants' rfl (fun q hq => ?_) fun q hq => ?_
          · exact of_decide_eq_false (eq_false_of_ne_true (Table.any_eq_false.mp houtbox q hq))
          · exact of_decide_eq_false (eq_false_of_ne_true (List.any_eq_false.mp happended q hq))
      · cases h
  | commit appended =>
    cases h
    refine ⟨trivial, fun j hne => spares_commitAppend hknows hne, fun hl => ?_, ?_⟩
    · have hlinked := linked_commitAppend hknows hl
      exact ⟨hlinked.sourced, hlinked.relayed, hlinked.single⟩
    · exact keepsRelayed_commitAppend hknows
  | done r => cases h

/-! ### Every step -/

/-- Whatever a transaction does, dropped or not, it hands over. -/
lemma OutboxStep.handsOver {p q : OutboxPos} (h : OutboxStep i p d q d') (hknows : Knows d i p) :
    HandsOver i d q d' := by
  cases h with
  | next h =>
    cases p with
    | ticking cfg p =>
      obtain ⟨⟨q, d₁⟩, hnext, heq⟩ := Option.map_eq_some_iff.mp h
      cases heq
      exact handsOver_tickNext hnext hknows
    | appending p =>
      obtain ⟨⟨q, d₁⟩, hnext, heq⟩ := Option.map_eq_some_iff.mp h
      cases heq
      exact handsOver_appendNext hnext hknows
  | drops _ =>
    refine handsOver_release ?_
    cases p with
    | ticking cfg p => exact trivial
    | appending p => exact trivial

/-- Relayers and transactions that append events cooperate. -/
lemma outboxSystem_cooperates : Cooperates (outboxSystem ι) Linked KeepsRelayed Knows where
  starts h := knows_of_starts h
  step h hl hknows :=
    have hover := OutboxStep.handsOver h hknows
    ⟨hover.linked hl, hover.relayed, hover.knows⟩
  others h _ hknows hne hr := ((OutboxStep.handsOver h hknows).spares _ hne).knows hr
  env h hl := ⟨OtherWork.linked h hl, OtherWork.keepsRelayed h⟩
  spared h _ hr := (OtherWork.spares h).knows hr

end Effects

/-- However relayers and transactions that append events interleave, and wherever they are dropped,
exactly one job has been created from each relayed event, with its type and payload, and none from
any other event; and an event that has been relayed stays so. -/
theorem outbox_exactly_once {ι : Type} [DecidableEq ι] (s : OutboxState ι) (hs : Fresh s)
    (ms : List (Move (Pool ι (OutboxState ι) OutboxPos) (Turn ι)))
    (P : Pool ι (OutboxState ι) OutboxPos)
    (run : Run (Pool.Step (outboxSystem ι)) (Pool.idle ι OutboxPos s) ms P) :
    HandedOff P.state ∧ ∀ n m, n ≤ m → m ≤ P.time → KeepsRelayed (P.hist n) (P.hist m) := by
  have hidle : (Pool.idle ι OutboxPos s).Sound Linked Knows := Pool.sound_idle hs.linked
  have hsound := outboxSystem_cooperates.sound_run run hidle
  have hadvances := outboxSystem_cooperates.advances_run (fun _ => keepsRelayed_refl)
    (fun _ _ _ => KeepsRelayed.trans) run hidle (Pool.advances_idle fun _ => keepsRelayed_refl)
  exact ⟨hsound.state.handedOff, hadvances⟩

section Runs

/-- Nothing has happened yet; two identifiers are ready to be drawn. -/
def freshOutbox : OutboxState Client := ⟨.empty, .empty, fun _ => none, .free, 100, [0xe1, 0xb1]⟩

/-- An event is appended, and two relayers overlap on it: the second one skips it. -/
def overlap : List (Act Client OutboxPos) :=
  .begins .first (.appending (.start [.new "user.created" .null])) :: Act.steps .first 4 ++
    .begins .second (.ticking ⟨10, 3⟩ .claim) :: .begins .third (.ticking ⟨10, 3⟩ .claim) ::
    Act.steps .second 3 ++ Act.steps .third 3 ++ Act.steps .second 4

/-- Of two relayers that overlap on an event one hands it off. -/
theorem outbox_exactly_once_overlap :
    ∃ P, Pool.perform (outboxSystem Client) OutboxPos.next (fun _ _ => true)
        (Pool.idle Client OutboxPos freshOutbox) overlap = some P ∧
      P.calls .second = some ⟨.ticking ⟨10, 3⟩ (.done (.ok 1)), 6, none, some 17⟩ ∧
      P.calls .third = some ⟨.ticking ⟨10, 3⟩ (.done (.ok 0)), 7, none, some 13⟩ ∧
      HandedOff P.state := by
  have hends : (Pool.perform (outboxSystem Client) OutboxPos.next (fun _ _ => true)
      (Pool.idle Client OutboxPos freshOutbox) overlap).map
        (fun P => (P.calls .second, P.calls .third)) =
      some (some ⟨.ticking ⟨10, 3⟩ (.done (.ok 1)), 6, none, some 17⟩,
        some ⟨.ticking ⟨10, 3⟩ (.done (.ok 0)), 7, none, some 13⟩) := by decide +kernel
  obtain ⟨P, hP, hcalls⟩ := Option.map_eq_some_iff.mp hends
  obtain ⟨hfirst, hsecond⟩ := Prod.mk.inj hcalls
  obtain ⟨ms, hrun, -⟩ := Pool.run_of_perform (fun h => OutboxStep.next h) hP
  exact ⟨P, hP, hfirst, hsecond, (outbox_exactly_once freshOutbox ⟨rfl, fun _ => rfl⟩ ms P hrun).1⟩

end Runs
end Egras.Outbox
