import Egras.Features.ReadYourWrites

/-!
# How stale an evaluation can be

Other nodes write overrides straight into the database, without a word to the cache of this node. A
cached value was in force at an instant no longer than the time to live before it expires, as its
expiry is computed from a clock reading before the override is read (`Bounded`). So an evaluation
yields a value that was in force less than the time to live before it began, or later
(`evaluate_bounded_staleness`).
-/

namespace Egras
open Lib

/-- What happens besides the calls on this node: the clock goes on, and another node writes or
deletes an override. -/
inductive OtherNodes (w w' : World) : Prop
  | elapses (tables : w'.tables = w.tables) (cache : w'.cache = w.cache) (now : w.now ≤ w'.now)
  | writes (f : OrgFeatureOverride) (upsert : w.tables.upsertFeature f = .ok w'.tables)
      (cache : w'.cache = w.cache) (now : w'.now = w.now)
  | deletes (org : Uuid) (slug : String)
      (tables : w'.tables = { w.tables with
        organisationFeatures :=
          w.tables.organisationFeatures.deleteWhere (fun f => f.key = (org, slug)) })
      (cache : w'.cache = w.cache) (now : w'.now = w.now)

/-- Each override belongs to a flag of the catalog, as the reference to it demands. -/
def Tables.OverridesKnown (t : Tables) : Prop :=
  ∀ f ∈ t.organisationFeatures, (t.definition f.slug).isSome = true

section
variable {ι : Type} {ttl : ℕ}

/-- What an evaluation knows at its position: when it read the clock, and the instant at which its
value was in force. -/
def Dated (ttl : ℕ) (P : Pool ι World FeaturePos) (c : Call FeaturePos) : Prop :=
  match c.pos with
  | .evaluating _ _ (.lookup now) => (P.hist c.began).now ≤ now ∧ now ≤ P.state.now
  | .evaluating _ _ (.override now) => (P.hist c.began).now ≤ now ∧ now ≤ P.state.now
  | .evaluating org slug (.definition now) => (P.hist c.began).now ≤ now ∧
    ∃ m, c.mark = some m ∧ now ≤ (P.hist m).now ∧ (P.hist m).tables.override org slug = none
  | .evaluating org slug (.insert now v) => (P.hist c.began).now ≤ now ∧
    (P.state.tables.definition slug).isSome = true ∧
    ∃ m, c.mark = some m ∧ now ≤ (P.hist m).now ∧ (P.hist m).inForce (org, slug) = some v
  | .evaluating org slug (.done (.ok v)) =>
    ∃ e r, c.ended = some e ∧ r ≤ e ∧ (P.hist r).inForce (org, slug) = some v ∧
      ((P.hist c.began).now - ttl < (P.hist r).now ∨ ttl = 0 ∧ c.began ≤ r)
  | _ => True

/-- The invariant: the clock never goes back, and each cached value was in force no longer than the
time to live before it expires. -/
structure Bounded (ttl : ℕ) (P : Pool ι World FeaturePos) : Prop where
  timely : ∀ i c, P.calls i = some c → Pool.Timely (featureSystem ι ttl OtherNodes) P c
  clock : ∀ n ≤ P.time, (P.hist n).now ≤ P.state.now
  definitions : ∀ n ≤ P.time,
    (P.hist n).tables.featureDefinitions = P.state.tables.featureDefinitions
  known : P.state.tables.OverridesKnown
  cached : ∀ entry ∈ P.state.cache, (P.state.tables.definition entry.slug).isSome = true ∧
    ∃ r ≤ P.time, (P.hist r).inForce entry.key = some entry.value ∧
      entry.expiresAt ≤ (P.hist r).now + ttl
  calls : ∀ i c, P.calls i = some c → Dated ttl P c

variable [DecidableEq ι] {P Q : Pool ι World FeaturePos} {turn : Turn ι} {c : Call FeaturePos}
  {i : ι}

/-- A step of the pool. -/
abbrev NodeStep (ι : Type) [DecidableEq ι] (ttl : ℕ) :=
  Pool.Step (featureSystem ι ttl OtherNodes)

/-- What every step leaves alone: the catalog, that overrides belong to it, and the past of the
clock. -/
structure Steady (w w' : World) : Prop where
  definitions : w'.tables.featureDefinitions = w.tables.featureDefinitions
  known : w.tables.OverridesKnown → w'.tables.OverridesKnown
  now : w.now ≤ w'.now

/-- A write of overrides is steady. -/
lemma Overwrites.steady {w w' : World} (h : Overwrites w w') : Steady w w' := by
  refine ⟨h.definitions, fun hw f hf => ?_, h.now.ge⟩
  unfold Tables.definition
  rw [h.definitions]
  rcases h.known f hf with hold | hnew
  · exact hw f hold
  · exact hnew

/-- A quiet step is steady. -/
lemma Quiet.steady {w w' : World} (h : Quiet w w') : Steady w w' :=
  ⟨by rw [h.tables], fun hw => by rw [h.tables]; exact hw, h.now.ge⟩

/-- Nothing has changed. -/
lemma steady_refl {w : World} : Steady w w := ⟨rfl, id, le_refl _⟩

/-- Every step of a call is steady. -/
lemma Moves.steady {p q : FeaturePos} {w w' : World} (h : Moves ttl p w q w') : Steady w w' := by
  cases h with
  | writes _ _ _ _ writes => exact writes.steady
  | overridden _ quiet => exact quiet.steady
  | plain _ quiet => exact quiet.steady
  | defaults _ quiet => exact quiet.steady
  | fails quiet _ => exact quiet.steady
  | prepares _ _ _ _ _ quiet => exact quiet.steady
  | clocks => exact steady_refl
  | hits _ _ => exact steady_refl
  | misses => exact steady_refl
  | fills => exact ⟨rfl, id, le_refl _⟩
  | invalidates _ _ _ _ _ => exact ⟨rfl, id, le_refl _⟩

/-- The writes of other nodes are steady. -/
lemma OtherNodes.steady {w w' : World} (h : OtherNodes w w') : Steady w w' := by
  cases h with
  | elapses tables _ now => exact ⟨by rw [tables], fun hw => by rw [tables]; exact hw, now⟩
  | writes f upsert cache now => exact (overwrites_of_upsertFeature upsert cache now).steady
  | deletes org slug tables _ now =>
    refine ⟨by rw [tables], fun hw f hf => ?_, now.ge⟩
    rw [tables] at hf ⊢
    exact hw f (Table.mem_deleteWhere.mp hf).1

/-- Every step is steady. -/
lemma steady_of_step (h : NodeStep ι ttl P turn Q) : Steady P.state Q.state := by
  cases h with
  | begins free starts =>
    rw [Pool.put_state, Pool.push_state]
    exact steady_refl
  | elsewhere env =>
    rw [Pool.push_state]
    exact env.steady
  | moves there step =>
    rw [Pool.put_state, Pool.push_state]
    exact (moves_of_next step).steady

/-- A value in the cache was there before or is filled in by the call that moves. -/
lemma entry_of_nodeStep (h : NodeStep ι ttl P turn Q) {entry : CachedValue}
    (hentry : entry ∈ Q.state.cache) : entry ∈ P.state.cache ∨
      ∃ i c now, P.calls i = some c ∧
        c.pos = .evaluating entry.organisationId entry.slug (.insert now entry.value) ∧
        entry.expiresAt = now + ttl := by
  cases h with
  | begins free starts =>
    rw [Pool.put_state, Pool.push_state] at hentry
    exact Or.inl hentry
  | elsewhere env =>
    rw [Pool.push_state] at hentry
    cases env with
    | elapses _ cache _ => exact Or.inl (cache ▸ hentry)
    | writes _ _ cache _ => exact Or.inl (cache ▸ hentry)
    | deletes _ _ _ cache _ => exact Or.inl (cache ▸ hentry)
  | @moves i c q s there step =>
    rw [Pool.put_state, Pool.push_state] at hentry
    rcases (moves_of_next step).entry hentry with hold | ⟨now, hpos, hexpires⟩
    · exact Or.inl hold
    · exact Or.inr ⟨i, c, now, there, hpos, hexpires⟩

/-- What an evaluation knows stays true while it does not move. -/
lemma Dated.step (h : NodeStep ι ttl P turn Q) (hc : Dated ttl P c)
    (ht : Pool.Timely (featureSystem ι ttl OtherNodes) P c) : Dated ttl Q c := by
  have hsteady := steady_of_step h
  have hbegan := h.hist ht.began
  unfold Dated at hc ⊢
  split at hc
  · exact ⟨by rw [hbegan]; exact hc.1, hc.2.trans hsteady.now⟩
  · exact ⟨by rw [hbegan]; exact hc.1, hc.2.trans hsteady.now⟩
  · obtain ⟨hnow, m, hm, hclock, hnone⟩ := hc
    rw [← h.hist (ht.mark m hm).2] at hclock hnone
    exact ⟨by rw [hbegan]; exact hnow, m, hm, hclock, hnone⟩
  · obtain ⟨hnow, hdef, m, hm, hclock, hforce⟩ := hc
    rw [← h.hist (ht.mark m hm).2] at hclock hforce
    refine ⟨by rw [hbegan]; exact hnow, ?_, m, hm, hclock, hforce⟩
    unfold Tables.definition
    rw [hsteady.definitions]
    exact hdef
  · obtain ⟨e, r, he, hre, hforce, hlate⟩ := hc
    rw [← h.hist (hre.trans (ht.ended e he).1)] at hforce hlate
    exact ⟨e, r, he, hre, hforce, by rw [hbegan]; exact hlate⟩
  · trivial

/-- What a call that begins or moves knows. -/
lemma dated_of_step (h : NodeStep ι ttl P turn Q) (hP : Bounded ttl P)
    (hc : Q.calls i = some c) : Dated ttl Q c := by
  have hsteady := steady_of_step h
  cases h.call hc with
  | same hold => exact (hP.calls i c hold).step h (hP.timely i c hold)
  | opened _ _ starts _ _ =>
    have hstarts : c.pos.starts = true := starts
    unfold Dated
    split
    all_goals first
      | trivial
      | (rename_i hpos; rw [hpos] at hstarts; cases hstarts)
  | moved _ b there step hcall =>
    have hdated := hP.calls i b there
    have htimely := hP.timely i b there
    have hbegan : c.began = b.began := by
      rw [hcall]
      rfl
    have hpast := h.hist htimely.began
    obtain ⟨p, w, q, w', hp, hw, hq, hw', hmoves⟩ : ∃ p w q w', b.pos = p ∧ P.state = w ∧
        c.pos = q ∧ Q.state = w' ∧ Moves ttl p w q w' :=
      ⟨_, _, _, _, rfl, rfl, rfl, rfl, moves_of_next step⟩
    rw [hq] at hcall
    unfold Dated at hdated ⊢
    rw [hp] at hdated
    rw [hq, hbegan, hpast]
    cases hmoves with
    | clocks =>
      rw [← hw]
      exact ⟨hP.clock _ htimely.began, hsteady.now⟩
    | misses => exact ⟨hdated.1, hdated.2.trans hsteady.now⟩
    | fails _ _ => trivial
    | writes writer _ _ _ _ => cases q <;> trivial
    | invalidates writer _ _ _ _ => cases q <;> trivial
    | prepares writer _ _ _ _ _ => cases q <;> trivial
    | @hits org slug now _ entry found fresh =>
      -- the entry expires after the clock reading and was in force at most `ttl` before that
      rw [← hw] at found
      obtain ⟨hmem, hkey⟩ := Table.find?_eq_some.mp found
      obtain ⟨-, r, hr, hforce, hexpires⟩ := hP.cached entry hmem
      have hkey' : entry.key = (org, slug) := hkey
      rw [hkey'] at hforce
      refine ⟨P.time + 1, r, ?_, by omega, ?_, Or.inl ?_⟩
      · rw [hcall]
        exact Pool.moved_ended rfl
      · rw [h.hist hr]
        exact hforce
      · rw [h.hist hr]
        exact Int.sub_right_lt_of_lt_add (hdated.1.trans_lt (fresh.trans_le hexpires))
    | @overridden org slug now _ _ ov found quiet =>
      have hnow : Q.state.now = P.state.now := by rw [hw', hw]; exact quiet.now
      have hmem : ov ∈ P.state.tables.organisationFeatures := by
        rw [hw]
        exact (Table.find?_eq_some.mp found).1
      have hslug : ov.slug = slug := congrArg Prod.snd (Table.find?_eq_some.mp found).2
      refine ⟨hdated.1, ?_, P.time + 1, ?_, ?_, ?_⟩
      · have hknown := hP.known ov hmem
        unfold Tables.definition at hknown ⊢
        rw [hsteady.definitions, ← hslug]
        exact hknown
      · rw [hcall]
        exact Pool.moved_mark (by rw [hp]; rfl)
      · rw [h.hist_time, hnow]
        exact hdated.2
      · rw [h.hist_time, hw']
        unfold World.inForce Tables.effective
        rw [quiet.tables, found]
    | plain none quiet =>
      have hnow : Q.state.now = P.state.now := by rw [hw', hw]; exact quiet.now
      refine ⟨hdated.1, P.time + 1, ?_, ?_, ?_⟩
      · rw [hcall]
        exact Pool.moved_mark (by rw [hp]; rfl)
      · rw [h.hist_time, hnow]
        exact hdated.2
      · rw [h.hist_time, hw', quiet.tables]
        exact none
    | @defaults org slug now _ _ d found quiet =>
      -- the override was missing at the mark, where the catalog was the one of now
      obtain ⟨hnow, m, hm, hclock, hnone⟩ := hdated
      have hle := (htimely.mark m hm).2
      refine ⟨hnow, ?_, m, ?_, ?_, ?_⟩
      · rw [hw', quiet.tables, found]
        rfl
      · rw [hcall, Pool.moved_mark_of_not (by rw [hp]; rfl)]
        exact hm
      · rw [h.hist hle]
        exact hclock
      · rw [h.hist hle]
        unfold World.inForce Tables.effective Tables.definition
        rw [hnone, hP.definitions m hle, hw]
        exact congrArg (Option.map FeatureDefinition.defaultValue) found
    | @fills org slug now value _ =>
      obtain ⟨hnow, -, m, hm, hclock, hforce⟩ := hdated
      have hle := htimely.mark m hm
      refine ⟨P.time + 1, m, ?_, by omega, ?_, ?_⟩
      · rw [hcall]
        exact Pool.moved_ended rfl
      · rw [h.hist hle.2]
        exact hforce
      · rw [h.hist hle.2]
        -- without a time to live the value counts as read while the call went on
        rcases Nat.eq_zero_or_pos ttl with hzero | hpos
        · exact Or.inr ⟨hzero, hle.1⟩
        · have httl : (0 : Int) < ttl := Int.natCast_pos.mpr hpos
          exact Or.inl (Int.sub_right_lt_of_lt_add
            ((hnow.trans hclock).trans_lt (Int.lt_add_of_pos_right _ httl)))

/-- Every step keeps the pool bounded. -/
lemma Bounded.step (h : NodeStep ι ttl P turn Q) (hP : Bounded ttl P) : Bounded ttl Q := by
  have hsteady := steady_of_step h
  have htime := h.time
  have hbefore : ∀ n ≤ Q.time, n ≤ P.time ∨ n = Q.time := fun n hn => by omega
  refine ⟨Pool.Timely.step h hP.timely, fun n hn => ?_, fun n hn => ?_, hsteady.known hP.known,
    fun entry hentry => ?_, fun i c hc => dated_of_step h hP hc⟩
  · rcases hbefore n hn with hle | rfl
    · rw [h.hist hle]
      exact (hP.clock n hle).trans hsteady.now
    · exact le_refl _
  · rcases hbefore n hn with hle | rfl
    · rw [h.hist hle, hP.definitions n hle]
      exact hsteady.definitions.symm
    · rfl
  · have hdef : Q.state.tables.definition entry.slug = P.state.tables.definition entry.slug := by
      unfold Tables.definition
      rw [hsteady.definitions]
    rw [hdef]
    rcases entry_of_nodeStep h hentry with hold | ⟨i, c, now, hc, hpos, hexpires⟩
    · obtain ⟨hknown, r, hr, hforce, hlate⟩ := hP.cached entry hold
      rw [← h.hist hr] at hforce hlate
      exact ⟨hknown, r, by omega, hforce, hlate⟩
    · have hdated := hP.calls i c hc
      unfold Dated at hdated
      rw [hpos] at hdated
      obtain ⟨-, hknown, m, hm, hclock, hforce⟩ := hdated
      have hle := ((hP.timely i c hc).mark m hm).2
      rw [← h.hist hle] at hforce hclock
      refine ⟨hknown, m, by omega, hforce, ?_⟩
      rw [hexpires]
      exact Int.add_le_add_right hclock _

omit [DecidableEq ι] in
/-- An empty cache is stale in nothing. -/
lemma bounded_idle {w : World} (hcache : w.cache = .empty) (hknown : w.tables.OverridesKnown) :
    Bounded ttl (Pool.idle ι FeaturePos w) := by
  refine ⟨Pool.timely_idle, fun n hn => le_refl _, fun n hn => rfl, hknown, fun entry hentry => ?_,
    fun i c hc => nomatch hc⟩
  rw [Pool.idle_state, hcache] at hentry
  exact absurd hentry Table.not_mem_empty

/-- On a node that starts with an empty cache, among other nodes that write overrides, an evaluation
yields a value that was in force, at an instant no later than its end, either less than the time to
live before its start or, if values are not kept at all, since its start; and no value of an unknown
flag is ever in the cache. -/
theorem evaluate_bounded_staleness (w : World) (hcache : w.cache = .empty)
    (hknown : w.tables.OverridesKnown) (ms : List (Move (Pool ι World FeaturePos) (Turn ι)))
    (P : Pool ι World FeaturePos) (run : Run (NodeStep ι ttl) (Pool.idle ι FeaturePos w) ms P) :
    (∀ i c org slug v, P.calls i = some c → c.pos = .evaluating org slug (.done (.ok v)) →
      ∃ ended seen, c.ended = some ended ∧ seen ≤ ended ∧
        (P.hist seen).inForce (org, slug) = some v ∧
        ((P.hist c.began).now - ttl < (P.hist seen).now ∨ ttl = 0 ∧ c.began ≤ seen)) ∧
      ∀ entry ∈ P.state.cache, (P.state.tables.definition entry.slug).isSome = true := by
  have hP : Bounded ttl P := run.invariant (Bounded ttl) (fun _ => True) (bounded_idle hcache hknown)
    (fun _ _ _ step _ hP => hP.step step) (fun _ _ => trivial)
  refine ⟨fun i c org slug v hc hpos => ?_, fun entry hentry => (hP.cached entry hentry).1⟩
  have hdated := hP.calls i c hc
  unfold Dated at hdated
  rw [hpos] at hdated
  exact hdated

end

/-- One evaluation fills the cache, the next one is answered from it. -/
def cachedSchedule : List (Act Client FeaturePos) :=
  evaluateHeaders .first :: Act.steps .first 5 ++ evaluateHeaders .second :: Act.steps .second 2

/-- A schedule of three calls on a fresh node among others. -/
def performAmongNodes (as : List (Act Client FeaturePos)) :
    Option (Pool Client World FeaturePos) :=
  Pool.perform (featureSystem Client 60000000 OtherNodes) (fun _ => FeaturePos.next 60000000)
    (fun _ _ => true) (Pool.idle Client FeaturePos (.calm .twoTenants 0)) as

/-- A value from the cache was in force less than a minute before the evaluation began. -/
theorem evaluate_bounded_staleness_cached :
    ∃ P, performAmongNodes cachedSchedule = some P ∧ ∃ seen, seen ≤ 9 ∧
      (P.hist 7).now - 60000000 < (P.hist seen).now ∧
      (P.hist seen).inForce (0xa, "auth.api_key_headers") =
        some seededFeatureDefinition.defaultValue := by
  have hends : (performAmongNodes cachedSchedule).map (fun P => P.calls .second) =
      some (some ⟨.evaluating 0xa "auth.api_key_headers"
        (.done (.ok seededFeatureDefinition.defaultValue)), 7, none, some 9⟩) := by decide +kernel
  obtain ⟨P, hP, heval⟩ := Option.map_eq_some_iff.mp hends
  obtain ⟨ms, hrun, -⟩ := Pool.run_of_perform (fun h => h) hP
  have hknown : (World.calm .twoTenants 0).tables.OverridesKnown :=
    fun f hf => absurd hf Table.not_mem_empty
  obtain ⟨ended, seen, hended, hle, hforce, hlate | ⟨hzero, -⟩⟩ :=
    (evaluate_bounded_staleness _ rfl hknown ms P hrun).1 .second _ 0xa "auth.api_key_headers" _
      heval rfl
  · cases hended
    exact ⟨P, hP, seen, hle, hlate, hforce⟩
  · cases hzero

end Egras
