import Egras.Db.Seeds
import Egras.Features.Stepwise

/-!
# Whether an evaluation sees the writes before it

On one node every call that sets or clears a flag removes the value from the cache after it has
written. An evaluation that read the override before the write may put the old value back after the
removal (`StaleFill`), and later evaluations answer it. In the runs without such a fill an
evaluation that begins after a setting or clearing has returned yields the value of that write or of
a later one (`evaluate_reads_writes`).

The invariant (`Coherent`) ties each cached value to an instant at which it was in force, no earlier
than any write of the flag whose removal has taken place.
-/

namespace Egras
open Lib

/-- The value that is in force for an organisation and a flag. -/
def World.inForce (w : World) (k : Uuid × String) : Option Value := w.tables.effective k.1 k.2

/-- What happens besides the calls: the clock and the supplies of the environment change. -/
structure Elapses (w w' : World) : Prop where
  tables : w'.tables = w.tables
  cache : w'.cache = w.cache

section
variable {ι : Type} {ttl : ℕ}

/-- A call of the pool that has removed the value of a flag from the cache wrote it at an instant. -/
def Removed (P : Pool ι World FeaturePos) (k : Uuid × String) (j : ι) (n : ℕ) : Prop :=
  ∃ d, P.calls j = some d ∧ d.pos.key = k ∧ d.pos.hasInvalidated = true ∧ d.mark = some n

/-- An evaluation is about to fill the cache although the flag has been written, and removed from
the cache, since the evaluation read the override. -/
def StaleFill (P : Pool ι World FeaturePos) (i : ι) : Prop :=
  ∃ c org slug now value r, P.calls i = some c ∧
    c.pos = .evaluating org slug (.insert now value) ∧ c.mark = some r ∧
    ∃ j n, Removed P (org, slug) j n ∧ r < n

/-- Every removal of a value so far belongs to a write at an instant or before. -/
def Covers (P : Pool ι World FeaturePos) (k : Uuid × String) (r : ℕ) : Prop :=
  ∀ j n, Removed P k j n → n ≤ r

/-- The writes of the calls that had ended by `t` happened at an instant or before. -/
def CoversEnded (P : Pool ι World FeaturePos) (k : Uuid × String) (t r : ℕ) : Prop :=
  ∀ j d n e, P.calls j = some d → d.pos.key = k → d.pos.hasInvalidated = true →
    d.mark = some n → d.ended = some e → e ≤ t → n ≤ r

/-- What a call knows at its position. -/
def Sound (P : Pool ι World FeaturePos) (c : Call FeaturePos) : Prop :=
  match c.pos with
  | .evaluating org slug (.definition _) =>
    ∃ m, c.mark = some m ∧ (P.hist m).tables.override org slug = none
  | .evaluating org slug (.insert _ v) =>
    ∃ m, c.mark = some m ∧ (P.hist m).inForce (org, slug) = some v
  | .evaluating org slug (.done (.ok v)) =>
    ∃ e r, c.ended = some e ∧ r ≤ e ∧ (P.hist r).inForce (org, slug) = some v ∧
      CoversEnded P (org, slug) c.began r
  | p => p.hasWritten = true → c.mark.isSome = true

/-- The invariant of the runs without stale fills. -/
structure Coherent (ttl : ℕ) (P : Pool ι World FeaturePos) : Prop where
  timely : ∀ i c, P.calls i = some c → Pool.Timely (featureSystem ι ttl Elapses) P c
  definitions : ∀ n ≤ P.time,
    (P.hist n).tables.featureDefinitions = P.state.tables.featureDefinitions
  cached : ∀ entry ∈ P.state.cache, ∃ r ≤ P.time,
    (P.hist r).inForce entry.key = some entry.value ∧ Covers P entry.key r
  calls : ∀ i c, P.calls i = some c → Sound P c

variable {P Q : Pool ι World FeaturePos} {turn : Turn ι} {k : Uuid × String} {r t : ℕ}
  {c : Call FeaturePos} {i : ι}

/-- A writer that has written knows when. -/
lemma Sound.mark_of_hasWritten (h : Sound P c) (hw : c.pos.hasWritten = true) :
    ∃ m, c.mark = some m := by
  unfold Sound at h
  split at h
  · rename_i hpos
    rw [hpos] at hw
    cases hw
  · rename_i hpos
    rw [hpos] at hw
    cases hw
  · rename_i hpos
    rw [hpos] at hw
    cases hw
  · exact Option.isSome_iff_exists.mp (h hw)

variable [DecidableEq ι]

/-- A step of the pool. -/
abbrev FeatureStep (ι : Type) [DecidableEq ι] (ttl : ℕ) :=
  Pool.Step (featureSystem ι ttl Elapses)

/-- No removal is new unless the step removes the value from the cache. -/
lemma removed_of_step (h : FeatureStep ι ttl P turn Q) {j : ι} {n : ℕ} (hr : Removed Q k j n) :
    Removed P k j n ∨ ∀ entry ∈ Q.state.cache, entry.key ≠ k := by
  obtain ⟨d, hd, hkey, hinv, hmark⟩ := hr
  cases h.call hd with
  | same hold => exact Or.inl ⟨d, hold, hkey, hinv, hmark⟩
  | opened _ _ starts _ _ =>
    have hnone := FeaturePos.not_hasWritten_of_starts starts
    rw [FeaturePos.hasWritten_of_hasInvalidated hinv] at hnone
    cases hnone
  | moved _ b there step hcall =>
    have hev := FeaturePos.evaluates_of_hasWritten (FeaturePos.hasWritten_of_hasInvalidated hinv)
    obtain ⟨p, w, q, w', hp, hw, hq, hw', hmoves⟩ : ∃ p w q w', b.pos = p ∧ P.state = w ∧
        d.pos = q ∧ Q.state = w' ∧ Moves ttl p w q w' :=
      ⟨_, _, _, _, rfl, rfl, rfl, rfl, moves_of_next step⟩
    rw [hq] at hkey hinv hev
    cases hmoves with
    | writes _ _ _ pending _ =>
      rw [pending] at hinv
      cases hinv
    | invalidates _ key _ _ _ =>
      refine Or.inr fun entry hentry => ?_
      rw [hw'] at hentry
      have hne := (Table.mem_deleteWhere.mp hentry).2
      rw [← key, hkey] at hne
      exact of_decide_eq_false hne
    | prepares _ key decisive same _ _ =>
      refine Or.inl ⟨b, there, ?_, ?_, ?_⟩
      · rw [hp, ← key, hkey]
      · rw [hp, ← same, hinv]
      · rw [hcall, hq, Pool.moved_mark_of_not (by rw [hp]; exact decisive)] at hmark
        exact hmark
    | clocks => cases hev
    | hits _ _ => cases hev
    | misses => cases hev
    | overridden _ _ => cases hev
    | plain _ _ => cases hev
    | defaults _ _ => cases hev
    | fails _ _ => cases hev
    | fills => cases hev

/-- A value that stays in the cache stays covered. -/
lemma Covers.step (h : FeatureStep ι ttl P turn Q) (hcov : Covers P k r) {entry : CachedValue}
    (hentry : entry ∈ Q.state.cache) (hk : entry.key = k) : Covers Q k r := by
  intro j n hr
  rcases removed_of_step h hr with hold | hgone
  · exact hcov j n hold
  · exact absurd hk (hgone entry hentry)

/-- Calls that have ended stay covered. -/
lemma CoversEnded.step (h : FeatureStep ι ttl P turn Q) (hcov : CoversEnded P k t r)
    (ht : t ≤ P.time) : CoversEnded Q k t r := by
  intro j d n e hd hkey hinv hmark hended het
  exact hcov j d n e (h.call_of_ended hd hended (het.trans ht)) hkey hinv hmark hended het

/-- What a call knows stays true while it does not move. -/
lemma Sound.step (h : FeatureStep ι ttl P turn Q) (hc : Sound P c)
    (ht : Pool.Timely (featureSystem ι ttl Elapses) P c) : Sound Q c := by
  unfold Sound at hc ⊢
  split at hc
  · obtain ⟨m, hm, hnone⟩ := hc
    exact ⟨m, hm, by rw [h.hist (ht.mark m hm).2]; exact hnone⟩
  · obtain ⟨m, hm, hforce⟩ := hc
    exact ⟨m, hm, by rw [h.hist (ht.mark m hm).2]; exact hforce⟩
  · obtain ⟨e, r, he, hre, hforce, hcov⟩ := hc
    have hle := (ht.ended e he).1
    exact ⟨e, r, he, hre, by rw [h.hist (hre.trans hle)]; exact hforce, hcov.step h ht.began⟩
  · exact hc

/-- No step changes the catalog of flags. -/
lemma definitions_of_step (h : FeatureStep ι ttl P turn Q) :
    Q.state.tables.featureDefinitions = P.state.tables.featureDefinitions := by
  cases h with
  | begins free starts => simp
  | elsewhere env => simp [env.tables]
  | moves there step =>
    rw [Pool.put_state, Pool.push_state]
    exact (moves_of_next step).definitions

/-- What a call that begins or moves knows. -/
lemma sound_of_step (h : FeatureStep ι ttl P turn Q) (hP : Coherent ttl P)
    (hc : Q.calls i = some c) : Sound Q c := by
  cases h.call hc with
  | same hold => exact (hP.calls i c hold).step h (hP.timely i c hold)
  | opened _ _ starts _ _ =>
    have hnone := FeaturePos.not_hasWritten_of_starts starts
    have hstarts : c.pos.starts = true := starts
    unfold Sound
    -- a call knows nothing yet where it starts
    split
    · rename_i hpos
      rw [hpos] at hstarts
      cases hstarts
    · rename_i hpos
      rw [hpos] at hstarts
      cases hstarts
    · rename_i hpos
      rw [hpos] at hstarts
      cases hstarts
    · intro hw
      rw [hnone] at hw
      cases hw
  | moved _ b there step hcall =>
    have hsound := hP.calls i b there
    have htimely := hP.timely i b there
    obtain ⟨p, w, q, w', hp, hw, hq, hw', hmoves⟩ : ∃ p w q w', b.pos = p ∧ P.state = w ∧
        c.pos = q ∧ Q.state = w' ∧ Moves ttl p w q w' :=
      ⟨_, _, _, _, rfl, rfl, rfl, rfl, moves_of_next step⟩
    rw [hq] at hcall
    unfold Sound at hsound ⊢
    rw [hp] at hsound
    rw [hq]
    cases hmoves with
    | clocks => exact fun hw => nomatch hw
    | misses => exact fun hw => nomatch hw
    | fails _ _ => exact fun hw => nomatch hw
    | @hits org slug now _ entry found fresh =>
      -- the cached value was in force at an instant that covers every removal so far
      rw [← hw] at found
      obtain ⟨hmem, hkey⟩ := Table.find?_eq_some.mp found
      obtain ⟨r, hr, hforce, hcov⟩ := hP.cached entry hmem
      have hkey' : entry.key = (org, slug) := hkey
      rw [hkey'] at hforce hcov
      refine ⟨P.time + 1, r, ?_, by omega, ?_, ?_⟩
      · rw [hcall]
        exact Pool.moved_ended rfl
      · rw [h.hist hr]
        exact hforce
      · refine CoversEnded.step h (fun j d n e hd hk hinv hm _ _ => ?_) ?_
        · exact hcov j n ⟨d, hd, hk, hinv, hm⟩
        · rw [hcall]
          exact htimely.began
    | @overridden org slug now _ _ ov found quiet =>
      -- this step is the one that is marked: the value is in force right now
      refine ⟨P.time + 1, ?_, ?_⟩
      · rw [hcall]
        exact Pool.moved_mark (by rw [hp]; rfl)
      · rw [h.hist_time, hw']
        unfold World.inForce Tables.effective
        rw [quiet.tables, found]
    | plain none quiet =>
      refine ⟨P.time + 1, ?_, ?_⟩
      · rw [hcall]
        exact Pool.moved_mark (by rw [hp]; rfl)
      · rw [h.hist_time, hw', quiet.tables]
        exact none
    | @defaults org slug now _ _ d found quiet =>
      -- the catalog is the one the override was looked up beside
      obtain ⟨m, hm, hnone⟩ := hsound
      have hle := (htimely.mark m hm).2
      refine ⟨m, ?_, ?_⟩
      · rw [hcall, Pool.moved_mark_of_not (by rw [hp]; rfl)]
        exact hm
      · rw [h.hist hle]
        unfold World.inForce Tables.effective Tables.definition
        rw [hnone, hP.definitions m hle, hw]
        exact congrArg (Option.map FeatureDefinition.defaultValue) found
    | @fills org slug now value _ =>
      obtain ⟨m, hm, hforce⟩ := hsound
      have hle := htimely.mark m hm
      refine ⟨P.time + 1, m, ?_, by omega, ?_, ?_⟩
      · rw [hcall]
        exact Pool.moved_ended rfl
      · rw [h.hist hle.2]
        exact hforce
      · rw [hcall]
        -- a writer that had ended before this call began wrote before the call read
        refine CoversEnded.step h (fun j d n e hd _ _ hn he het => ?_) htimely.began
        have hn' := ((hP.timely j d hd).ended e he).2.2 n hn
        have het' : e ≤ b.began := het
        omega
    | @writes _ q _ _ writer key decisive pending writes =>
      have hgoal : c.mark.isSome = true := by
        rw [hcall, Pool.moved_mark (by rw [hp]; exact decisive)]
        rfl
      cases q with
      | evaluating _ _ _ => cases writer
      | setting _ _ => exact fun _ => hgoal
      | clearing _ _ => exact fun _ => hgoal
    | @invalidates p q _ writer key decisive written invalidated =>
      -- the mark is the one of the write
      have hgoal : c.mark.isSome = true := by
        rw [hcall, Pool.moved_mark_of_not (by rw [hp]; exact decisive)]
        obtain ⟨m, hm⟩ := (hP.calls i b there).mark_of_hasWritten (by rw [hp]; exact written)
        rw [hm]
        rfl
      cases q with
      | evaluating _ _ _ => cases writer
      | setting _ _ => exact fun _ => hgoal
      | clearing _ _ => exact fun _ => hgoal
    | @prepares p q _ _ writer key decisive same written quiet =>
      have hgoal : q.hasWritten = true → c.mark.isSome = true := by
        intro hq
        rw [hcall, Pool.moved_mark_of_not (by rw [hp]; exact decisive)]
        obtain ⟨m, hm⟩ := (hP.calls i b there).mark_of_hasWritten (by rw [hp]; exact written hq)
        rw [hm]
        rfl
      cases q with
      | evaluating _ _ _ => cases writer
      | setting _ _ => exact hgoal
      | clearing _ _ => exact hgoal

/-- A value in the cache was there before or is filled in by the call that moves. -/
lemma entry_of_step (h : FeatureStep ι ttl P turn Q) {entry : CachedValue}
    (hentry : entry ∈ Q.state.cache) : entry ∈ P.state.cache ∨
      ∃ i c now, turn = .moves i ∧ P.calls i = some c ∧
        c.pos = .evaluating entry.organisationId entry.slug (.insert now entry.value) := by
  cases h with
  | begins free starts =>
    rw [Pool.put_state, Pool.push_state] at hentry
    exact Or.inl hentry
  | elsewhere env =>
    rw [Pool.push_state, env.cache] at hentry
    exact Or.inl hentry
  | @moves i c q s there step =>
    rw [Pool.put_state, Pool.push_state] at hentry
    rcases (moves_of_next step).entry hentry with hold | ⟨now, hpos, -⟩
    · exact Or.inl hold
    · exact Or.inr ⟨i, c, now, rfl, there, hpos⟩

/-- A step that is no stale fill keeps the pool coherent. -/
lemma Coherent.step (h : FeatureStep ι ttl P turn Q) (hP : Coherent ttl P)
    (hsafe : ∀ i, turn = .moves i → ¬ StaleFill P i) : Coherent ttl Q := by
  refine ⟨Pool.Timely.step h hP.timely, fun n hn => ?_, fun entry hentry => ?_,
    fun i c hc => sound_of_step h hP hc⟩
  · rcases Nat.lt_or_eq_of_le hn with hlt | rfl
    · have hle : n ≤ P.time := by
        have := h.time
        omega
      rw [h.hist hle, hP.definitions n hle]
      exact (definitions_of_step h).symm
    · rfl
  · have htime := h.time
    rcases entry_of_step h hentry with hold | ⟨i, c, now, rfl, hc, hpos⟩
    · obtain ⟨r, hr, hforce, hcov⟩ := hP.cached entry hold
      exact ⟨r, by omega, by rw [h.hist hr]; exact hforce, hcov.step h hentry rfl⟩
    · -- the fill is not stale, so the override was read after every removed write
      have hsound := hP.calls i c hc
      unfold Sound at hsound
      rw [hpos] at hsound
      obtain ⟨m, hm, hforce⟩ := hsound
      have hle := ((hP.timely i c hc).mark m hm).2
      have hcov : Covers P entry.key m := by
        intro j n hr
        by_contra hlt
        exact hsafe i rfl ⟨c, _, _, now, _, m, hc, hpos, hm, j, n, hr, Nat.lt_of_not_le hlt⟩
      exact ⟨m, by omega, by rw [h.hist hle]; exact hforce, hcov.step h hentry rfl⟩

omit [DecidableEq ι] in
/-- An empty cache is coherent. -/
lemma coherent_idle {w : World} (hcache : w.cache = .empty) :
    Coherent ttl (Pool.idle ι FeaturePos w) := by
  refine ⟨Pool.timely_idle, fun n hn => rfl, fun entry hentry => ?_, fun i c hc => nomatch hc⟩
  rw [Pool.idle_state, hcache] at hentry
  exact absurd hentry Table.not_mem_empty

/-- On a node that starts with an empty cache, in a run without stale fills, an evaluation that
begins after a setting or clearing of the flag has returned yields the value of that write or of a
later one. -/
theorem evaluate_reads_writes (w : World) (hcache : w.cache = .empty)
    (ms : List (Move (Pool ι World FeaturePos) (Turn ι))) (P : Pool ι World FeaturePos)
    (run : Run (FeatureStep ι ttl) (Pool.idle ι FeaturePos w) ms P)
    (safe : ∀ m ∈ ms, ∀ i, m.label = .moves i → ¬ StaleFill m.pre i) :
    ∀ i c org slug v, P.calls i = some c → c.pos = .evaluating org slug (.done (.ok v)) →
      ∀ j d e, P.calls j = some d → d.pos.key = (org, slug) → d.pos.succeeded = true →
        d.ended = some e → e ≤ c.began →
        ∃ written seen ended, d.mark = some written ∧ c.ended = some ended ∧ written ≤ seen ∧
          seen ≤ ended ∧ (P.hist seen).inForce (org, slug) = some v := by
  have hP : Coherent ttl P := run.invariant (Coherent ttl)
    (fun m => ∀ i, m.label = .moves i → ¬ StaleFill m.pre i) (coherent_idle hcache)
    (fun _ _ _ step hs hP => hP.step step hs) safe
  intro i c org slug v hc hpos j d e hd hkey hsucc hended hlater
  have hsound := hP.calls i c hc
  unfold Sound at hsound
  rw [hpos] at hsound
  obtain ⟨ended, seen, hce, hle, hforce, hcov⟩ := hsound
  have hinv := FeaturePos.hasInvalidated_of_succeeded hsucc
  obtain ⟨written, hwritten⟩ := (hP.calls j d hd).mark_of_hasWritten
    (FeaturePos.hasWritten_of_hasInvalidated hinv)
  exact ⟨written, seen, ended, hwritten, hce, hcov j d written e hd hkey hinv hwritten hended hlater,
    hle, hforce⟩

end

section Runs

/-- The operator narrows the API-key headers of `acme`. -/
def narrowHeaders : SetOrgFeatureInput where
  organisationId := 0xa
  slug := "auth.api_key_headers"
  value := .array [.string "x-api-key"]
  actorUserId := 0x11
  actorOrgId := 1
  actorIsOperator := true

/-- An evaluation of the API-key headers of `acme` begins. -/
def evaluateHeaders (i : Client) : Act Client FeaturePos :=
  .begins i (.evaluating 0xa "auth.api_key_headers" .clock)

/-- An evaluation that fills the cache has read the override after every removed write. -/
def fillsFresh (P : Pool Client World FeaturePos) : Turn Client → Bool
  | .moves i =>
    match P.calls i with
    | some ⟨.evaluating org slug (.insert _ _), _, some r, _⟩ =>
      Client.all.all (fun j => (P.calls j).all (fun d =>
        d.pos.key ≠ (org, slug) || !d.pos.hasInvalidated || d.mark.all (fun n => n ≤ r)))
    | _ => true
  | _ => true

/-- A call that fills with a fresh value is not stale. -/
lemma not_staleFill {P : Pool Client World FeaturePos} {i : Client}
    (h : fillsFresh P (.moves i) = true) : ¬ StaleFill P i := by
  rintro ⟨⟨pos, began, mark, ended⟩, org, slug, now, value, r, hc, hpos, hmark, j, n,
    ⟨d, hd, hkey, hinv, hn⟩, hlt⟩
  obtain rfl : pos = .evaluating org slug (.insert now value) := hpos
  obtain rfl : mark = some r := hmark
  simp only [fillsFresh, hc] at h
  have hj := List.all_eq_true.mp h j j.mem_all
  rw [hd] at hj
  simp [hkey, hinv, hn] at hj
  omega

/-- The setting comes first, then the evaluation. -/
def settledSchedule : List (Act Client FeaturePos) :=
  .begins .first (.setting narrowHeaders .definition) :: Act.steps .first 4 ++
    evaluateHeaders .second :: Act.steps .second 4

/-- An evaluation reads the default; the flag is set meanwhile; the evaluation fills the cache with
the default and another one answers it. -/
def overtakenSchedule : List (Act Client FeaturePos) :=
  evaluateHeaders .first :: Act.steps .first 4 ++
    .begins .second (.setting narrowHeaders .definition) :: Act.steps .second 4 ++
    Act.steps .first 1 ++ evaluateHeaders .third :: Act.steps .third 2

/-- A schedule of three calls on a fresh node. -/
def performFeatures (ok : Pool Client World FeaturePos → Turn Client → Bool)
    (as : List (Act Client FeaturePos)) : Option (Pool Client World FeaturePos) :=
  Pool.perform (featureSystem Client 60000000 Elapses) (fun _ => FeaturePos.next 60000000) ok
    (Pool.idle Client FeaturePos (.calm .twoTenants 0)) as

/-- After the flag has been set an evaluation yields the new value. -/
theorem evaluate_reads_writes_narrowed :
    ∃ P, performFeatures fillsFresh settledSchedule = some P ∧ ∃ seen, 3 ≤ seen ∧ seen ≤ 10 ∧
      (P.hist seen).inForce (0xa, "auth.api_key_headers") = some narrowHeaders.value := by
  have hends : (performFeatures fillsFresh settledSchedule).map
      (fun P => (P.calls .first, P.calls .second)) =
      some (some ⟨.setting narrowHeaders (.done (.ok ())), 1, some 3, some 5⟩,
        some ⟨.evaluating 0xa "auth.api_key_headers" (.done (.ok narrowHeaders.value)), 6, some 9,
          some 10⟩) := by decide +kernel
  obtain ⟨P, hP, hcalls⟩ := Option.map_eq_some_iff.mp hends
  obtain ⟨ms, hrun, hok⟩ := Pool.run_of_perform (fun h => h) hP
  have hsafe : ∀ m ∈ ms, ∀ i, m.label = .moves i → ¬ StaleFill m.pre i :=
    fun m hm i hi => not_staleFill (hi ▸ hok m hm)
  obtain ⟨hset, heval⟩ := Prod.mk.inj hcalls
  obtain ⟨written, seen, ended, hwritten, hended, hle, hseen, hforce⟩ :=
    evaluate_reads_writes _ rfl ms P hrun hsafe .second _ 0xa "auth.api_key_headers" _ heval rfl
      .first _ 5 hset rfl rfl rfl (by decide)
  cases hwritten
  cases hended
  exact ⟨P, hP, seen, hle, hseen, hforce⟩

/-- An evaluation that overlaps with a setting leaves the old value in the cache, and an evaluation
that begins after the setting has returned answers it: a value that was not in force at any instant
since the write. -/
theorem evaluate_misses_write :
    ∃ ms P, Run (FeatureStep Client 60000000)
        (Pool.idle Client FeaturePos (.calm .twoTenants 0)) ms P ∧
      ∃ c d v, P.calls .third = some c ∧ P.calls .second = some d ∧
        c.pos = .evaluating 0xa "auth.api_key_headers" (.done (.ok v)) ∧
        d.pos = .setting narrowHeaders (.done (.ok ())) ∧
        d.mark = some 8 ∧ d.ended = some 10 ∧ c.began = 12 ∧ c.ended = some 14 ∧
        ∀ seen, 8 ≤ seen → seen ≤ 14 →
          (P.hist seen).inForce (0xa, "auth.api_key_headers") ≠ some v := by
  have hends : (performFeatures (fun _ _ => true) overtakenSchedule).map
      (fun P => (P.calls .third, P.calls .second)) =
      some (some ⟨.evaluating 0xa "auth.api_key_headers"
          (.done (.ok seededFeatureDefinition.defaultValue)), 12, none, some 14⟩,
        some ⟨.setting narrowHeaders (.done (.ok ())), 6, some 8, some 10⟩) := by decide +kernel
  have hforce : ∀ P ∈ performFeatures (fun _ _ => true) overtakenSchedule, ∀ n < 15, 8 ≤ n →
      (P.hist n).inForce (0xa, "auth.api_key_headers") ≠
        some seededFeatureDefinition.defaultValue := by decide +kernel
  obtain ⟨P, hP, hcalls⟩ := Option.map_eq_some_iff.mp hends
  obtain ⟨ms, hrun, -⟩ := Pool.run_of_perform (fun h => h) hP
  obtain ⟨heval, hset⟩ := Prod.mk.inj hcalls
  exact ⟨ms, P, hrun, _, _, _, heval, hset, rfl, rfl, rfl, rfl, rfl, rfl,
    fun seen hfrom hto => hforce P hP seen (by omega) hfrom⟩

end Runs
end Egras
