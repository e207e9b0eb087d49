import Egras.Auth.Middleware
import Egras.Features.ReadYourWrites

/-!
# Values have the types of their flags

A flag declares the type of its value. Setting a flag validates the value against the definition it
has read, definitions do not change, and an evaluation yields a default, an override or a value that
an earlier evaluation has put into the cache. So every override, every cached value and every value
that an evaluation returns has the declared type (`features_conform`), however the calls interleave.
The list of API-key headers is then always an array of strings.

The invariant (`Conforming`) also covers what a call holds between two steps: the definition that a
setting has read, the value that an evaluation has read.
-/

namespace Egras
open Lib

/-- The default of every flag has the type of the flag. -/
def Tables.DefaultsConform (t : Tables) : Prop :=
  ∀ d ∈ t.featureDefinitions, d.valueType.validate d.defaultValue = .ok ()

/-- A value has the type that its flag declares. -/
def Tables.Conforms (t : Tables) (slug : String) (v : Value) : Prop :=
  ∃ d, t.definition slug = some d ∧ d.valueType.validate v = .ok ()

/-- Defaults, overrides and cached values have the types of their flags. -/
structure World.Conforming (w : World) : Prop where
  defaults : w.tables.DefaultsConform
  overrides : ∀ f ∈ w.tables.organisationFeatures, w.tables.Conforms f.slug f.value
  cached : ∀ entry ∈ w.cache, w.tables.Conforms entry.slug entry.value

/-- So has what a call holds at its position. -/
def FeaturePos.Holds (t : Tables) : FeaturePos → Prop
  | .evaluating _ slug (.insert _ v) => t.Conforms slug v
  | .evaluating _ slug (.done (.ok v)) => t.Conforms slug v
  | .setting input (.write d) =>
    t.definition input.slug = some d ∧ d.valueType.validate input.value = .ok ()
  | _ => True

section Steps
variable {w w' : World} {ttl : ℕ} {slug : String} {v : Value}

/-- The types of values depend on the definitions only. -/
lemma Tables.Conforms.mono {t t' : Tables} (h : t'.featureDefinitions = t.featureDefinitions)
    (hv : t.Conforms slug v) : t'.Conforms slug v := by
  unfold Tables.Conforms Tables.definition at hv ⊢
  rw [h]
  exact hv

/-- What a call knows of the definitions holds of the same ones. -/
lemma FeaturePos.Holds.mono {t t' : Tables} (h : t'.featureDefinitions = t.featureDefinitions)
    {p : FeaturePos} (hp : p.Holds t) : p.Holds t' := by
  have hdefinition : ∀ slug, t'.definition slug = t.definition slug := by
    intro slug
    unfold Tables.definition
    rw [h]
  unfold FeaturePos.Holds at hp ⊢
  split
  · exact Tables.Conforms.mono h hp
  · exact Tables.Conforms.mono h hp
  · rw [hdefinition]
    exact hp
  · trivial

/-- A call that begins holds nothing. -/
lemma holds_of_starts {p : FeaturePos} {t : Tables} (h : p.starts = true) : p.Holds t := by
  unfold FeaturePos.starts at h
  split at h
  · trivial
  · trivial
  · trivial
  · cases h

/-- A quiet step leaves the values conforming. -/
lemma Quiet.conforming (h : Quiet w w') (hw : w.Conforming) : w'.Conforming := by
  obtain ⟨htables, hcache, -⟩ := h
  refine ⟨?_, ?_, ?_⟩
  · rw [htables]
    exact hw.defaults
  · rw [htables]
    exact hw.overrides
  · rw [htables, hcache]
    exact hw.cached

/-- A default has the type of its flag. -/
lemma World.Conforming.default (hw : w.Conforming) {d : FeatureDefinition}
    (hd : w.tables.definition slug = some d) : w.tables.Conforms slug d.defaultValue :=
  ⟨d, hd, hw.defaults d (Table.find?_eq_some.mp hd).1⟩

/-- A stored override conforms to its definition. -/
lemma World.Conforming.override (hw : w.Conforming) {org : Uuid} {ov : OrgFeatureOverride}
    (hov : w.tables.override org slug = some ov) : w.tables.Conforms slug ov.value := by
  obtain ⟨hmem, hkey⟩ := Table.find?_eq_some.mp hov
  have hslug : ov.slug = slug := congrArg Prod.snd hkey
  rw [← hslug]
  exact hw.overrides ov hmem

/-- A step of an evaluation reads a value that has the type of its flag, or keeps it. -/
lemma conforming_evaluating {org : Uuid} {p q : EvalPos} (hw : w.Conforming)
    (hp : (FeaturePos.evaluating org slug p).Holds w.tables)
    (h : p.next ttl org slug w = some (q, w')) :
    w'.Conforming ∧ (FeaturePos.evaluating org slug q).Holds w'.tables := by
  generalize hpos : FeaturePos.evaluating org slug q = r
  cases moves_evaluating h with
  | clocks => exact ⟨hw, hpos ▸ trivial⟩
  | @hits _ _ now _ entry found fresh =>
    obtain ⟨hmem, hkey⟩ := Table.find?_eq_some.mp found
    have hslug : entry.slug = slug := congrArg Prod.snd hkey
    have hvalue := hw.cached entry hmem
    rw [hslug] at hvalue
    exact ⟨hw, hpos ▸ hvalue⟩
  | misses => exact ⟨hw, hpos ▸ trivial⟩
  | overridden found quiet =>
    have hvalue := hw.override found
    exact ⟨quiet.conforming hw, hpos ▸ hvalue.mono (congrArg _ quiet.tables)⟩
  | plain none quiet => exact ⟨quiet.conforming hw, hpos ▸ trivial⟩
  | defaults found quiet =>
    have hvalue := hw.default found
    exact ⟨quiet.conforming hw, hpos ▸ hvalue.mono (congrArg _ quiet.tables)⟩
  | fails quiet before => exact ⟨quiet.conforming hw, hpos ▸ trivial⟩
  | @fills _ _ now value _ =>
    refine ⟨⟨hw.defaults, hw.overrides, fun entry hentry => ?_⟩, hpos ▸ hp⟩
    rcases Table.mem_upsert.mp hentry with ⟨hold, -⟩ | rfl
    · exact hw.cached entry hold
    · exact hp
  | writes writer key decisive pending writes => cases writer
  | invalidates writer key decisive written invalidated => cases writer
  | prepares writer key decisive same written quiet => cases writer

/-- Removing values from the cache leaves the others. -/
lemma World.Conforming.invalidate (hw : w.Conforming) {gone : CachedValue → Bool} :
    World.Conforming { w with cache := w.cache.deleteWhere gone } :=
  ⟨hw.defaults, hw.overrides, fun entry hentry =>
    hw.cached entry (Table.mem_deleteWhere.mp hentry).1⟩

/-- The overrides after a write belong to the same definitions. -/
lemma World.Conforming.write (hw : w.Conforming) (hwrites : Overwrites w w')
    (hvalues : ∀ f ∈ w'.tables.organisationFeatures, f ∈ w.tables.organisationFeatures ∨
      w.tables.Conforms f.slug f.value) : w'.Conforming := by
  obtain ⟨hdefinitions, -, hcache, -⟩ := hwrites
  refine ⟨?_, fun f hf => ?_, ?_⟩
  · unfold Tables.DefaultsConform
    rw [hdefinitions]
    exact hw.defaults
  · rcases hvalues f hf with hold | hnew
    · exact (hw.overrides f hold).mono hdefinitions
    · exact hnew.mono hdefinitions
  · rw [hcache]
    exact fun entry hentry => (hw.cached entry hentry).mono hdefinitions

/-- What an upsert writes. -/
lemma mem_of_upsertOverride {org updatedBy : Uuid} {old : Option Value}
    (h : (upsertOverride org slug v updatedBy).run w = (.ok old, w')) :
    ∀ f ∈ w'.tables.organisationFeatures, f ∈ w.tables.organisationFeatures ∨
      f.slug = slug ∧ f.value = v := by
  obtain ⟨t, heffect, rfl, -⟩ := execute_eq_ok (Prog.mapErr_eq_ok h)
  obtain ⟨-, rfl⟩ := Tables.upsertFeature_eq_ok (return_eq_ok.mp heffect).1
  intro f hf
  rcases Table.mem_upsert.mp hf with ⟨hold, -⟩ | rfl
  · exact Or.inl hold
  · exact Or.inr ⟨rfl, rfl⟩

/-- A setting writes what it has validated. -/
lemma conforming_setting {input : SetOrgFeatureInput} {p q : WritePos SetOrgFeatureError}
    (hw : w.Conforming) (hp : (FeaturePos.setting input p).Holds w.tables)
    (h : setNext input p w = some (q, w')) :
    w'.Conforming ∧ (FeaturePos.setting input q).Holds w'.tables := by
  cases p with
  | definition =>
    simp only [setNext] at h
    split at h
    · rename_i e w₁ hrun
      cases h
      exact ⟨(quiet_getDefinition hrun).conforming hw, trivial⟩
    · rename_i w₁ hrun
      cases h
      exact ⟨(quiet_getDefinition hrun).conforming hw, trivial⟩
    · rename_i d w₁ hrun
      have hquiet := quiet_getDefinition hrun
      split at h
      · cases h
        exact ⟨hquiet.conforming hw, trivial⟩
      · rename_i hvalid
        split at h
        · cases h
          -- the call goes on to write with a definition that the value passes
          obtain ⟨hfound, rfl, -⟩ := query_eq_ok (Prog.mapErr_eq_ok hrun)
          exact ⟨hquiet.conforming hw, hfound.symm, hvalid⟩
        · cases h
          exact ⟨hquiet.conforming hw, trivial⟩
  | write d =>
    simp only [setNext] at h
    split at h
    · rename_i e w₁ hrun
      cases h
      exact ⟨(quiet_execute hrun).conforming hw, trivial⟩
    · rename_i oldValue w₁ hrun
      cases h
      refine ⟨hw.write (overwrites_upsertOverride hrun) fun f hf => ?_, trivial⟩
      rcases mem_of_upsertOverride hrun f hf with hold | ⟨hslug, hvalue⟩
      · exact Or.inl hold
      · rw [hslug, hvalue]
        exact Or.inr ⟨d, hp⟩
  | invalidate d oldValue =>
    cases h
    exact ⟨hw.invalidate, trivial⟩
  | audit d oldValue =>
    cases h
    exact ⟨quiet_record.conforming hw, trivial⟩
  | done r => cases h

/-- A clearing writes no value. -/
lemma conforming_clearing {input : ClearOrgFeatureInput} {p q : WritePos ClearOrgFeatureError}
    (hw : w.Conforming) (h : clearNext input p w = some (q, w')) :
    w'.Conforming ∧ (FeaturePos.clearing input q).Holds w'.tables := by
  refine ⟨?_, trivial⟩
  cases p with
  | definition =>
    simp only [clearNext] at h
    split at h
    · rename_i e w₁ hrun
      cases h
      exact (quiet_getDefinition hrun).conforming hw
    · rename_i w₁ hrun
      cases h
      exact (quiet_getDefinition hrun).conforming hw
    · rename_i d w₁ hrun
      split at h
      · cases h
        exact (quiet_getDefinition hrun).conforming hw
      · cases h
        exact (quiet_getDefinition hrun).conforming hw
  | write d =>
    simp only [clearNext] at h
    split at h
    · rename_i e w₁ hrun
      cases h
      exact (quiet_execute hrun).conforming hw
    · rename_i oldValue w₁ hrun
      cases h
      refine hw.write (overwrites_deleteOverride hrun) fun f hf => Or.inl ?_
      obtain ⟨t, heffect, rfl, -⟩ := execute_eq_ok (Prog.mapErr_eq_ok hrun)
      cases heffect
      exact (Table.mem_deleteWhere.mp hf).1
  | invalidate d oldValue =>
    cases h
    exact hw.invalidate
  | audit d oldValue =>
    cases h
    exact quiet_record.conforming hw
  | done r => cases h

/-- A step of a call keeps the types of values. -/
lemma conforming_next {p q : FeaturePos} (hw : w.Conforming) (hp : p.Holds w.tables)
    (h : p.next ttl w = some (q, w')) : w'.Conforming ∧ q.Holds w'.tables := by
  cases p with
  | evaluating org slug p =>
    obtain ⟨⟨q, w₁⟩, hnext, heq⟩ := Option.map_eq_some_iff.mp h
    cases heq
    exact conforming_evaluating hw hp hnext
  | setting input p =>
    obtain ⟨⟨q, w₁⟩, hnext, heq⟩ := Option.map_eq_some_iff.mp h
    cases heq
    exact conforming_setting hw hp hnext
  | clearing input p =>
    obtain ⟨⟨q, w₁⟩, hnext, heq⟩ := Option.map_eq_some_iff.mp h
    cases heq
    exact conforming_clearing hw hnext

end Steps

/-! ## Runs -/

/-- The invariant: the state conforms, and so does what each call holds. -/
structure Conforming {ι : Type} (P : Pool ι World FeaturePos) : Prop where
  state : P.state.Conforming
  calls : ∀ i c, P.calls i = some c → c.pos.Holds P.state.tables

section Runs
variable {ι : Type} {ttl : ℕ} [DecidableEq ι] {P Q : Pool ι World FeaturePos} {turn : Turn ι}

/-- Every step keeps the invariant. -/
lemma Conforming.step (h : FeatureStep ι ttl P turn Q) (hP : Conforming P) : Conforming Q := by
  have hdefinitions := definitions_of_step h
  refine ⟨?_, fun i c hc => ?_⟩
  · cases h.cause with
    | begins i _ state =>
      rw [state]
      exact hP.state
    | elsewhere _ env =>
      obtain ⟨htables, hcache⟩ : Elapses P.state Q.state := env
      refine ⟨?_, ?_, ?_⟩
      · rw [htables]
        exact hP.state.defaults
      · rw [htables]
        exact hP.state.overrides
      · rw [htables, hcache]
        exact hP.state.cached
    | moved i b c _ there here step =>
      exact (conforming_next hP.state (hP.calls i b there) step).1
  · cases h.call hc with
    | same hold => exact (hP.calls i c hold).mono hdefinitions
    | opened _ _ starts _ _ => exact holds_of_starts starts
    | moved _ b there step _ =>
      exact (conforming_next hP.state (hP.calls i b there) step).2

omit [DecidableEq ι] in
/-- Before any call, with no override and nothing in the cache, only the defaults count. -/
lemma conforming_idle {w : World} (hcache : w.cache = .empty)
    (hnone : w.tables.organisationFeatures = .empty) (hdefaults : w.tables.DefaultsConform) :
    Conforming (Pool.idle ι FeaturePos w) := by
  refine ⟨⟨hdefaults, fun f hf => ?_, fun entry hentry => ?_⟩, fun i c hc => nomatch hc⟩
  · rw [Pool.idle_state, hnone] at hf
    exact absurd hf Table.not_mem_empty
  · rw [Pool.idle_state, hcache] at hentry
    exact absurd hentry Table.not_mem_empty

/-- A run keeps the invariant and the definitions. -/
lemma conforming_of_run {w : World} {ms : List (Move (Pool ι World FeaturePos) (Turn ι))}
    (hcache : w.cache = .empty) (hnone : w.tables.organisationFeatures = .empty)
    (hdefaults : w.tables.DefaultsConform)
    (run : Run (FeatureStep ι ttl) (Pool.idle ι FeaturePos w) ms P) :
    Conforming P ∧ P.state.tables.featureDefinitions = w.tables.featureDefinitions := by
  refine run.invariant
    (fun P => Conforming P ∧ P.state.tables.featureDefinitions = w.tables.featureDefinitions)
    (fun _ => True) ⟨conforming_idle hcache hnone hdefaults, rfl⟩ ?_ (fun _ _ => trivial)
  intro P Q turn step _ hP
  exact ⟨hP.1.step step, (definitions_of_step step).trans hP.2⟩

/-- Reading the names among strings leaves none out. -/
lemma map_string_filterMap {elems : List Value} (h : elems.all Value.isString = true) :
    elems = (elems.filterMap Value.asStr?).map .string := by
  induction elems with
  | nil => rfl
  | cons v elems ih =>
    obtain ⟨hv, hrest⟩ := Bool.and_eq_true_iff.mp (List.all_cons ▸ h)
    cases v with
    | string s => exact congrArg (Value.string s :: ·) (ih hrest)
    | _ => cases hv

/-- A set of names is read whole. -/
lemma allowedHeaders_of_conforms {t : Tables} {slug : String} {v : Value} {d : FeatureDefinition}
    (hv : t.Conforms slug v) (hd : t.definition slug = some d) (henum : d.valueType = .enumSet) :
    ∃ names : List String, v = .array (names.map .string) ∧ allowedHeaders v = .ok names := by
  obtain ⟨d', hd', hvalid⟩ := hv
  cases hd.symm.trans hd'
  rw [henum] at hvalid
  cases v with
  | array elems =>
    have hstrings : elems.all Value.isString = true := by
      by_contra hall
      simp only [FeatureValueType.validate, if_neg hall] at hvalid
      cases hvalid
    exact ⟨elems.filterMap Value.asStr?, congrArg Value.array (map_string_filterMap hstrings), rfl⟩
  | _ => cases hvalid

/-- What an evaluation answers over conforming tables and cache has the type of its flag. -/
lemma conforms_of_evaluate {w u : World} {org : Uuid} {slug : String} {v : Value}
    (hw : w.Conforming) (h : (evaluate org slug).run w = (.ok v, u)) : w.tables.Conforms slug v := by
  have hevaluated := (evaluate_eq_ok h).1
  unfold World.evaluated at hevaluated
  cases hcached : w.cached org slug with
  | some value =>
    rw [hcached] at hevaluated
    cases hevaluated
    unfold World.cached at hcached
    obtain ⟨entry, hentry, rfl⟩ := Option.map_eq_some_iff.mp hcached
    obtain ⟨hmem, hkey⟩ := Table.find?_eq_some.mp (Option.filter_eq_some_iff.mp hentry).1
    have hslug : entry.slug = slug := congrArg Prod.snd hkey
    rw [← hslug]
    exact hw.cached entry hmem
  | none =>
    rw [hcached] at hevaluated
    have heffective : w.tables.effective org slug = some v := hevaluated
    unfold Tables.effective at heffective
    split at heffective
    · rename_i ov hov
      cases heffective
      exact hw.override hov
    · obtain ⟨d, hd, rfl⟩ := Option.map_eq_some_iff.mp heffective
      exact hw.default hd

/-- Looking an API key up changes neither tables nor cache. -/
lemma reads_cache_verifyKey [Argon2] {keyPrefix secret : String} :
    Prog.Reads (fun w : World => (w.tables, w.cache)) (verifyKey keyPrefix secret) := by
  unfold verifyKey findActiveByPrefix
  refine Prog.Reads.bind (reads_query fun _ => rfl).mapErr (fun found => ?_)
  split
  · exact Prog.Reads.ret
  · refine Prog.Reads.bind Prog.Reads.ofExcept.mapErr (fun ok => ?_)
    split <;> exact Prog.Reads.ret

/-- Where all defaults have the types of their flags and there is no override, every override and
every value that an evaluation returns has the type of its flag, in every run of settings, clearings
and evaluations. When the API-key headers are a set of names, the list of headers that an
evaluation, or a request with an API key, gets is read whole. -/
theorem features_conform [Argon2] (w : World) (hcache : w.cache = .empty)
    (hnone : w.tables.organisationFeatures = .empty) (hdefaults : w.tables.DefaultsConform)
    (ms : List (Move (Pool ι World FeaturePos) (Turn ι)))
    (run : Run (FeatureStep ι ttl) (Pool.idle ι FeaturePos w) ms P) :
    (∀ f ∈ P.state.tables.organisationFeatures, P.state.tables.Conforms f.slug f.value) ∧
    (∀ i c org slug v, P.calls i = some c → c.pos = .evaluating org slug (.done (.ok v)) →
      P.state.tables.Conforms slug v) ∧
    (∀ d, w.tables.definition "auth.api_key_headers" = some d → d.valueType = .enumSet →
      (∀ i c org v, P.calls i = some c →
        c.pos = .evaluating org "auth.api_key_headers" (.done (.ok v)) →
        ∃ names : List String, v = .array (names.map .string) ∧ allowedHeaders v = .ok names) ∧
      (∀ keyPrefix secret verified u v u',
        (verifyKey keyPrefix secret).run P.state = (.ok (some verified), u) →
        (evaluate verified.organisationId "auth.api_key_headers").run u = (.ok v, u') →
        ∃ names : List String, v = .array (names.map .string) ∧ allowedHeaders v = .ok names)) := by
  obtain ⟨hP, hdefinitions⟩ := conforming_of_run hcache hnone hdefaults run
  have hevaluated : ∀ i c org slug v, P.calls i = some c →
      c.pos = .evaluating org slug (.done (.ok v)) → P.state.tables.Conforms slug v := by
    intro i c org slug v hc hpos
    have hholds := hP.calls i c hc
    rw [hpos] at hholds
    exact hholds
  refine ⟨hP.state.overrides, hevaluated, fun d hd henum => ?_⟩
  have hd' : P.state.tables.definition "auth.api_key_headers" = some d := by
    unfold Tables.definition at hd ⊢
    rw [hdefinitions]
    exact hd
  refine ⟨fun i c org v hc hpos => ?_, fun keyPrefix secret verified u v u' hverify heval => ?_⟩
  · exact allowedHeaders_of_conforms (hevaluated i c org _ v hc hpos) hd' henum
  · obtain ⟨htables, hsame⟩ := Prod.mk.inj (reads_cache_verifyKey.of_run hverify)
    have hu : u.Conforming := by
      obtain ⟨hdefs, hoverrides, hcached⟩ := hP.state
      rw [← htables] at hdefs hoverrides hcached
      rw [← hsame] at hcached
      exact ⟨hdefs, hoverrides, hcached⟩
    have hvalue := conforms_of_evaluate hu heval
    rw [htables] at hvalue
    exact allowedHeaders_of_conforms hvalue hd' henum

/-- The operator narrows the API-key headers of `acme`, and an evaluation gets a set of names. -/
theorem features_conform_narrowed :
    ∃ P c, performFeatures (fun _ _ => true) settledSchedule = some P ∧ P.calls .second = some c ∧
      c.pos = .evaluating 0xa "auth.api_key_headers" (.done (.ok narrowHeaders.value)) ∧
      (∀ f ∈ P.state.tables.organisationFeatures, P.state.tables.Conforms f.slug f.value) ∧
      P.state.tables.Conforms "auth.api_key_headers" narrowHeaders.value ∧
      ∃ names : List String, narrowHeaders.value = .array (names.map .string) ∧
        allowedHeaders narrowHeaders.value = .ok names := by
  let _ : Platform := plainPlatform
  have hends : (performFeatures (fun _ _ => true) settledSchedule).map
      (fun P => (P.calls .second).map Call.pos) =
      some (some (.evaluating 0xa "auth.api_key_headers" (.done (.ok narrowHeaders.value)))) := by
    decide +kernel
  obtain ⟨P, hP, hcalls⟩ := Option.map_eq_some_iff.mp hends
  obtain ⟨c, hc, hpos⟩ := Option.map_eq_some_iff.mp hcalls
  obtain ⟨ms, hrun, -⟩ := Pool.run_of_perform (fun h => h) hP
  obtain ⟨hoverrides, hvalues, hheaders⟩ := features_conform (.calm .twoTenants 0) rfl rfl
    (by intro d hd; cases List.mem_singleton.mp hd; decide) ms hrun
  have hnames := (hheaders seededFeatureDefinition (by decide) rfl).1 .second c 0xa _ hc hpos
  exact ⟨P, c, hP, hc, hpos, hoverrides, hvalues .second c 0xa _ _ hc hpos, hnames⟩

end Runs
end Egras
