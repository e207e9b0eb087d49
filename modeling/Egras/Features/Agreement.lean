import Egras.Features.ReadYourWrites

/-!
# The evaluated list and the tables

The list of the flags of an organisation takes the source of a value from the overrides and the
value itself from the evaluator, that is, from the cache of the node. On a node whose cache is empty
at first and whose calls come one after the other the two agree: after any history of settings,
clearings, evaluations and lists, with any times in between, the list is what the tables say
(`listOrgFeatures_agrees`). The invariant is that every value in the cache, expired or not, is the
one in force (`World.Agrees`); a setting or clearing breaks it with its write and restores it with
its invalidation.
-/

namespace Egras
open Lib

/-- Every value in the cache is the one in force. -/
def World.Agrees (w : World) : Prop :=
  ∀ entry ∈ w.cache, w.tables.effective entry.organisationId entry.slug = some entry.value

/-- Every statement from now on is answered. -/
def World.Healthy (w : World) : Prop := ∀ n, w.answersAll n = true

/-- How the tables evaluate a flag for an organisation. -/
def Tables.evaluatedFeature (t : Tables) (org : Uuid) (d : FeatureDefinition) : EvaluatedFeature where
  slug := d.slug
  value :=
    match t.override org d.slug with
    | some ov => ov.value
    | none => d.defaultValue
  source :=
    match t.override org d.slug with
    | some _ => .override
    | none => .default
  valueType := d.valueType
  selfService := d.selfService

section Calls
variable {w w' : World} {org : Uuid} {slug : String} {v : Value} {t : Tables}

/-! ## The cache agrees with the tables -/

/-- Where the cache agrees an evaluation answers what is in force. -/
lemma World.Agrees.evaluated (hw : w.Agrees) :
    w.evaluated org slug = w.tables.effective org slug := by
  unfold World.evaluated World.cached
  cases hfind : (w.cache.find? (org, slug)).filter (fun entry => w.now < entry.expiresAt) with
  | none => rfl
  | some entry =>
    obtain ⟨hmem, hkey⟩ := Table.find?_eq_some.mp (Option.filter_eq_some_iff.mp hfind).1
    obtain ⟨rfl, rfl⟩ := Prod.mk.inj hkey
    exact (hw entry hmem).symm

/-- Agreement is about the tables and the cache only. -/
lemma World.Agrees.congr (hw : w.Agrees) (htables : w'.tables = w.tables)
    (hcache : w'.cache = w.cache) : w'.Agrees := by
  unfold World.Agrees
  rw [htables, hcache]
  exact hw

/-- What changes neither the tables nor the cache keeps them in agreement. -/
lemma keeps_agrees_of_reads {ε α : Type} {p : Action ε α}
    (h : Prog.Reads (fun w => (w.tables, w.cache)) p) : Prog.Keeps World.Agrees p := by
  intro w hw
  obtain ⟨htables, hcache⟩ := Prod.mk.inj (h w)
  exact hw.congr htables hcache

/-- An evaluation keeps the cache in agreement. -/
lemma keeps_agrees_evaluate : Prog.Keeps World.Agrees (evaluate org slug) := by
  have hreads : Prog.Reads (fun w => (w.tables, w.cache)) (evaluateMiss org slug) :=
    reads_evaluateMiss fun _ => rfl
  refine Prog.Keeps.bind (keeps_agrees_of_reads reads_utcNow) fun now => ?_
  refine Prog.Keeps.bind (keeps_agrees_of_reads (Prog.Reads.lift fun _ => rfl)) fun entry => ?_
  cases entry.filter (fun entry => now < entry.expiresAt) with
  | some entry => exact Prog.Keeps.ret
  | none =>
    intro w hw
    cases hrun : (evaluateMiss org slug).run w with
    | mk r u =>
      obtain ⟨htables, hcache⟩ := Prod.mk.inj (hreads.of_run hrun)
      rw [Prog.run_bind, hrun]
      cases r with
      | error e => exact hw.congr htables hcache
      | ok value =>
        -- the value that is filled in has just been read
        have heffective := (evaluateMiss_eq_ok hrun).1
        intro entry hentry
        rcases Table.mem_upsert.mp hentry with ⟨hold, -⟩ | rfl
        · exact hw.congr htables hcache entry hold
        · rw [← htables] at heffective
          exact heffective

/-- A write of one override followed by its invalidation. -/
lemma keeps_agrees_write {ε α : Type} {p : Action ε α} {event : α → Stamp → AuditEvent}
    (hcache : Prog.Reads World.cache p) (hatomic : Prog.Atomic World.tables p)
    (hwrites : ∀ w a w', p.run w = (.ok a, w') → ∀ k : Uuid × String, k ≠ (org, slug) →
      w'.tables.effective k.1 k.2 = w.tables.effective k.1 k.2) :
    Prog.Keeps World.Agrees (do
      let a ← p
      invalidate org slug
      record (event a)) := by
  intro w hw
  cases hrun : p.run w with
  | mk r u =>
    have hsame : u.cache = w.cache := hcache.of_run hrun
    rw [Prog.run_bind, hrun]
    cases r with
    | error e => exact hw.congr (hatomic _ _ _ hrun) hsame
    | ok a =>
      intro entry hentry
      obtain ⟨hmem, hother⟩ := Table.mem_deleteWhere.mp hentry
      have hkey : entry.key ≠ (org, slug) := of_decide_eq_false hother
      rw [hsame] at hmem
      exact (hwrites _ _ _ hrun entry.key hkey).trans (hw entry hmem)

/-- The override of another key is in force as before. -/
lemma Tables.effective_of_override {t' : Tables} {k : Uuid × String}
    (hdefinitions : t'.featureDefinitions = t.featureDefinitions)
    (hoverride : t'.override k.1 k.2 = t.override k.1 k.2) :
    t'.effective k.1 k.2 = t.effective k.1 k.2 := by
  unfold Tables.effective Tables.definition
  rw [hoverride, hdefinitions]

/-- Setting a flag keeps the cache in agreement. -/
lemma keeps_agrees_setOrgFeature {input : SetOrgFeatureInput} :
    Prog.Keeps World.Agrees (setOrgFeature input) := by
  refine Prog.Keeps.bind (keeps_agrees_of_reads (reads_query fun _ => rfl).mapErr.mapErr)
    fun found => ?_
  cases found with
  | none => exact Prog.Keeps.fail
  | some d =>
    refine Prog.Keeps.bind Prog.Keeps.ofExcept.mapErr fun _ => ?_
    refine Prog.Keeps.bind (keeps_agrees_of_reads reads_require) fun _ => ?_
    refine keeps_agrees_write (reads_execute (fun _ => rfl) fun _ _ _ _ => rfl).mapErr.mapErr
      atomic_execute.mapErr.mapErr fun w old w' hrun k hk => ?_
    have hupsert := Prog.mapErr_eq_ok hrun
    have hdefinitions := (overwrites_upsertOverride hupsert).definitions
    obtain ⟨t, heffect, rfl, -⟩ := execute_eq_ok (Prog.mapErr_eq_ok hupsert)
    refine Tables.effective_of_override hdefinitions ?_
    unfold Tables.override
    rw [(Tables.upsertFeature_eq_ok (return_eq_ok.mp heffect).1).2, Table.find?_upsert]
    exact if_neg hk.symm

/-- Clearing a flag keeps the cache in agreement. -/
lemma keeps_agrees_clearOrgFeature {input : ClearOrgFeatureInput} :
    Prog.Keeps World.Agrees (clearOrgFeature input) := by
  refine Prog.Keeps.bind (keeps_agrees_of_reads (reads_query fun _ => rfl).mapErr.mapErr)
    fun found => ?_
  cases found with
  | none => exact Prog.Keeps.fail
  | some d =>
    refine Prog.Keeps.bind (keeps_agrees_of_reads reads_require) fun _ => ?_
    refine keeps_agrees_write (reads_execute (fun _ => rfl) fun _ _ _ h => ?_).mapErr.mapErr
      atomic_execute.mapErr.mapErr fun w old w' hrun k hk => ?_
    · cases h
      rfl
    · have hdelete := Prog.mapErr_eq_ok hrun
      have hdefinitions := (overwrites_deleteOverride hdelete).definitions
      obtain ⟨t, heffect, rfl, -⟩ := execute_eq_ok (Prog.mapErr_eq_ok hdelete)
      cases heffect
      exact Tables.effective_of_override hdefinitions (Table.find?_deleteWhere_of_ne hk)

/-- Evaluating all flags keeps the cache in agreement. -/
lemma keeps_agrees_evaluateAll {overrides : List OrgFeatureOverride}
    {definitions : List FeatureDefinition} :
    Prog.Keeps World.Agrees (evaluateAll org overrides definitions) := by
  induction definitions with
  | nil => exact Prog.Keeps.ret
  | cons d ds ih =>
    exact Prog.Keeps.bind keeps_agrees_evaluate.mapErr fun value =>
      Prog.Keeps.bind ih fun rest => Prog.Keeps.ret

/-- Listing the flags keeps the cache in agreement. -/
lemma keeps_agrees_listOrgFeatures : Prog.Keeps World.Agrees (listOrgFeatures org) := by
  refine Prog.Keeps.bind (keeps_agrees_of_reads (reads_query fun _ => rfl).mapErr.mapErr)
    fun definitions => ?_
  refine Prog.Keeps.bind (keeps_agrees_of_reads (reads_query fun _ => rfl).mapErr.mapErr)
    fun overrides => ?_
  exact keeps_agrees_evaluateAll

/-! ## The list -/

/-- A flag of the catalog has a value in force. -/
lemma effective_of_mem {d : FeatureDefinition} (hd : d ∈ t.featureDefinitions) :
    t.effective org d.slug = some (t.evaluatedFeature org d).value := by
  have hdefinition : t.definition d.slug = some d := Table.find?_key hd
  unfold Tables.effective Tables.evaluatedFeature
  rw [hdefinition]
  cases t.override org d.slug <;> rfl

/-- The overrides of an organisation tell where the value of a flag comes from. -/
lemma source_eq {d : FeatureDefinition} {overrides : List OrgFeatureOverride}
    (h : ∀ ov, ov ∈ overrides ↔ ov ∈ t.organisationFeatures ∧ ov.organisationId = org) :
    (if overrides.any (fun ov => ov.slug = d.slug) then FeatureSource.override else .default) =
      (t.evaluatedFeature org d).source := by
  unfold Tables.evaluatedFeature
  dsimp only
  cases hov : t.override org d.slug with
  | some ov =>
    obtain ⟨hmem, hkey⟩ := Table.find?_eq_some.mp hov
    obtain ⟨horg, hslug⟩ := Prod.mk.inj hkey
    exact if_pos (List.any_eq_true.mpr ⟨ov, (h ov).mpr ⟨hmem, horg⟩, decide_eq_true hslug⟩)
  | none =>
    refine if_neg fun hany => ?_
    obtain ⟨ov, hov', hslug⟩ := List.any_eq_true.mp hany
    obtain ⟨hmem, horg⟩ := (h ov).mp hov'
    exact Table.find?_eq_none.mp hov ov hmem (Prod.ext horg (of_decide_eq_true hslug))

/-- Where the cache agrees the flags are evaluated as the tables say. -/
lemma ensures_evaluateAll_agrees {overrides : List OrgFeatureOverride}
    (hoverrides : ∀ ov, ov ∈ overrides ↔ ov ∈ t.organisationFeatures ∧ ov.organisationId = org)
    {definitions : List FeatureDefinition} (h : ∀ d ∈ definitions, d ∈ t.featureDefinitions) :
    Prog.Ensures (fun w => w.tables = t ∧ w.Agrees) (evaluateAll org overrides definitions)
      (fun features _ => features = definitions.map (t.evaluatedFeature org)) := by
  induction definitions with
  | nil => exact Prog.Ensures.ret fun w hw => rfl
  | cons d ds ih =>
    rintro w features v ⟨rfl, hagrees⟩ hrun
    obtain ⟨value, w₁, hevaluate, h₁⟩ := Prog.bind_eq_ok hrun
    have hok := Prog.mapErr_eq_ok hevaluate
    obtain ⟨hvalue, htables, -⟩ := evaluate_eq_ok hok
    rw [hagrees.evaluated, effective_of_mem (h d List.mem_cons_self)] at hvalue
    have hagrees₁ : w₁.Agrees := keeps_agrees_evaluate.of_run hagrees hok
    obtain ⟨rest, w₂, hrest, h₂⟩ := Prog.bind_eq_ok h₁
    have htail : rest = ds.map (w.tables.evaluatedFeature org) :=
      ih (fun d hd => h d (List.mem_cons_of_mem _ hd)) w₁ rest w₂ ⟨htables, hagrees₁⟩ hrest
    cases h₂
    rw [List.map_cons, ← htail, source_eq hoverrides, ← Option.some.inj hvalue]
    rfl

/-- The listed flags are those of the tables. -/
lemma ensures_listOrgFeatures_agrees : Prog.Ensures (fun w => w.tables = t ∧ w.Agrees)
    (listOrgFeatures org) (fun features _ => ∃ definitions : List FeatureDefinition,
      definitions.Perm t.featureDefinitions.rows ∧
      features = definitions.map (t.evaluatedFeature org)) := by
  rintro w features v ⟨rfl, hagrees⟩ hrun
  obtain ⟨definitions, w₁, hdefinitions, h₁⟩ := Prog.bind_eq_ok hrun
  obtain ⟨rfl, rfl, -⟩ := query_eq_ok (Prog.mapErr_eq_ok (Prog.mapErr_eq_ok hdefinitions))
  obtain ⟨overrides, w₂, hoverrides, h₂⟩ := Prog.bind_eq_ok h₁
  obtain ⟨rfl, rfl, -⟩ := query_eq_ok (Prog.mapErr_eq_ok (Prog.mapErr_eq_ok hoverrides))
  have hagrees₂ : w.tick.tick.Agrees := hagrees.congr rfl rfl
  refine ⟨_, List.perm_insertionSort _ _, ensures_evaluateAll_agrees (fun ov => ?_) (fun d hd => ?_)
    w.tick.tick _ _ ⟨rfl, hagrees₂⟩ h₂⟩
  · rw [List.mem_insertionSort, Table.mem_select, decide_eq_true_iff]
    rfl
  · exact (List.mem_insertionSort _).mp hd

/-! ## The list comes back -/

/-- The database answers. -/
lemma World.Healthy.answers (h : w.Healthy) : w.answers = true := by
  have hone := h 1
  rw [World.answersAll_succ, Bool.and_eq_true] at hone
  exact hone.1

/-- It goes on to answer. -/
lemma World.Healthy.tick (h : w.Healthy) : w.tick.Healthy := by
  intro n
  have hmore := h (n + 1)
  rw [World.answersAll_succ, Bool.and_eq_true] at hmore
  exact hmore.2

/-- A flag that has a value is evaluated from the tables. -/
lemma evaluateMiss_returns (hw : w.Healthy) (hv : w.tables.effective org slug = some v) :
    ∃ u, (evaluateMiss org slug).run w = (.ok v, u) ∧ u.Healthy := by
  unfold Tables.effective at hv
  have hoverride : ((getOverride org slug).mapErr EvaluateError.repo).run w =
      (.ok (w.tables.override org slug), w.tick) :=
    Prog.run_mapErr_ok (Prog.run_mapErr_ok (run_query_ok hw.answers))
  cases hov : w.tables.override org slug with
  | some ov =>
    rw [hov] at hv hoverride
    cases hv
    exact ⟨w.tick, Prog.run_bind_ok hoverride rfl, hw.tick⟩
  | none =>
    rw [hov] at hv hoverride
    obtain ⟨d, hd, rfl⟩ := Option.map_eq_some_iff.mp hv
    have hdefinition : ((getDefinition slug).mapErr EvaluateError.repo).run w.tick =
        (.ok (some d), w.tick.tick) :=
      Prog.run_mapErr_ok (Prog.run_mapErr_ok (run_query_of hw.tick.answers hd))
    exact ⟨w.tick.tick, Prog.run_bind_ok hoverride (Prog.run_bind_ok hdefinition rfl),
      hw.tick.tick⟩

/-- A flag that has a value is evaluated. -/
lemma evaluate_returns (hw : w.Healthy) (hv : w.evaluated org slug = some v) :
    ∃ u, (evaluate org slug).run w = (.ok v, u) ∧ u.Healthy := by
  unfold World.evaluated World.cached at hv
  have hget : (cacheGet org slug : Action EvaluateError _).run w =
      (.ok (w.cache.find? (org, slug)), w) := rfl
  cases hfind : (w.cache.find? (org, slug)).filter (fun entry => w.now < entry.expiresAt) with
  | some entry =>
    rw [hfind] at hv
    cases hv
    refine ⟨w, Prog.run_bind_ok rfl (Prog.run_bind_ok hget ?_), hw⟩
    rw [hfind]
    rfl
  | none =>
    rw [hfind] at hv
    obtain ⟨u, hmiss, hu⟩ := evaluateMiss_returns hw hv
    refine ⟨{ u with cache := u.cache.upsert ⟨org, slug, v, w.now + cacheTtl⟩ },
      Prog.run_bind_ok rfl (Prog.run_bind_ok hget ?_), hu⟩
    rw [hfind]
    exact Prog.run_bind_ok hmiss rfl

/-- Known flags are all evaluated. -/
lemma evaluateAll_returns {overrides : List OrgFeatureOverride}
    {definitions : List FeatureDefinition} (hagrees : w.Agrees) (hw : w.Healthy)
    (h : ∀ d ∈ definitions, d ∈ w.tables.featureDefinitions) :
    ∃ features u, (evaluateAll org overrides definitions).run w = (.ok features, u) := by
  induction definitions generalizing w with
  | nil => exact ⟨[], w, rfl⟩
  | cons d ds ih =>
    have hvalue : w.evaluated org d.slug = some (w.tables.evaluatedFeature org d).value :=
      hagrees.evaluated.trans (effective_of_mem (h d List.mem_cons_self))
    obtain ⟨u, hrun, hu⟩ := evaluate_returns hw hvalue
    have hkept : u.tables = w.tables := reads_evaluate.of_run hrun
    obtain ⟨rest, u', hrest⟩ := ih (keeps_agrees_evaluate.of_run hagrees hrun) hu
      (fun e he => hkept ▸ h e (List.mem_cons_of_mem _ he))
    exact ⟨_, u', Prog.run_bind_ok (Prog.run_mapErr_ok hrun) (Prog.run_bind_ok hrest rfl)⟩

/-- The flags are listed. -/
lemma listOrgFeatures_returns (hagrees : w.Agrees) (hw : w.Healthy) :
    ∃ features u, (listOrgFeatures org).run w = (.ok features, u) := by
  have hagrees₂ : w.tick.tick.Agrees := hagrees.congr rfl rfl
  obtain ⟨features, u, hrun⟩ := evaluateAll_returns hagrees₂ hw.tick.tick
    fun d hd => (List.mem_insertionSort (fun a b : FeatureDefinition => a.slug ≤ b.slug)).mp hd
  exact ⟨features, u, Prog.run_bind_ok (Prog.run_mapErr_ok (Prog.run_mapErr_ok
    (run_query_ok hw.answers))) (Prog.run_bind_ok (Prog.run_mapErr_ok (Prog.run_mapErr_ok
    (run_query_ok hw.tick.answers))) hrun)⟩

end Calls

/-! ## Histories -/

/-- A call on the node. -/
inductive FeatureCall
  | set (input : SetOrgFeatureInput)
  | clear (input : ClearOrgFeatureInput)
  | evaluate (org : Uuid) (slug : String)
  | list (org : Uuid)

/-- The world that a call leaves, whether it succeeds or fails. -/
def FeatureCall.after (w : World) : FeatureCall → World
  | set input => ((setOrgFeature input).run w).2
  | clear input => ((clearOrgFeature input).run w).2
  | evaluate org slug => ((Egras.evaluate org slug).run w).2
  | list org => ((listOrgFeatures org).run w).2

/-- A call comes after another, with time passing in between. -/
inductive HistoryStep : World → FeatureCall → World → Prop
  | calls {w w' c} (elapses : Elapses w w') : HistoryStep w c (c.after w')

section Histories
variable {w w' : World} {c : FeatureCall}

/-- Every call keeps the cache in agreement. -/
lemma agrees_after (hw : w.Agrees) : (c.after w).Agrees := by
  cases c with
  | set input => exact keeps_agrees_setOrgFeature w hw
  | clear input => exact keeps_agrees_clearOrgFeature w hw
  | evaluate org slug => exact keeps_agrees_evaluate w hw
  | list org => exact keeps_agrees_listOrgFeatures w hw

/-- Every step of a history keeps the cache in agreement. -/
lemma agrees_of_step (h : HistoryStep w c w') (hw : w.Agrees) : w'.Agrees := by
  cases h with
  | calls elapses => exact agrees_after (hw.congr elapses.tables elapses.cache)

/-- An empty cache agrees with everything. -/
lemma agrees_of_empty (h : w.cache = .empty) : w.Agrees := by
  intro entry hentry
  rw [h] at hentry
  exact absurd hentry Table.not_mem_empty

/-- On a node that starts with an empty cache, after any calls one after the other and any time, a
list has each flag of the catalog once, evaluated as the tables say, an evaluation answers the value
in force, and when the database answers, the list comes back. -/
theorem listOrgFeatures_agrees (w : World) (hcache : w.cache = .empty)
    (ms : List (Move World FeatureCall)) (u v : World) (run : Run HistoryStep w ms u)
    (elapses : Elapses u v) (org : Uuid) :
    (∀ features v', (listOrgFeatures org).run v = (.ok features, v') →
      ∃ definitions : List FeatureDefinition, definitions.Perm v.tables.featureDefinitions.rows ∧
        features = definitions.map (v.tables.evaluatedFeature org)) ∧
      (v.Healthy → ∃ features v', (listOrgFeatures org).run v = (.ok features, v')) ∧
      ∀ slug value v', (evaluate org slug).run v = (.ok value, v') →
        v.tables.effective org slug = some value := by
  have hu : u.Agrees := run.invariant World.Agrees (fun _ => True) (agrees_of_empty hcache)
    (fun _ _ _ step _ h => agrees_of_step step h) (fun _ _ => trivial)
  have hv : v.Agrees := hu.congr elapses.tables elapses.cache
  refine ⟨fun features v' hrun => ?_, listOrgFeatures_returns hv, fun slug value v' hrun => ?_⟩
  · exact ensures_listOrgFeatures_agrees v features v' ⟨rfl, hv⟩ hrun
  · rw [← hv.evaluated]
    exact (evaluate_eq_ok hrun).1

end Histories

/-- The API-key headers of `acme` are evaluated, which fills the cache, and then narrowed. -/
def narrowedWorld : World :=
  (FeatureCall.set narrowHeaders).after
    ((FeatureCall.evaluate 0xa "auth.api_key_headers").after (.calm .twoTenants 0))

/-- The list shows the new value as an override. -/
theorem listOrgFeatures_agrees_narrowed :
    ∃ definitions : List FeatureDefinition,
      definitions.Perm narrowedWorld.tables.featureDefinitions.rows ∧
      [⟨"auth.api_key_headers", narrowHeaders.value, .override, seededFeatureDefinition.valueType,
        seededFeatureDefinition.selfService⟩] =
        definitions.map (narrowedWorld.tables.evaluatedFeature 0xa) := by
  have hrun : ((listOrgFeatures 0xa).run narrowedWorld).1 =
      .ok [⟨"auth.api_key_headers", narrowHeaders.value, .override,
        seededFeatureDefinition.valueType, seededFeatureDefinition.selfService⟩] := by
    decide +kernel
  have hquiet : ∀ w : World, Elapses w w := fun w => ⟨rfl, rfl⟩
  have hhistory := (Run.nil.snoc (HistoryStep.calls (c := .evaluate 0xa "auth.api_key_headers")
    (hquiet (.calm .twoTenants 0)))).snoc (HistoryStep.calls (c := .set narrowHeaders) (hquiet _))
  exact (listOrgFeatures_agrees _ rfl _ _ narrowedWorld hhistory (hquiet _) 0xa).1 _ _
    (Prod.ext hrun rfl)

end Egras
