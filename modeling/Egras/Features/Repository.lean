import Egras.Db.Constraints
import Egras.Features.Model
import Mathlib.Data.List.Sort

/-!
# Feature flags in the database

The statements on `feature_definitions` and `organisation_features`.

Rust → Lean naming: `list_definitions` → `listDefinitions`, `get_definition` → `getDefinition`,
`list_overrides_for_org` → `listOverridesForOrg`, `get_override` → `getOverride`,
`upsert_override` → `upsertOverride`, `delete_override` → `deleteOverride`, `map_slug_fk_error` →
`mapSlugFkError`.
-/

namespace Egras
open Lib

/-- Why the repository refuses. -/
inductive FeatureRepoError
  | unknownSlug
  | other (e : SqlError)
deriving DecidableEq

/-- A violated reference to `feature_definitions` is an unknown slug; other errors stay. -/
def mapSlugFkError : SqlError → FeatureRepoError
  | .database "23503" "organisation_features_slug_fkey" => .unknownSlug
  | e => .other e

/-- The override of an organisation for a flag. -/
def Tables.override (t : Tables) (org : Uuid) (slug : String) : Option OrgFeatureOverride :=
  t.organisationFeatures.find? (org, slug)

/-- The catalog entry of a flag. -/
def Tables.definition (t : Tables) (slug : String) : Option FeatureDefinition :=
  t.featureDefinitions.find? slug

/-- The value of a flag for an organisation: its override, else the default of the flag. -/
def Tables.effective (t : Tables) (org : Uuid) (slug : String) : Option Value :=
  match t.override org slug with
  | some ov => some ov.value
  | none => (t.definition slug).map FeatureDefinition.defaultValue

/-- An override that is accepted belongs to a known flag, and is the only one that changes. -/
lemma Tables.upsertFeature_eq_ok {t t' : Tables} {f : OrgFeatureOverride}
    (h : t.upsertFeature f = .ok t') : (t.definition f.slug).isSome = true ∧
      t' = { t with organisationFeatures := t.organisationFeatures.upsert f } := by
  unfold upsertFeature at h
  split at h
  · cases h
  · split at h
    · cases h
    · rename_i hknown
      split at h
      · cases h
      · simp only [Bool.not_eq_true', Bool.not_eq_false, Table.any_eq_true] at hknown
        obtain ⟨d, hd, hslug⟩ := hknown
        have hfind : t.definition d.slug = some d := Table.find?_key hd
        rw [of_decide_eq_true hslug] at hfind
        exact ⟨by rw [hfind]; rfl, (Except.ok.inj h).symm⟩

/-- `SELECT ... FROM feature_definitions ORDER BY slug ASC`. -/
def listDefinitions : Action FeatureRepoError (List FeatureDefinition) :=
  (query (fun w => w.tables.featureDefinitions.rows.insertionSort
    (fun a b => a.slug ≤ b.slug))).mapErr .other

/-- `SELECT ... FROM feature_definitions WHERE slug = $1`. -/
def getDefinition (slug : String) : Action FeatureRepoError (Option FeatureDefinition) :=
  (query (fun w => w.tables.definition slug)).mapErr .other

/-- Reading a definition leaves blind views alone. -/
lemma reads_getDefinition {τ : Type} {V : World → τ} [Blind V] {slug : String} :
    Prog.Reads V (getDefinition slug) :=
  Prog.Reads.mapErr (reads_query Blind.tick)

/-- `SELECT ... FROM organisation_features WHERE organisation_id = $1 ORDER BY slug ASC`. -/
def listOverridesForOrg (org : Uuid) : Action FeatureRepoError (List OrgFeatureOverride) :=
  (query (fun w =>
    (w.tables.organisationFeatures.select (fun f => f.organisationId = org)).insertionSort
      (fun a b => a.slug ≤ b.slug))).mapErr .other

/-- `SELECT ... FROM organisation_features WHERE organisation_id = $1 AND slug = $2`. -/
def getOverride (org : Uuid) (slug : String) :
    Action FeatureRepoError (Option OrgFeatureOverride) :=
  (query (fun w => w.tables.override org slug)).mapErr .other

/-- Write an override and return the value it replaces. -/
def upsertOverride (org : Uuid) (slug : String) (value : Value) (updatedBy : Uuid) :
    Action FeatureRepoError (Option Value) :=
  (execute (fun w => do
    let t ← w.tables.upsertFeature ⟨org, slug, value, w.now, updatedBy⟩
    return ((w.tables.override org slug).map OrgFeatureOverride.value, t))).mapErr mapSlugFkError

/-- Delete an override and return its value. -/
def deleteOverride (org : Uuid) (slug : String) : Action FeatureRepoError (Option Value) :=
  (execute (fun w => .ok
    ((w.tables.override org slug).map OrgFeatureOverride.value,
      { w.tables with
        organisationFeatures :=
          w.tables.organisationFeatures.deleteWhere (fun f => f.key = (org, slug)) }))).mapErr
    .other

end Egras
