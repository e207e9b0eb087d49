import Egras.Auth.Extractors
import Egras.Features.Evaluate
import Egras.Security.Secrets

/-!
# Setting, clearing and listing feature flags

The use cases `set_org_feature`, `clear_org_feature` and `list_org_features`, and the handlers of the
features router that work on one organisation.
-/

namespace Egras
open Lib

/-- Which flag gets which value, and who sets it. -/
structure SetOrgFeatureInput where
  organisationId : Uuid
  slug : String
  value : Value
  actorUserId : Uuid
  actorOrgId : Uuid
  actorIsOperator : Bool
deriving DecidableEq

/-- Why no flag is set. -/
inductive SetOrgFeatureError
  | unknownSlug
  | notSelfService
  | invalidValue (reason : String)
  | other
deriving DecidableEq

/-- Set a flag that the actor may set to a value of its type, and record it. -/
def setOrgFeature (input : SetOrgFeatureInput) : Action SetOrgFeatureError Unit := do
  match ← (getDefinition input.slug).mapErr (fun _ => SetOrgFeatureError.other) with
  | none => .fail .unknownSlug
  | some definition =>
    (Prog.ofExcept (definition.valueType.validate input.value)).mapErr .invalidValue
    require (definition.selfService || input.actorIsOperator) .notSelfService
    let oldValue ← (upsertOverride input.organisationId input.slug input.value
      input.actorUserId).mapErr (fun _ => SetOrgFeatureError.other)
    invalidate input.organisationId input.slug
    record (fun s => .featureSet s input.actorUserId input.actorOrgId input.organisationId
      input.slug oldValue input.value definition.selfService)

/-- Which flag is cleared, and by whom. -/
structure ClearOrgFeatureInput where
  organisationId : Uuid
  slug : String
  actorUserId : Uuid
  actorOrgId : Uuid
  actorIsOperator : Bool
deriving DecidableEq

/-- Why no flag is cleared. -/
inductive ClearOrgFeatureError
  | unknownSlug
  | notSelfService
  | other
deriving DecidableEq

/-- Clear a flag that the actor may clear, and record it. -/
def clearOrgFeature (input : ClearOrgFeatureInput) : Action ClearOrgFeatureError Unit := do
  match ← (getDefinition input.slug).mapErr (fun _ => ClearOrgFeatureError.other) with
  | none => .fail .unknownSlug
  | some definition =>
    require (definition.selfService || input.actorIsOperator) .notSelfService
    let oldValue ← (deleteOverride input.organisationId input.slug).mapErr
      (fun _ => ClearOrgFeatureError.other)
    invalidate input.organisationId input.slug
    record (fun s => .featureCleared s input.actorUserId input.actorOrgId input.organisationId
      input.slug oldValue definition.selfService)

/-- The flags of an organisation in the order of their definitions; the cache decides the values. -/
def evaluateAll (orgId : Uuid) (overrides : List OrgFeatureOverride) :
    List FeatureDefinition → Action Anyhow (List EvaluatedFeature)
  | [] => .ret []
  | d :: ds => do
    let source := if overrides.any (fun ov => ov.slug = d.slug) then .override else .default
    let value ← (evaluate orgId d.slug).mapErr (fun _ => Anyhow.mk)
    let rest ← evaluateAll orgId overrides ds
    return ⟨d.slug, value, source, d.valueType, d.selfService⟩ :: rest

/-- Evaluate every flag for an organisation. -/
def listOrgFeatures (orgId : Uuid) : Action Anyhow (List EvaluatedFeature) := do
  let definitions ← listDefinitions.mapErr (fun _ => Anyhow.mk)
  let overrides ← (listOverridesForOrg orgId).mapErr (fun _ => Anyhow.mk)
  evaluateAll orgId overrides definitions

/-! ## Handlers -/

/-- The answer for an error of the setting. -/
def SetOrgFeatureError.toApp : SetOrgFeatureError → AppError
  | .unknownSlug => .featureUnknown
  | .notSelfService => .featureNotSelfService
  | .invalidValue reason => .featureInvalidValue reason
  | .other => .internal

/-- The answer for an error of the clearing. -/
def ClearOrgFeatureError.toApp : ClearOrgFeatureError → AppError
  | .unknownSlug => .featureUnknown
  | .notSelfService => .featureNotSelfService
  | .other => .internal

/-- List the flags, to operators. -/
def getDefinitions (ext : Extensions) : Action AppError (List FeatureDefinition) := do
  Prog.ofExcept (perm .tenantsManageAll ext)
  listDefinitions.mapErr (fun _ => AppError.internal)

/-- List the flags of an organisation. -/
def getOrgFeatures (ext : Extensions) (orgId : Uuid) : Action AppError (List EvaluatedFeature) := do
  let caller ← Prog.ofExcept (authedCaller ext)
  Prog.ofExcept (perm .featuresRead ext)
  Prog.ofExcept (requireOwnOrganisation caller orgId)
  (listOrgFeatures orgId).mapErr (fun _ => AppError.internal)

/-- Set a flag of an organisation, and answer it evaluated. -/
def putOrgFeature (ext : Extensions) (orgId : Uuid) (slug : String) (value : Value) :
    Action AppError EvaluatedFeature := do
  let caller ← Prog.ofExcept (authedCaller ext)
  Prog.ofExcept (perm .featuresManage ext)
  Prog.ofExcept (requireOwnOrganisation caller orgId)
  (setOrgFeature ⟨orgId, slug, value, caller.claims.sub, caller.claims.org,
    caller.permissions.isOperatorOverTenants⟩).mapErr SetOrgFeatureError.toApp
  let features ← (listOrgFeatures orgId).mapErr (fun _ => AppError.internal)
  match features.find? (fun f => f.slug = slug) with
  | none => .fail .featureUnknown
  | some evaluated => return evaluated

/-- Clear a flag of an organisation. -/
def deleteOrgFeature (ext : Extensions) (orgId : Uuid) (slug : String) : Action AppError ℕ := do
  let caller ← Prog.ofExcept (authedCaller ext)
  Prog.ofExcept (perm .featuresManage ext)
  Prog.ofExcept (requireOwnOrganisation caller orgId)
  (clearOrgFeature ⟨orgId, slug, caller.claims.sub, caller.claims.org,
    caller.permissions.isOperatorOverTenants⟩).mapErr ClearOrgFeatureError.toApp
  return 204

end Egras
