import Egras.Auth.Extractors
import Egras.Tenants.Service

/-!
# Handlers of organisations and memberships

The handlers of the tenants router that write memberships, from the extensions of an authenticated
request and its parsed body to the status and body of the answer. A body that does not parse never
reaches a handler.

Rust → Lean naming: `post_assign_role` → `postAssignRole` and so on; `map_service_error` →
`CreateOrganisationError.toApp`, `map_assign_role_error` → `AssignRoleError.toApp`.
-/

namespace Egras
open Lib

/-- The `length` check of the `validator` crate on a field. -/
def validateLength (field : String) (lo hi : ℕ) (s : String) : List (String × List String) :=
  if lo ≤ s.length ∧ s.length ≤ hi then [] else [(field, ["length"])]

/-- Refuse a request with the errors of its fields, if there are any. -/
def validateFields (errors : List (String × List String)) : Except AppError Unit :=
  if errors.isEmpty then .ok () else .error (.validation errors)

/-- The body of a creation. -/
structure CreateOrganisationRequest where
  name : String
  business : String
  seedCreatorAsOwner : Bool
deriving DecidableEq

/-- An organisation as it is answered. -/
structure OrganisationBody where
  id : Uuid
  name : String
  business : String
  roleCodes : List String
deriving DecidableEq

/-- The answer for an error of the creation. -/
def CreateOrganisationError.toApp : CreateOrganisationError → AppError
  | .duplicateName => .conflict "organisation name already exists"
  | .invalidName => .fieldError "name" "invalid: must be non-empty and ≤ 120 chars"
  | .invalidBusiness => .fieldError "business" "invalid: must be non-empty and ≤ 120 chars"
  | .repo _ => .internal

/-- Create an organisation, for callers that may. -/
def postCreateOrganisation (ext : Extensions) (req : CreateOrganisationRequest) :
    Action AppError (ℕ × OrganisationBody) := do
  let caller ← Prog.ofExcept (authedCaller ext)
  Prog.ofExcept (perm .tenantsCreate ext)
  Prog.ofExcept (validateFields
    (validateLength "name" 1 120 req.name ++ validateLength "business" 1 120 req.business))
  let out ← (createOrganisation caller.claims.sub caller.claims.org
    ⟨req.name, req.business, req.seedCreatorAsOwner⟩).mapErr CreateOrganisationError.toApp
  return (201, ⟨out.id, out.name, out.business, out.roleCodes⟩)

/-- The body of an assignment. -/
structure AssignRoleRequest where
  userId : Uuid
  roleCode : String
deriving DecidableEq

/-- An assignment as it is answered. -/
structure AssignRoleResponseBody where
  assigned : Bool
deriving DecidableEq

/-- The answer for an error of the assignment. -/
def AssignRoleError.toApp : AssignRoleError → AppError
  | .notFound => .notFound "organisation"
  | .unknownRoleCode => .fieldError "role_code" "unknown_role_code"
  | .unknownUser => .fieldError "user_id" "not_a_member"
  | .serviceAccountCrossOrgForbidden =>
    .fieldError "user_id" "service_account_cross_org_forbidden"
  | .repo _ => .internal
  | .internal _ => .internal

/-- Assign a role in an organisation, for callers that may. -/
def postAssignRole (ext : Extensions) (orgId : Uuid) (req : AssignRoleRequest) :
    Action AppError (ℕ × AssignRoleResponseBody) := do
  Prog.ofExcept (perm .tenantsRolesAssign ext)
  let caller ← Prog.ofExcept (authedCaller ext)
  Prog.ofExcept (validateFields (validateLength "role_code" 1 64 req.roleCode))
  let out ← (assignRole caller.claims.sub caller.claims.org
    caller.permissions.isOperatorOverTenants ⟨orgId, req.userId, req.roleCode⟩).mapErr
    AssignRoleError.toApp
  return (200, ⟨out.wasNew⟩)

/-- The body of an addition. -/
structure AddUserToOrganisationRequest where
  userId : Uuid
  orgId : Uuid
  roleCode : String
deriving DecidableEq

/-- The answer for an error of the addition. -/
def AddUserToOrganisationError.toApp : AddUserToOrganisationError → AppError
  | .notFound => .notFound "organisation or user"
  | .unknownRoleCode => .fieldError "role_code" "unknown_role_code"
  | .repo _ => .internal

/-- Add a user to the organisation of the body, for callers that may. -/
def postAddUserToOrganisation (ext : Extensions) (req : AddUserToOrganisationRequest) :
    Action AppError ℕ := do
  let caller ← Prog.ofExcept (authedCaller ext)
  Prog.ofExcept (perm .tenantsMembersAdd ext)
  (addUserToOrganisation caller.claims.sub caller.claims.org
    ⟨req.userId, req.orgId, req.roleCode⟩).mapErr AddUserToOrganisationError.toApp
  return 204

/-- The body of a removal. -/
structure RemoveUserFromOrganisationRequest where
  userId : Uuid
  orgId : Uuid
deriving DecidableEq

/-- The answer for an error of the removal. -/
def RemoveUserFromOrganisationError.toApp : RemoveUserFromOrganisationError → AppError
  | .notMember => .notFound "membership"
  | .lastOwner => .conflict "cannot remove the last owner"
  | .repo _ => .internal

/-- Remove a user from the organisation of the body, for callers that may. -/
def postRemoveUserFromOrganisation (ext : Extensions) (req : RemoveUserFromOrganisationRequest) :
    Action AppError ℕ := do
  let caller ← Prog.ofExcept (authedCaller ext)
  Prog.ofExcept (perm .tenantsMembersRemove ext)
  (removeUserFromOrganisation caller.claims.sub caller.claims.org
    ⟨req.userId, req.orgId⟩).mapErr RemoveUserFromOrganisationError.toApp
  return 204

end Egras
