import Egras.Db.World
import Egras.Errors
import Mathlib.Data.Finset.Filter
import Mathlib.Data.Finset.Dedup

/-!
# Permission sets

The set of permission codes a request carries (`PermissionSet`), the permissions that the roles of a
user in an organisation grant (`granted`), and the loader that reads them. `Holds` says without
joins when a user holds a permission in an organisation; `mem_granted` is that the loaded set holds
exactly these.

Rust → Lean naming: `from_codes` → `fromCodes`, `has`, `is_operator_over_tenants` →
`isOperatorOverTenants`, `PgPermissionLoader::load` → `loadPermissions`.
-/

namespace Egras
open Lib

/-- The permission codes of a request. -/
structure PermissionSet where
  codes : Finset String
deriving DecidableEq

namespace PermissionSet

/-- The set of some codes. -/
def fromCodes (codes : List String) : PermissionSet := ⟨codes.toFinset⟩

/-- The code is in the set. -/
def has (s : PermissionSet) (code : String) : Bool := code ∈ s.codes

/-- Whether the set is that of an operator over tenants. -/
def isOperatorOverTenants (s : PermissionSet) : Bool := s.has "tenants.manage_all"

/-- Whether the set is that of an operator over users. -/
def isOperatorOverUsers (s : PermissionSet) : Bool := s.has "users.manage_all"

/-- Restrict to the allowed codes. -/
def intersect (s : PermissionSet) (allowed : List String) : PermissionSet :=
  ⟨s.codes.filter (· ∈ allowed)⟩

/-- Having a code is being in the set. -/
@[simp] lemma has_iff {s : PermissionSet} {code} : s.has code = true ↔ code ∈ s.codes := by
  simp [has]

/-- The set has the codes that it is made from. -/
@[simp] lemma mem_fromCodes {codes code} : code ∈ (fromCodes codes).codes ↔ code ∈ codes :=
  List.mem_toFinset

/-- The intersection has the codes of both. -/
@[simp] lemma mem_intersect {s : PermissionSet} {allowed code} :
    code ∈ (s.intersect allowed).codes ↔ code ∈ s.codes ∧ code ∈ allowed := Finset.mem_filter

end PermissionSet

namespace Tables

/-- The role rows of a user in an organisation. -/
def rolesOf (t : Tables) (userId organisationId : Uuid) : List UserOrganisationRole :=
  t.userOrganisationRoles.select
    (fun r => r.userId = userId && r.organisationId = organisationId)

/-- The permission codes a role grants, by the join of `role_permissions` and `permissions`. -/
def codesOfRole (t : Tables) (roleId : Uuid) : List String :=
  (t.rolePermissions.select (fun rp => rp.roleId = roleId)).flatMap (fun rp =>
    (t.permissions.select (fun p => p.id = rp.permissionId)).map PermissionRow.code)

/-- The permission codes that the roles of a user in an organisation grant. -/
def grantedCodes (t : Tables) (userId organisationId : Uuid) : List String :=
  ((t.rolesOf userId organisationId).flatMap (fun r => t.codesOfRole r.roleId)).dedup

/-- The permissions of a user in an organisation. -/
def granted (t : Tables) (userId organisationId : Uuid) : PermissionSet :=
  .fromCodes (t.grantedCodes userId organisationId)

/-- Whether a role grants a permission. -/
def RoleGrants (t : Tables) (roleId : Uuid) (code : String) : Prop :=
  ∃ rp ∈ t.rolePermissions, ∃ p ∈ t.permissions,
    rp.roleId = roleId ∧ p.id = rp.permissionId ∧ p.code = code

/-- Whether a user holds a permission in an organisation, through one of its roles there. -/
def Holds (t : Tables) (userId organisationId : Uuid) (code : String) : Prop :=
  ∃ row ∈ t.userOrganisationRoles,
    row.userId = userId ∧ row.organisationId = organisationId ∧ t.RoleGrants row.roleId code

variable {t : Tables} {u o r : Uuid} {code : String}

/-- The roles of a user in an organisation are its rows there. -/
lemma mem_rolesOf {row} :
    row ∈ t.rolesOf u o ↔
      row ∈ t.userOrganisationRoles ∧ row.userId = u ∧ row.organisationId = o := by
  simp [rolesOf]

/-- The codes of a role are those that it grants. -/
lemma mem_codesOfRole : code ∈ t.codesOfRole r ↔ t.RoleGrants r code := by
  simp only [codesOfRole, RoleGrants, List.mem_flatMap, List.mem_map, Table.mem_select,
    decide_eq_true_eq]
  constructor
  · rintro ⟨rp, ⟨hrp, hr⟩, p, ⟨hp, hid⟩, hc⟩
    exact ⟨rp, hrp, p, hp, hr, hid, hc⟩
  · rintro ⟨rp, hrp, p, hp, hr, hid, hc⟩
    exact ⟨rp, ⟨hrp, hr⟩, p, ⟨hp, hid⟩, hc⟩

/-- The permissions loaded for a user in an organisation are those it holds there. -/
lemma mem_granted : code ∈ (t.granted u o).codes ↔ t.Holds u o code := by
  simp only [granted, PermissionSet.mem_fromCodes, grantedCodes, List.mem_dedup, List.mem_flatMap,
    mem_rolesOf, mem_codesOfRole, Holds]
  constructor
  · rintro ⟨row, ⟨hrow, hu, ho⟩, hg⟩
    exact ⟨row, hrow, hu, ho, hg⟩
  · rintro ⟨row, hrow, hu, ho, hg⟩
    exact ⟨row, ⟨hrow, hu, ho⟩, hg⟩

end Tables

/-- Load the permission codes of a user in an organisation (`SELECT DISTINCT p.code ...`). -/
def loadPermissions (userId organisationId : Uuid) : Action SqlError (List String) :=
  query (fun w => w.tables.grantedCodes userId organisationId)

end Egras
