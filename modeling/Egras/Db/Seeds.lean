import Egras.Auth.Extractors

/-!
# Seeded rows

The rows that the migrations insert: the operator organisation, the built-in roles, the permissions,
what each role grants, and the first feature flag. `Seeded` says that roles, permissions and grants
are those of the migrations, as no request writes these tables; `seededTables` is the database right
after the migrations.

The seeds name rows by their identifier (`0x…101` for `operator_admin`); a grant names a role and a
permission by their codes and joins them.
-/

namespace Egras
open Lib

/-- The roles of migration 0005. -/
def seededRoles : List Role :=
  [⟨0x101, "operator_admin"⟩, ⟨0x102, "org_owner"⟩, ⟨0x103, "org_admin"⟩, ⟨0x104, "org_member"⟩]

/-- The permissions of migrations 0005, 0008, 0011, 0012 and 0013. -/
def seededPermissions : List PermissionRow :=
  [⟨0x201, "tenants.manage_all"⟩, ⟨0x202, "users.manage_all"⟩, ⟨0x203, "tenants.create"⟩,
    ⟨0x204, "tenants.update"⟩, ⟨0x205, "tenants.read"⟩, ⟨0x206, "tenants.members.add"⟩,
    ⟨0x207, "tenants.members.remove"⟩, ⟨0x208, "tenants.members.list"⟩,
    ⟨0x209, "tenants.roles.assign"⟩, ⟨0x20a, "audit.read_all"⟩, ⟨0x20b, "audit.read_own_org"⟩,
    ⟨0x20c, "channels.manage"⟩,
    ⟨0x301, "service_accounts.read"⟩, ⟨0x302, "service_accounts.manage"⟩,
    ⟨0x401, "features.read"⟩, ⟨0x402, "features.manage"⟩,
    ⟨0x501, "echo:invoke"⟩]

/-- `INSERT INTO role_permissions SELECT r.id, p.id FROM roles r, permissions p WHERE r.code IN ...
AND p.code IN ...`. -/
def grant (roleCodes permissionCodes : List String) : List RolePermission :=
  (seededRoles.filter (·.code ∈ roleCodes)).flatMap (fun r =>
    (seededPermissions.filter (·.code ∈ permissionCodes)).map (fun p => ⟨r.id, p.id⟩))

/-- The grants of the migrations, a line for each statement. -/
def seededRolePermissions : List RolePermission :=
  grant ["operator_admin"]
    ["tenants.manage_all", "users.manage_all", "tenants.create", "tenants.update", "tenants.read",
      "tenants.members.add", "tenants.members.remove", "tenants.members.list",
      "tenants.roles.assign", "audit.read_all", "audit.read_own_org"] ++
  grant ["org_owner"]
    ["tenants.create", "tenants.update", "tenants.read", "tenants.members.add",
      "tenants.members.remove", "tenants.members.list", "tenants.roles.assign",
      "audit.read_own_org"] ++
  grant ["org_admin"]
    ["tenants.read", "tenants.members.add", "tenants.members.remove", "tenants.members.list",
      "tenants.roles.assign", "audit.read_own_org"] ++
  grant ["org_member"] ["tenants.read", "tenants.members.list"] ++
  grant ["operator_admin", "org_owner", "org_admin"] ["channels.manage"] ++
  grant ["org_owner", "org_admin"] ["service_accounts.read", "service_accounts.manage"] ++
  grant ["org_owner", "org_admin"] ["features.read"] ++
  grant ["org_owner", "org_admin"] ["features.manage"] ++
  grant ["org_owner", "org_admin"] ["echo:invoke"]

/-- The flag of migration 0012. -/
def seededFeatureDefinition : FeatureDefinition where
  slug := "auth.api_key_headers"
  valueType := .enumSet
  defaultValue := .array [.string "x-api-key", .string "authorization-bearer"]
  description :=
    "Which headers carry API keys for this org. Subset of [x-api-key, authorization-bearer]."
  selfService := false

/-- The operator organisation of migration 0005. -/
def operatorOrganisation (now : Timestamp) : Organisation :=
  ⟨1, "operator", "Platform Operator", true, now, now⟩

namespace Tables

/-- The database right after the migrations. -/
def seededTables (now : Timestamp) : Tables where
  organisations := ⟨[operatorOrganisation now], List.nodup_singleton _⟩
  users := .empty
  passwordResetTokens := .empty
  revokedTokens := .empty
  roles := ⟨seededRoles, by decide⟩
  permissions := ⟨seededPermissions, by decide⟩
  rolePermissions := ⟨seededRolePermissions, by decide +kernel⟩
  userOrganisationRoles := .empty
  inboundChannels := .empty
  serviceAccounts := .empty
  apiKeys := .empty
  featureDefinitions := ⟨[seededFeatureDefinition], List.nodup_singleton _⟩
  organisationFeatures := .empty
  auditEvents := .empty

/-- Roles, permissions and grants are those of the migrations. -/
structure Seeded (t : Tables) : Prop where
  roles : ∀ r, r ∈ t.roles ↔ r ∈ seededRoles
  permissions : ∀ p, p ∈ t.permissions ↔ p ∈ seededPermissions
  rolePermissions : ∀ rp, rp ∈ t.rolePermissions ↔ rp ∈ seededRolePermissions

/-- Only one role operates on all tenants. -/
lemma Seeded.manage_all_iff {t : Tables} (h : t.Seeded) {roleId : Uuid} :
    t.RoleGrants roleId "tenants.manage_all" ↔ roleId = 0x101 := by
  constructor
  · rintro ⟨rp, hrp, p, hp, rfl, hid, hcode⟩
    have hall : ∀ rp ∈ seededRolePermissions, ∀ p ∈ seededPermissions, p.id = rp.permissionId →
        p.code = "tenants.manage_all" → rp.roleId = 0x101 := by decide +kernel
    exact hall rp ((h.rolePermissions rp).mp hrp) p ((h.permissions p).mp hp) hid hcode
  · rintro rfl
    refine ⟨⟨0x101, 0x201⟩, (h.rolePermissions _).mpr (by decide +kernel), ⟨0x201, _⟩,
      (h.permissions _).mpr (by decide), rfl, rfl, rfl⟩

/-- The role that operates on all tenants is `operator_admin`. -/
lemma Seeded.operator_admin {t : Tables} (h : t.Seeded) {role : Role} (hr : role ∈ t.roles) :
    role.code = "operator_admin" ↔ role.id = 0x101 := by
  have hall : ∀ role ∈ seededRoles, role.code = "operator_admin" ↔ role.id = 0x101 := by decide
  exact hall role ((h.roles role).mp hr)

/-- Two tenants with an owner each, next to the operator organisation. -/
def twoTenants : Tables where
  organisations := ⟨[operatorOrganisation 0, ⟨0xa, "acme", "Retail", false, 0, 0⟩,
    ⟨0xb, "bolt", "Energy", false, 0, 0⟩], by decide⟩
  users := ⟨[⟨0x11, "alice", "alice@acme.example", "", .human, 0, 0⟩,
    ⟨0x12, "bob", "bob@bolt.example", "", .human, 0, 0⟩], by decide⟩
  passwordResetTokens := .empty
  revokedTokens := .empty
  roles := (seededTables 0).roles
  permissions := (seededTables 0).permissions
  rolePermissions := (seededTables 0).rolePermissions
  userOrganisationRoles := ⟨[⟨0x11, 0xa, 0x102, 0⟩, ⟨0x12, 0xb, 0x102, 0⟩], by decide⟩
  inboundChannels := .empty
  serviceAccounts := .empty
  apiKeys := .empty
  featureDefinitions := (seededTables 0).featureDefinitions
  organisationFeatures := .empty
  auditEvents := .empty

/-- The two tenants have the catalogue of the migrations. -/
lemma seeded_twoTenants : twoTenants.Seeded :=
  ⟨fun _ => Iff.rfl, fun _ => Iff.rfl, fun _ => Iff.rfl⟩

end Tables

/-- The world over some tables at an instant, with every statement answered. -/
def World.calm (t : Tables) (now : Timestamp) : World where
  tables := t
  cache := .empty
  audit := ⟨[], 1024, false⟩
  spawned := []
  now := now
  faults := []
  uuids := [0x21, 0x22, 0x23, 0x24]
  random := []

/-- A calm world has the tables that it is given. -/
@[simp] lemma World.calm_tables {t : Tables} {now : Timestamp} : (calm t now).tables = t := rfl

/-- The caller whose token names a user and an organisation, with the permissions loaded. -/
def AuthedCaller.loaded (t : Tables) (userId orgId : Uuid) : AuthedCaller where
  claims := ⟨userId, orgId, 0, 3600, 0x31, "egras", "access"⟩
  permissions := t.granted userId orgId

/-- The owner of a tenant is no operator. -/
lemma owner_ordinary :
    (AuthedCaller.loaded .twoTenants 0x11 0xa).permissions.isOperatorOverTenants = false := by
  decide +kernel

end Egras
