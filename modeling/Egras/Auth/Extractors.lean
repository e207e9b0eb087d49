import Egras.Auth.Permissions
import Egras.Base.Platform

/-!
# Extractors

What `AuthService` puts in the extensions of a request and what handlers take out of it. A
permission marker is its code with the test on permission sets that it accepts; all but three of
them accept the code itself or the operator's `tenants.manage_all`.

Rust → Lean naming: `AuthedCaller` → `authedCaller`, `RequireHumanCaller` → `requireHumanCaller`,
`Perm<P>` → `perm`, `Permission::CODE` → `Permission.code`; the markers keep their names.
-/

namespace Egras
open Lib

/-- The kind of credential that authenticated a request. -/
inductive Caller
  | user (userId orgId jti : Uuid)
  | apiKey (keyId saUserId orgId : Uuid)
deriving DecidableEq

/-- The extensions of a request that the handlers read. -/
structure Extensions where
  claims : Option Claims
  permissions : Option PermissionSet
  caller : Option Caller
deriving DecidableEq

/-- Claims and permissions of the caller. -/
structure AuthedCaller where
  claims : Claims
  permissions : PermissionSet
deriving DecidableEq

/-- The extensions of a request of a caller that used a credential of some kind. -/
def AuthedCaller.extensions (c : AuthedCaller) (kind : Caller) : Extensions where
  claims := some c.claims
  permissions := some c.permissions
  caller := some kind

/-- Extract claims and permissions. -/
def authedCaller (ext : Extensions) : Except AppError AuthedCaller :=
  match ext.claims, ext.permissions with
  | none, _ => .error (.unauthenticated "no_claims")
  | some _, none => .error (.unauthenticated "no_permission_set")
  | some claims, some permissions => .ok ⟨claims, permissions⟩

/-- Refuse callers that use an API key. -/
def requireHumanCaller (ext : Extensions) : Except AppError Unit :=
  match ext.caller with
  | none => .error (.unauthenticated "no_caller")
  | some (.user _ _ _) => .ok ()
  | some (.apiKey _ _ _) => .error .requiresUserCredentials

/-- A permission marker. -/
structure Permission where
  code : String
  accepts : PermissionSet → Bool

namespace Permission

/-- Only the code itself. -/
def direct (code : String) : Permission := ⟨code, fun s => s.has code⟩

/-- The code itself or `tenants.manage_all`. -/
def orOperator (code : String) : Permission := ⟨code, fun s => s.has code || s.isOperatorOverTenants⟩

/-- To create organisations. -/
def tenantsCreate : Permission := direct "tenants.create"
/-- To list members. -/
def tenantsMembersList : Permission := orOperator "tenants.members.list"
/-- To assign roles. -/
def tenantsRolesAssign : Permission := orOperator "tenants.roles.assign"
/-- To add members. -/
def tenantsMembersAdd : Permission := orOperator "tenants.members.add"
/-- To remove members. -/
def tenantsMembersRemove : Permission := orOperator "tenants.members.remove"
/-- To manage channels. -/
def channelsManage : Permission := orOperator "channels.manage"
/-- To manage service accounts. -/
def serviceAccountsManage : Permission := orOperator "service_accounts.manage"
/-- To manage every tenant. -/
def tenantsManageAll : Permission := direct "tenants.manage_all"
/-- To read flags. -/
def featuresRead : Permission := orOperator "features.read"
/-- To manage flags. -/
def featuresManage : Permission := orOperator "features.manage"
/-- To invoke the echo. -/
def echoInvoke : Permission := direct "echo:invoke"

/-- Listing users needs the members permission or the operator over users. -/
def usersRead : Permission :=
  ⟨"tenants.members.list", fun s => s.has "tenants.members.list" || s.isOperatorOverUsers⟩

/-- Who may manage service accounts may read them. -/
def serviceAccountsRead : Permission :=
  ⟨"service_accounts.read", fun s =>
    s.has "service_accounts.read" || s.has "service_accounts.manage" || s.isOperatorOverTenants⟩

end Permission

/-- Enforce a permission on the caller. -/
def perm (p : Permission) (ext : Extensions) : Except AppError Unit :=
  match ext.permissions with
  | none => .error (.unauthenticated "no_permission_set")
  | some set => if p.accepts set then .ok () else .error (.permissionDenied p.code)

/-- Only operators may name another organisation than their own; for the others it does not
exist. -/
def requireOwnOrganisation (caller : AuthedCaller) (orgId : Uuid) : Except AppError Unit :=
  if !caller.permissions.isOperatorOverTenants && caller.claims.org ≠ orgId then
    .error (.notFound "organisation")
  else .ok ()

section Gates
variable {α : Type} {c : AuthedCaller} {kind : Caller} {p : Permission} {w : World}

/-- Claims and permissions are there for every caller. -/
lemma run_authedCaller_bind {k : AuthedCaller → Action AppError α} :
    (Prog.ofExcept (authedCaller (c.extensions kind)) >>= k).run w = (k c).run w := rfl

/-- Whether a credential is one of a human user. -/
def Caller.isHuman : Caller → Bool
  | .user _ _ _ => true
  | .apiKey _ _ _ => false

/-- A handler behind a permission runs for the callers that the permission accepts. -/
lemma run_perm_bind {k : Unit → Action AppError α} :
    (Prog.ofExcept (perm p (c.extensions kind)) >>= k).run w =
      if p.accepts c.permissions then (k ()).run w else (.error (.permissionDenied p.code), w) := by
  show (Prog.ofExcept (if p.accepts c.permissions then _ else _) >>= k).run w = _
  split <;> rfl

/-- A handler for humans runs for the callers that used no API key. -/
lemma run_requireHumanCaller_bind {k : Unit → Action AppError α} :
    (Prog.ofExcept (requireHumanCaller (c.extensions kind)) >>= k).run w =
      if kind.isHuman then (k ()).run w else (.error .requiresUserCredentials, w) := by
  cases kind <;> rfl

/-- Whether a request for an organisation comes from there or from an operator. -/
def AuthedCaller.mayName (c : AuthedCaller) (orgId : Uuid) : Bool :=
  c.permissions.isOperatorOverTenants || c.claims.org = orgId

/-- A handler for the organisation of the path runs for the callers that may name it. -/
lemma run_requireOwnOrganisation_bind {orgId : Uuid} {k : Unit → Action AppError α} :
    (Prog.ofExcept (requireOwnOrganisation c orgId) >>= k).run w =
      if c.mayName orgId then (k ()).run w else (.error (.notFound "organisation"), w) := by
  unfold requireOwnOrganisation AuthedCaller.mayName
  cases c.permissions.isOperatorOverTenants with
  | true => rfl
  | false =>
    by_cases h : c.claims.org = orgId
    · simp [h]
      rfl
    · simp [h]
      rfl

end Gates

end Egras
