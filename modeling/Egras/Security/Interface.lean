import Egras.Auth.Extractors
import Egras.Security.Service

/-!
# Handlers of user accounts and sessions

`post_register`, `post_login` and `post_switch_org` of the security routers, from the extensions of
an authenticated request (`post_login` needs none) and its parsed body to the status and body of the
answer.
-/

namespace Egras
open Lib

/-- The body of a registration. -/
structure RegisterRequest where
  username : String
  email : String
  password : String
  orgId : Uuid
  roleCode : String
deriving DecidableEq

/-- The answer for an error of the registration. -/
def RegisterUserError.toApp : RegisterUserError → AppError
  | .duplicateUsername => .conflict "username already taken"
  | .duplicateEmail => .conflict "email already registered"
  | .invalidUsername => .fieldError "username" "invalid"
  | .invalidEmail => .fieldError "email" "invalid"
  | .passwordTooShort => .fieldError "password" "too_short"
  | .passwordTooLong => .fieldError "password" "too_long"
  | .orgNotFound => .notFound "organisation"
  | .unknownRoleCode => .fieldError "role_code" "unknown_role_code"
  | .internal => .internal

/-- Register a user, for humans that may add members. -/
def postRegister [Argon2] [CaseMapping] (ext : Extensions) (req : RegisterRequest) :
    Action AppError (ℕ × Uuid) := do
  Prog.ofExcept (requireHumanCaller ext)
  let caller ← Prog.ofExcept (authedCaller ext)
  Prog.ofExcept (perm .tenantsMembersAdd ext)
  let userId ← (registerUser caller.claims.sub caller.claims.org
    ⟨req.username, req.email, req.password, req.orgId, req.roleCode⟩).mapErr
    RegisterUserError.toApp
  return (201, userId)

/-- The answer for an error of the login. -/
def LoginError.toApp : LoginError → AppError
  | .invalidCredentials => .invalidCredentials
  | .noOrganisation => .userNoOrganisation
  | .internal => .internal

/-- Log in. -/
def postLogin [Argon2] [JsonWebToken] (config : JwtConfig) (req : LoginInput) :
    Action AppError LoginOutput :=
  (login config req).mapErr LoginError.toApp

/-- The answer for an error of the move. -/
def SwitchOrgError.toApp : SwitchOrgError → AppError
  | .notMember => .permissionDenied "not_member"
  | .internal => .internal

/-- Move the session of a human to another organisation. -/
def postSwitchOrg [JsonWebToken] (config : JwtConfig) (ext : Extensions) (orgId : Uuid) :
    Action AppError String := do
  Prog.ofExcept (requireHumanCaller ext)
  let caller ← Prog.ofExcept (authedCaller ext)
  (switchOrg config caller.claims.sub caller.claims.org orgId).mapErr SwitchOrgError.toApp

end Egras
