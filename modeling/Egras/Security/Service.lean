import Egras.Auth.Jwt
import Egras.Tenants.Repository

/-!
# Use cases of user accounts and sessions

`register_user`, `login` and `switch_org`. A new user is created together with its first membership,
in the organisation that the request names; a session is opened for the organisation joined first
and can be switched to any organisation the user is a member of.
-/

namespace Egras
open Lib

/-! ## Register -/

/-- What a user is registered from. -/
structure RegisterUserInput where
  username : String
  email : String
  password : String
  targetOrgId : Uuid
  roleCode : String
deriving DecidableEq

/-- Why no user is registered. -/
inductive RegisterUserError
  | duplicateUsername
  | duplicateEmail
  | invalidUsername
  | invalidEmail
  | passwordTooShort
  | passwordTooLong
  | orgNotFound
  | unknownRoleCode
  | internal
deriving DecidableEq

/-- The errors of the repository as the service tells them. -/
def mapRegisterError : CreateAndAddError → RegisterUserError
  | .duplicateUsername _ => .duplicateUsername
  | .duplicateEmail _ => .duplicateEmail
  | .orgNotFound => .orgNotFound
  | .unknownRoleCode _ => .unknownRoleCode
  | .db _ => .internal

/-- A local part and a domain with a dot inside, in at most 254 bytes. -/
def isValidEmail (email : String) : Bool :=
  if email.utf8ByteSize > 254 then false
  else
    match splitN 2 '@' email.toList with
    | [localPart, domain] =>
      !localPart.isEmpty && !domain.isEmpty && domain.contains '.' &&
        domain.getLast? ≠ some '.' && domain.head? ≠ some '.'
    | _ => false

/-- Between 1 and 64 bytes. -/
def validUsername (username : String) : Bool :=
  !username.isEmpty && username.utf8ByteSize ≤ 64

section Register
variable [Argon2] [CaseMapping]

/-- Register a user in an organisation with valid texts, and record it. -/
def registerUser (actorUserId actorOrgId : Uuid) (input : RegisterUserInput) :
    Action RegisterUserError Uuid := do
  let username := trimWs input.username
  let email := CaseMapping.toLowercase (trimWs input.email)
  require (validUsername username) .invalidUsername
  require (isValidEmail email) .invalidEmail
  require (8 ≤ input.password.utf8ByteSize) .passwordTooShort
  require (input.password.utf8ByteSize ≤ 128) .passwordTooLong
  let hash ← (hashPassword input.password).mapErr (fun _ => RegisterUserError.internal)
  let user ← (createAndAddToOrg username email hash input.targetOrgId input.roleCode).mapErr
    mapRegisterError
  record (fun s => .userRegisteredSuccess s actorUserId actorOrgId user.id input.targetOrgId
    input.roleCode)
  return user.id

end Register

/-! ## Sessions -/

/-- Issue an access token. -/
def encodeAccessToken [JsonWebToken] (config : JwtConfig) (userId orgId : Uuid) :
    Action Anyhow String := do
  let now ← utcNow
  let jti ← nowV7
  match JsonWebToken.encodeToken config.secret (accessClaims config userId orgId jti now) with
  | some token => return token
  | none => .fail .mk

/-- Who logs in, and with which password. -/
structure LoginInput where
  usernameOrEmail : String
  password : String
deriving DecidableEq

/-- The session that a login opens. -/
structure LoginOutput where
  token : String
  userId : Uuid
  activeOrgId : Uuid
  memberships : List UserMembership
deriving DecidableEq

/-- Why a login fails. -/
inductive LoginError
  | invalidCredentials
  | noOrganisation
  | internal
deriving DecidableEq

section Login
variable [Argon2]

/-- Hash the password again when the stored hash was made under other parameters; failures are
ignored. -/
def opportunisticRehash (user : User) (password : String) : Action LoginError Unit :=
  if needsRehash user.passwordHash then do
    match ← (hashPassword password).attempt with
    | .ok newHash =>
      let _ ← (updatePasswordHash user.id newHash).attempt
      return ()
    | .error _ => return ()
  else .ret ()

/-- Find the user with a name or an email and check its password. -/
def authenticate (input : LoginInput) : Action LoginError User := do
  match ← (findByUsernameOrEmail input.usernameOrEmail).mapErr (fun _ => LoginError.internal) with
  | none =>
    record (fun s => .loginFailed s "not_found" input.usernameOrEmail)
    .fail .invalidCredentials
  | some user =>
    let ok ← (Prog.ofExcept (verifyPassword input.password user.passwordHash)).mapErr
      (fun _ => LoginError.internal)
    if ok then return user
    else
      record (fun s => .loginFailed s "bad_password" input.usernameOrEmail)
      .fail .invalidCredentials

variable [JsonWebToken]

/-- Check the password, hash it anew if need be, and open a session in the first membership. -/
def login (config : JwtConfig) (input : LoginInput) : Action LoginError LoginOutput := do
  let user ← authenticate input
  opportunisticRehash user input.password
  let memberships ← (listMemberships user.id).mapErr (fun _ => LoginError.internal)
  match memberships with
  | [] => .fail .noOrganisation
  | first :: _ =>
    let token ← (encodeAccessToken config user.id first.orgId).mapErr
      (fun _ => LoginError.internal)
    record (fun s => .loginSuccess s user.id first.orgId)
    return ⟨token, user.id, first.orgId, memberships⟩

end Login

/-- Why a session does not move. -/
inductive SwitchOrgError
  | notMember
  | internal
deriving DecidableEq

/-- Open a session in another organisation of the user, and record it. -/
def switchOrg [JsonWebToken] (config : JwtConfig) (userId currentOrgId targetOrgId : Uuid) :
    Action SwitchOrgError String := do
  let member ← (isMember userId targetOrgId).mapErr (fun _ => SwitchOrgError.internal)
  require member .notMember
  let token ← (encodeAccessToken config userId targetOrgId).mapErr
    (fun _ => SwitchOrgError.internal)
  record (fun s => .sessionSwitchedOrg s userId currentOrgId targetOrgId)
  return token

end Egras
