import Egras.Auth.Extractors
import Egras.Auth.Jwt
import Egras.Features.Evaluate
import Egras.Security.Repository

/-!
# Authentication

`AuthService::call`: where a request carries its credential, what is checked of it, and what is put
in the extensions before the inner service is invoked. A run of `call` that returns is a request
that reaches the inner service, with the extensions it returns; a run that fails is a rejection.

Rust → Lean naming: `AuthService::call` → `call`, `handle_api_key` → `handleApiKey`,
`PgApiKeyVerifier::verify` → `verifyKey`, `HeaderSource::slug` → `HeaderSource.slug`.
-/

namespace Egras
open Lib

/-- Which header carried an API key. -/
inductive HeaderSource
  | xApiKey
  | authorizationBearer
deriving DecidableEq

/-- The name of a header in the `auth.api_key_headers` allowlist. -/
def HeaderSource.slug : HeaderSource → String
  | .xApiKey => "x-api-key"
  | .authorizationBearer => "authorization-bearer"

/-- How a request is turned away: a problem response, or the bare `internal error`. -/
inductive Rejection
  | app (e : AppError)
  | internalError
deriving DecidableEq

/-- The status that a rejection is answered with. -/
def Rejection.status : Rejection → ℕ
  | .app e => e.httpStatus
  | .internalError => 500

/-- A rejection with a reason. -/
def Rejection.unauthenticated (reason : String) : Rejection := .app (.unauthenticated reason)

/-- What the verifier tells about a key. -/
structure VerifiedKey where
  keyId : Uuid
  saUserId : Uuid
  organisationId : Uuid
  scopes : Option (List String)
deriving DecidableEq

/-- The headers of a request, by lowercase name, in order. -/
abbrev Headers := List (String × List UInt8)

namespace Headers

/-- The first value of a header that is text. -/
def text (headers : Headers) (name : String) : Option String :=
  ((headers.find? (fun h => h.1 = name)).map Prod.snd).bind headerToStr

/-- The credential of a request and the header it came in. `x-api-key` takes precedence. -/
def credential (headers : Headers) : Option (String × HeaderSource) :=
  match headers.text "x-api-key" with
  | some token => some (token, .xApiKey)
  | none =>
    ((headers.text "authorization").bind (stripPrefix "Bearer ")).map
      (fun token => (token, .authorizationBearer))

end Headers

section Verify
variable [Argon2]

/-- Look a key up by its prefix and check its secret. -/
def verifyKey (keyPrefix secret : String) : Action Rejection (Option VerifiedKey) := do
  match ← (findActiveByPrefix keyPrefix).mapErr (fun _ => .internalError) with
  | none => return none
  | some row =>
    let matches_ ← (Prog.ofExcept (verifyPassword secret row.secretHash)).mapErr
      (fun _ => Rejection.internalError)
    if matches_ then
      return some ⟨row.key.id, row.key.serviceAccountUserId, row.organisationId, row.key.scopes⟩
    else return none

/-- Claims for a request that used an API key. -/
def synthClaims (issuer : String) (verified : VerifiedKey) (now : Timestamp) : Claims where
  sub := verified.saUserId
  org := verified.organisationId
  iat := timestampSecs now
  exp := timestampSecs now + 365 * 24 * 3600
  jti := verified.keyId ^^^ 0xA1A1A1A1
  iss := issuer
  typ := "access"

/-- The header names that the value of `auth.api_key_headers` allows. -/
def allowedHeaders (value : Value) : Except Rejection (List String) :=
  match value.asArray? with
  | some elems => .ok (elems.filterMap Value.asStr?)
  | none => .error .internalError

/-- The permissions of a key: those of its service account, within the scopes of the key. -/
def VerifiedKey.restrict (verified : VerifiedKey) (perms : PermissionSet) : PermissionSet :=
  match verified.scopes with
  | some scopes => perms.intersect scopes
  | none => perms

/-- Authenticate a request that presents an API key. -/
def handleApiKey (issuer keyPrefix secret : String) (source : HeaderSource) :
    Action Rejection Extensions := do
  match ← verifyKey keyPrefix secret with
  | none => .fail (.unauthenticated "invalid_api_key")
  | some verified =>
    let value ← (evaluate verified.organisationId "auth.api_key_headers").mapErr
      (fun _ => Rejection.internalError)
    let allowed ← Prog.ofExcept (allowedHeaders value)
    require (source.slug ∈ allowed)
      (.unauthenticated ("api_key_header_not_allowed:" ++ source.slug))
    let codes ← (loadPermissions verified.saUserId verified.organisationId).mapErr
      (fun _ => Rejection.internalError)
    spawn ⟨verified.keyId, verified.saUserId⟩
    let now ← utcNow
    return {
      claims := some (synthClaims issuer verified now)
      permissions := some (verified.restrict (.fromCodes codes))
      caller := some (.apiKey verified.keyId verified.saUserId verified.organisationId) }

variable [JsonWebToken]

/-- Authenticate a request that presents an access token. -/
def handleJwt (config : JwtConfig) (token : String) : Action Rejection Extensions := do
  let now ← utcNow
  match decodeAccessToken config.secret config.issuer token now with
  | none => .fail (.unauthenticated "invalid_token")
  | some claims =>
    let revoked ← (isRevoked claims.jti).mapErr (fun _ => Rejection.internalError)
    require (!revoked) (.unauthenticated "token_revoked")
    let codes ← (loadPermissions claims.sub claims.org).mapErr (fun _ => Rejection.internalError)
    return {
      claims := some claims
      permissions := some (.fromCodes codes)
      caller := some (.user claims.sub claims.org claims.jti) }

/-- Authenticate a request. -/
def call (config : JwtConfig) (headers : Headers) : Action Rejection Extensions :=
  match headers.credential with
  | none => .fail (.unauthenticated "missing_credentials")
  | some (token, .xApiKey) =>
    match ParsedKey.parse token with
    | none => .fail (.unauthenticated "invalid_api_key")
    | some parsed => handleApiKey config.issuer parsed.keyPrefix parsed.secret .xApiKey
  | some (token, .authorizationBearer) =>
    match ParsedKey.parse token with
    | some parsed => handleApiKey config.issuer parsed.keyPrefix parsed.secret .authorizationBearer
    | none => handleJwt config token

end Verify
end Egras
