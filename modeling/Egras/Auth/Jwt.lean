import Egras.Base.Platform

/-!
# Access tokens

Issuing and checking of access tokens. The signature and the form of a token are `jsonwebtoken`'s
(`JsonWebToken`); what the service configures is written out: the issuer, the expiry with no leeway
at whole seconds, and `typ`.

Rust → Lean naming: `encode_access_token` → `accessClaims` and `encodeToken`,
`decode_access_token` → `decodeAccessToken`.
-/

namespace Egras

/-- Secret, issuer and lifetime of access tokens. -/
structure JwtConfig where
  secret : String
  issuer : String
  ttlSecs : Int
deriving DecidableEq

/-- Whole seconds since the epoch (`timestamp()`). -/
def timestampSecs (t : Timestamp) : Int := t / 1000000

/-- A whole second lasts until the next one. -/
lemma timestampSecs_le_iff {t secs : Int} : timestampSecs t ≤ secs ↔ t < (secs + 1) * 1000000 := by
  show t / 1000000 ≤ secs ↔ _
  omega

/-- The claims that `encode_access_token` signs. -/
def accessClaims (config : JwtConfig) (userId orgId jti : Uuid) (now : Timestamp) : Claims where
  sub := userId
  org := orgId
  iat := timestampSecs now
  exp := timestampSecs now + config.ttlSecs
  jti := jti
  iss := config.issuer
  typ := "access"

variable [JsonWebToken]

/-- The claims of an access token that is accepted at an instant. -/
def decodeAccessToken (secret expectedIssuer token : String) (now : Timestamp) : Option Claims := do
  let claims ← JsonWebToken.decodeToken secret token
  if claims.iss = expectedIssuer ∧ timestampSecs now ≤ claims.exp ∧ claims.typ = "access" then
    some claims
  else none

end Egras
