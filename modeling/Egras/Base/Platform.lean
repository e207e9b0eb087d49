import Egras.Base.Text
import Egras.Base.Time

/-!
# Code outside the repository

What the service takes from its dependencies, one class a dependency: password hashing, token
signing, base64, SHA-256, the case mappings of Rust and of the database, and the cursor codec of
`serde_json` and base64. Nothing is assumed of them here.
-/

namespace Egras

/-- Access-token claims (Rust `Claims`). -/
structure Claims where
  sub : Uuid
  org : Uuid
  iat : Int
  exp : Int
  jti : Uuid
  iss : String
  typ : String
deriving DecidableEq

/-- The `argon2` crate. -/
class Argon2 where
  /-- The PHC string of a password under a salt. -/
  hashPassword : (password : String) → (salt : List UInt8) → Option String
  /-- Whether a password matches a PHC string; `none` when the string does not parse. -/
  verifyPassword : (password hash : String) → Option Bool

/-- The `jsonwebtoken` crate under HS256. -/
class JsonWebToken where
  encodeToken : (secret : String) → Claims → Option String
  /-- The claims of a token whose signature verifies and whose payload deserialises. -/
  decodeToken : (secret token : String) → Option Claims

/-- The `base64` crate's `URL_SAFE_NO_PAD`. -/
class Base64 where
  urlSafeEncode : List UInt8 → String
  urlSafeDecode : String → Option (List UInt8)

/-- The `sha2` crate. -/
class Sha256 where
  digest : List UInt8 → List UInt8

/-- `str::to_lowercase`, and `lower` under the collation of the database. -/
class CaseMapping where
  toLowercase : String → String
  lower : String → String

/-- A page position: the instant and the identifier of a row. -/
structure Cursor where
  createdAt : Timestamp
  id : Uuid
deriving DecidableEq

/-- The text forms of cursors: base64 of JSON, whose second field is called `id` in a channel
cursor and `user_id` in a user cursor, and the two halves of a service-account cursor. -/
class CursorText where
  encodeIdCursor : Cursor → String
  decodeIdCursor : String → Option Cursor
  encodeUserCursor : Cursor → String
  decodeUserCursor : String → Option Cursor
  toRfc3339 : Timestamp → String
  parseFromRfc3339 : String → Option Timestamp
  parseUuid : String → Option Uuid

/-- Decode a cursor, if there is one. -/
def decodeCursor {ε} (decode : String → Option Cursor) (raw : Option String) (invalid : ε) :
    Except ε (Option Cursor) :=
  match raw with
  | none => .ok none
  | some s =>
    match decode s with
    | some cursor => .ok (some cursor)
    | none => .error invalid

/-- All of them. -/
class Platform extends Argon2, JsonWebToken, Base64, CaseMapping, CursorText

/-- A platform for concrete runs that neither hash nor sign nor page: it maps ASCII letters and
refuses everything else. -/
@[reducible] def asciiPlatform : Platform where
  hashPassword _ _ := none
  verifyPassword _ _ := none
  encodeToken _ _ := none
  decodeToken _ _ := none
  urlSafeEncode _ := ""
  urlSafeDecode _ := none
  toLowercase := String.toLower
  lower := String.toLower
  encodeIdCursor _ := ""
  decodeIdCursor _ := none
  encodeUserCursor _ := ""
  decodeUserCursor _ := none
  toRfc3339 _ := ""
  parseFromRfc3339 _ := none
  parseUuid _ := none

/-- What follows the parameters of a hash has to be the password itself. -/
def verifyPlain (password hash : String) : Option Bool :=
  match splitN 2 '$' hash.toList with
  | [_, hashed] => some (hashed = password.toList)
  | _ => none

/-- The same platform with a hashing that leaves the password legible behind its parameters. -/
@[reducible] def plainPlatform : Platform where
  __ := asciiPlatform
  hashPassword password _ := some ("m=19456,t=2,p=1$" ++ password)
  verifyPassword := verifyPlain

end Egras
