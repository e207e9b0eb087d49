import Egras.Base.Platform
import Egras.Db.World

/-!
# Passwords and API-key secrets

Hashing and checking of passwords and of the secrets of API keys, and the wire format
`egras_<env>_<prefix>_<secret>` of a key.

Rust → Lean naming: `password_hash::hash_password` → `hashPassword`, `needs_rehash` →
`needsRehash`, `api_key_secret::parse` → `ParsedKey.parse`, `api_key_secret::generate` →
`generateKey`.
-/

namespace Egras
open Lib

/-- An error whose cause is only logged (Rust `anyhow::Error`). -/
inductive Anyhow
  | mk
deriving DecidableEq

/-- The parts of an API key in its wire format. -/
structure ParsedKey where
  env : String
  keyPrefix : String
  secret : String
deriving DecidableEq

/-- Parse `egras_<env>_<prefix>_<secret>`. -/
def ParsedKey.parse (s : String) : Option ParsedKey :=
  match stripPrefix "egras_" s with
  | none => none
  | some body =>
    match splitN 3 '_' body.toList with
    | [env, keyPrefix, secret] =>
      if (String.ofList keyPrefix).utf8ByteSize ≠ 8 || !keyPrefix.all isAsciiHexdigit then none
      else if secret.isEmpty then none
      else some ⟨String.ofList env, String.ofList keyPrefix, String.ofList secret⟩
    | _ => none

/-- A fresh API key. -/
structure GeneratedKey where
  keyPrefix : String
  plaintext : String
  secret : String
deriving DecidableEq

section Base64
variable [Base64]

/-- Draw a fresh key. -/
def generateKey {ε} : Action ε GeneratedKey := do
  let prefixBytes ← randomBytes 4
  let secretBytes ← randomBytes 32
  let keyPrefix := hexEncode prefixBytes
  let secret := Base64.urlSafeEncode secretBytes
  return ⟨keyPrefix, "egras_" ++ "live" ++ "_" ++ keyPrefix ++ "_" ++ secret, secret⟩

end Base64

section Argon2
variable [Argon2]

/-- Hash a password, or the secret of a key, under a fresh salt of 16 bytes. -/
def hashPassword (password : String) : Action Anyhow String := do
  let salt ← randomBytes 16
  match Argon2.hashPassword password salt with
  | some hash => return hash
  | none => .fail .mk

/-- Check a password, or the secret of a key, against a stored hash. -/
def verifyPassword (password hash : String) : Except Anyhow Bool :=
  match Argon2.verifyPassword password hash with
  | some b => .ok b
  | none => .error .mk

/-- A verification tells what the library does. -/
lemma verifyPassword_eq_ok {password hash : String} {b : Bool} :
    verifyPassword password hash = .ok b ↔ Argon2.verifyPassword password hash = some b := by
  unfold verifyPassword
  cases Argon2.verifyPassword password hash <;> simp

/-- The hashing of passwords is exact: the hash of a password verifies that password and no other,
and the sentinel hash verifies none. -/
structure Argon2Exact : Prop where
  hashed : ∀ {password hash : String} {salt : List UInt8},
    Argon2.hashPassword password salt = some hash →
    ∀ presented, Argon2.verifyPassword presented hash = some (decide (presented = password))
  sentinel : ∀ presented, Argon2.verifyPassword presented "!" ≠ some true

/-- Whether a stored hash was made under other parameters than the current ones. -/
def needsRehash (hash : String) : Bool :=
  !hash.toList.tails.any (fun rest => "m=19456,t=2,p=1".toList.isPrefixOf rest)

end Argon2
end Egras
