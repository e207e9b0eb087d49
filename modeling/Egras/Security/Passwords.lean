import Egras.Security.Interface

/-!
# Password changes, password resets and logout

The token repository and the use cases `password_reset_request`, `password_reset_confirm`,
`change_password` and `logout` with their handlers. Each statement of a use case runs on its own
connection; none of them opens a transaction. The reset link, which carries the raw token, is only
logged.

Rust → Lean naming: `count_pending_for_user` → `countPendingForUser`, `insert` → `insertToken`,
`find_valid` → `findValid`, `consume` → `consume`, `revoke` → `revoke`.
-/

namespace Egras
open Lib

/-! ## Tokens in the database -/

namespace Tables

/-- The reset tokens of a user that are neither used nor expired. -/
def pendingTokens (t : Tables) (userId : Uuid) (now : Timestamp) : List PasswordResetToken :=
  t.passwordResetTokens.select
    (fun p => p.userId = userId && p.usedAt = none && now < p.expiresAt)

/-- The pending token of a user that was created first. -/
def oldestPending (t : Tables) (userId : Uuid) (now : Timestamp) : Option PasswordResetToken :=
  ((t.pendingTokens userId now).insertionSort (fun a b => a.createdAt ≤ b.createdAt)).head?

/-- The unused and unexpired token with a hash. -/
def validToken (t : Tables) (tokenHash : String) (now : Timestamp) : Option PasswordResetToken :=
  t.passwordResetTokens.rows.find?
    (fun p => p.tokenHash = tokenHash && p.usedAt = none && now < p.expiresAt)

/-- Delete the oldest pending token of a user, if there is one. -/
def dropOldestPending (t : Tables) (userId : Uuid) (now : Timestamp) : Tables :=
  { t with
    passwordResetTokens := t.passwordResetTokens.deleteWhere
      (fun p => (t.oldestPending userId now).any (fun oldest => p.id = oldest.id)) }

end Tables

namespace Tables
variable {t : Tables} {userId : Uuid} {hash : String} {now : Timestamp}

/-- Store another password hash for a user. -/
def setPasswordHash (t : Tables) (userId : Uuid) (newHash : String) (now : Timestamp) : Tables :=
  { t with
    users := t.users.updateWhere (fun u => u.id = userId)
      (fun u => { u with passwordHash := newHash, updatedAt := now })
      (setPasswordHash_id now newHash) }

/-- The other users keep their rows. -/
lemma mem_setPasswordHash {u : User} :
    u ∈ (t.setPasswordHash userId hash now).users ↔ (u ∈ t.users ∧ u.id ≠ userId) ∨
      ∃ q ∈ t.users, q.id = userId ∧ u = { q with passwordHash := hash, updatedAt := now } := by
  refine (@Table.mem_updateWhere _ _ _ t.users _ _ (setPasswordHash_id now hash) u).trans ?_
  constructor
  · rintro ⟨q, hq, rfl⟩
    by_cases hid : q.id = userId
    · exact Or.inr ⟨q, hq, hid, if_pos (decide_eq_true hid)⟩
    · rw [if_neg (by simpa using hid)]
      exact Or.inl ⟨hq, hid⟩
  · rintro (⟨hu, hid⟩ | ⟨q, hq, hid, rfl⟩)
    · exact ⟨u, hu, if_neg (by simpa using hid)⟩
    · exact ⟨q, hq, if_pos (decide_eq_true hid)⟩

/-- What is stored under an identifier after a password change. -/
lemma users_find?_setPasswordHash {id : Uuid} :
    (t.setPasswordHash userId hash now).users.find? id = (t.users.find? id).map (fun u =>
      if u.id = userId then { u with passwordHash := hash, updatedAt := now } else u) := by
  unfold setPasswordHash
  simp only [Table.find?_updateWhere, decide_eq_true_eq]

end Tables

/-- The statement sets the password hash of the user. -/
lemma updatePasswordHash_eq {userId : Uuid} {newHash : String} :
    updatePasswordHash userId newHash =
      execute (fun w => .ok ((), w.tables.setPasswordHash userId newHash w.now)) := rfl

/-- `MAX_PENDING_TOKENS_PER_USER`. -/
def maxPendingTokensPerUser : ℕ := 3

/-- `SELECT COUNT(*) FROM password_reset_tokens WHERE user_id = $1 AND consumed_at IS NULL AND
expires_at > NOW()`. -/
def countPendingForUser (userId : Uuid) : Action SqlError ℕ :=
  query (fun w => (w.tables.pendingTokens userId w.now).length)

/-- Store a reset token; the oldest pending one makes room when there are three. -/
def insertToken (userId : Uuid) (tokenHash : String) (expiresAt : Timestamp) :
    Action SqlError PasswordResetToken := do
  let pending ← countPendingForUser userId
  if maxPendingTokensPerUser ≤ pending then
    execute (fun w => .ok ((), w.tables.dropOldestPending userId w.now))
  else .ret ()
  let id ← nowV7
  execute (fun w => do
    let p : PasswordResetToken := ⟨id, userId, tokenHash, expiresAt, none, w.now⟩
    let t ← w.tables.insertPasswordResetToken p
    return (p, t))

/-- `SELECT ... FROM password_reset_tokens WHERE token_hash = $1 AND consumed_at IS NULL AND
expires_at > NOW()`. -/
def findValid (tokenHash : String) : Action SqlError (Option PasswordResetToken) :=
  query (fun w => w.tables.validToken tokenHash w.now)

/-- A token keeps its id when it is consumed. -/
lemma consumeToken_id (now : Timestamp) (p : PasswordResetToken) :
    PasswordResetToken.id { p with usedAt := some now } = p.id := rfl

/-- `UPDATE password_reset_tokens SET consumed_at = NOW() WHERE id = $1`. -/
def consume (tokenId : Uuid) : Action SqlError Unit :=
  execute (fun w => .ok ((), { w.tables with
    passwordResetTokens := w.tables.passwordResetTokens.updateWhere (fun p => p.id = tokenId)
      (fun p => { p with usedAt := some w.now }) (consumeToken_id w.now) }))

/-- `INSERT INTO revoked_tokens ... ON CONFLICT DO NOTHING`. -/
def revoke (jti userId : Uuid) (expiresAt : Timestamp) : Action SqlError Unit :=
  execute (fun w => do
    let t ← w.tables.insertRevokedToken ⟨jti, userId, expiresAt⟩
    return ((), t))

/-! ## Use cases -/

/-- Whose password is to be reset. -/
structure PasswordResetRequestInput where
  email : String
deriving DecidableEq

section Reset
variable [Sha256]

/-- What is stored of a raw token. -/
def tokenHashOf (rawBytes : List UInt8) : String := hexEncode (Sha256.digest rawBytes)

/-- Issue a reset token to the user with a name or an email; silent when there is none. -/
def passwordResetRequest (ttlSecs : Int) (input : PasswordResetRequestInput) :
    Action Anyhow Unit := do
  match ← (findByUsernameOrEmail input.email).mapErr (fun _ => Anyhow.mk) with
  | none => return ()
  | some user =>
    let rawBytes ← randomBytes 32
    let now ← utcNow
    let _ ← (insertToken user.id (tokenHashOf rawBytes) (now + ttlSecs * 1000000)).mapErr
      (fun _ => Anyhow.mk)
    record (fun s => .passwordResetRequested s input.email)

/-- The token and the new password. -/
structure PasswordResetConfirmInput where
  rawToken : String
  newPassword : String
deriving DecidableEq

/-- Why no password is reset. -/
inductive PasswordResetConfirmError
  | invalidToken
  | passwordTooShort
  | internal
deriving DecidableEq

/-- What a raw token presented by a client is looked up by. -/
def presentedHash (rawToken : String) : Option String :=
  (hexDecode rawToken.toList).map tokenHashOf

variable [Argon2]

/-- Set a new password on the strength of a reset token. -/
def passwordResetConfirm (input : PasswordResetConfirmInput) :
    Action PasswordResetConfirmError Unit := do
  require (8 ≤ input.newPassword.utf8ByteSize) .passwordTooShort
  match presentedHash input.rawToken with
  | none => .fail .invalidToken
  | some tokenHash =>
    match ← (findValid tokenHash).mapErr (fun _ => PasswordResetConfirmError.internal) with
    | none =>
      record (fun s => .passwordResetConfirmed s none .failure (some "invalid_token"))
      .fail .invalidToken
    | some token =>
      let newHash ← (hashPassword input.newPassword).mapErr
        (fun _ => PasswordResetConfirmError.internal)
      (updatePasswordHash token.userId newHash).mapErr
        (fun _ => PasswordResetConfirmError.internal)
      (consume token.id).mapErr (fun _ => PasswordResetConfirmError.internal)
      record (fun s => .passwordResetConfirmed s (some token.userId) .success none)

end Reset

/-- The current and the new password. -/
structure ChangePasswordInput where
  currentPassword : String
  newPassword : String
deriving DecidableEq

/-- Why no password is changed. -/
inductive ChangePasswordError
  | wrongCurrentPassword
  | passwordTooShort
  | userNotFound
  | internal
deriving DecidableEq

/-- Set a new password on the strength of the current one. -/
def changePassword [Argon2] (userId : Uuid) (input : ChangePasswordInput) :
    Action ChangePasswordError Unit := do
  require (8 ≤ input.newPassword.utf8ByteSize) .passwordTooShort
  match ← (findById userId).mapErr (fun _ => ChangePasswordError.internal) with
  | none => .fail .userNotFound
  | some user =>
    let ok ← (Prog.ofExcept (verifyPassword input.currentPassword user.passwordHash)).mapErr
      (fun _ => ChangePasswordError.internal)
    require ok .wrongCurrentPassword
    let newHash ← (hashPassword input.newPassword).mapErr (fun _ => ChangePasswordError.internal)
    (updatePasswordHash userId newHash).mapErr (fun _ => ChangePasswordError.internal)
    record (fun s => .passwordChanged s userId)

/-- Put an access token on the list of revoked ones until it expires. -/
def logout (userId orgId jti : Uuid) (tokenExpiresAt : Timestamp) : Action Anyhow Unit := do
  (revoke jti userId tokenExpiresAt).mapErr (fun _ => Anyhow.mk)
  record (fun s => .logout s userId orgId jti)

/-! ## Handlers -/

/-- The answer for an error of the confirmation. -/
def PasswordResetConfirmError.toApp : PasswordResetConfirmError → AppError
  | .invalidToken => .invalidCredentials
  | .passwordTooShort => .fieldError "new_password" "too_short"
  | .internal => .internal

/-- The answer for an error of the change. -/
def ChangePasswordError.toApp : ChangePasswordError → AppError
  | .wrongCurrentPassword => .invalidCredentials
  | .passwordTooShort => .fieldError "new_password" "too_short"
  | .userNotFound => .notFound "user"
  | .internal => .internal

/-- `DateTime::from_timestamp(secs, 0)`: the years from -262143 to 262142. -/
def fromTimestamp (secs : Int) : Option Timestamp :=
  if -8334601315200 ≤ secs ∧ secs ≤ 8210266876799 then some (secs * 1000000) else none

/-- Log out the session of a human. -/
def postLogout (ext : Extensions) : Action AppError ℕ := do
  Prog.ofExcept (requireHumanCaller ext)
  let caller ← Prog.ofExcept (authedCaller ext)
  let now ← utcNow
  (logout caller.claims.sub caller.claims.org caller.claims.jti
    ((fromTimestamp caller.claims.exp).getD now)).mapErr (fun _ => AppError.internal)
  return 204

/-- Change the password of a human. -/
def postChangePassword [Argon2] (ext : Extensions) (req : ChangePasswordInput) :
    Action AppError ℕ := do
  Prog.ofExcept (requireHumanCaller ext)
  let caller ← Prog.ofExcept (authedCaller ext)
  (changePassword caller.claims.sub req).mapErr ChangePasswordError.toApp
  return 204

/-- Request a reset, answered the same for every email. -/
def postPasswordResetRequest [Sha256] (ttlSecs : Int) (req : PasswordResetRequestInput) :
    Action AppError ℕ := do
  (passwordResetRequest ttlSecs req).mapErr (fun _ => AppError.internal)
  return 204

/-- Confirm a reset with its token. -/
def postPasswordResetConfirm [Sha256] [Argon2] (req : PasswordResetConfirmInput) :
    Action AppError ℕ := do
  (passwordResetConfirm req).mapErr PasswordResetConfirmError.toApp
  return 204

end Egras
