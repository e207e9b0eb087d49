import Egras.Lib.Interleave
import Egras.Security.Sentinel

/-!
# Logins, password changes and password resets, step by step

The positions of a login, of a password change and of a password reset, with what one step of each
does (`loginNext`, `changeNext`, `resetNext`). A step is one statement, one check or hash of a
password, one token issued or one audit event. `run_loginNext`, `run_changeNext` and `run_resetNext`
say that a step leads to what the source does next.

`credentialSystem` lets any number of these calls interleave. The decisive step of a change and of a
reset stores the new hash. `Proceeds` lists what a step can do to the tables.
-/

namespace Egras
open Lib

/-! ## Login -/

/-- Where a login stands. -/
inductive LoginPos
  | find
  | refuse (reason : String)
  | verify (user : User)
  | rehash (user : User)
  | update (user : User) (newHash : String)
  | memberships (user : User)
  | token (user : User) (first : UserMembership) (others : List UserMembership)
  | audit (output : LoginOutput)
  | done (r : Except LoginError LoginOutput)
deriving DecidableEq

section Login
variable [Argon2] [JsonWebToken] (config : JwtConfig) (input : LoginInput)

/-- What a login does once it has read the memberships of the user. -/
def loginIssue (user : User) (memberships : List UserMembership) : Action LoginError LoginOutput :=
  match memberships with
  | [] => .fail .noOrganisation
  | first :: _ => do
    let token ← (encodeAccessToken config user.id first.orgId).mapErr
      (fun _ => LoginError.internal)
    record (fun s => .loginSuccess s user.id first.orgId)
    return ⟨token, user.id, first.orgId, memberships⟩

/-- What a login does once the password has been checked and hashed again. -/
def loginMemberships (user : User) : Action LoginError LoginOutput := do
  let memberships ← (listMemberships user.id).mapErr (fun _ => LoginError.internal)
  loginIssue config user memberships

/-- What is left of a login. -/
def loginRest : LoginPos → Action LoginError LoginOutput
  | .find => login config input
  | .refuse reason => do
    record (fun s => .loginFailed s reason input.usernameOrEmail)
    .fail .invalidCredentials
  | .verify user => do
    let ok ← (Prog.ofExcept (verifyPassword input.password user.passwordHash)).mapErr
      (fun _ => LoginError.internal)
    if ok then do
      opportunisticRehash user input.password
      loginMemberships config user
    else do
      record (fun s => .loginFailed s "bad_password" input.usernameOrEmail)
      .fail .invalidCredentials
  | .rehash user => do
    match ← (hashPassword input.password).attempt with
    | .ok newHash =>
      let _ ← (updatePasswordHash user.id newHash).attempt
      loginMemberships config user
    | .error _ => loginMemberships config user
  | .update user newHash => do
    let _ ← (updatePasswordHash user.id newHash).attempt
    loginMemberships config user
  | .memberships user => loginMemberships config user
  | .token user first others => loginIssue config user (first :: others)
  | .audit output => do
    record (fun s => .loginSuccess s output.userId output.activeOrgId)
    return output
  | .done r => .ofExcept r

/-- One step of a login. -/
def loginNext : LoginPos → World → Option (LoginPos × World)
  | .find, w =>
    match (findByUsernameOrEmail input.usernameOrEmail).run w with
    | (.error _, w') => some (.done (.error .internal), w')
    | (.ok none, w') => some (.refuse "not_found", w')
    | (.ok (some user), w') => some (.verify user, w')
  | .refuse reason, w =>
    some (.done (.error .invalidCredentials),
      ((record (fun s => .loginFailed s reason input.usernameOrEmail) : Action Anyhow _).run w).2)
  | .verify user, w =>
    match verifyPassword input.password user.passwordHash with
    | .error _ => some (.done (.error .internal), w)
    | .ok false => some (.refuse "bad_password", w)
    | .ok true =>
      if needsRehash user.passwordHash then some (.rehash user, w) else some (.memberships user, w)
  | .rehash user, w =>
    match (hashPassword input.password).run w with
    | (.ok newHash, w') => some (.update user newHash, w')
    | (.error _, w') => some (.memberships user, w')
  | .update user newHash, w =>
    some (.memberships user, ((updatePasswordHash user.id newHash).run w).2)
  | .memberships user, w =>
    match (listMemberships user.id).run w with
    | (.error _, w') => some (.done (.error .internal), w')
    | (.ok [], w') => some (.done (.error .noOrganisation), w')
    | (.ok (first :: others), w') => some (.token user first others, w')
  | .token user first others, w =>
    match (encodeAccessToken config user.id first.orgId).run w with
    | (.error _, w') => some (.done (.error .internal), w')
    | (.ok token, w') => some (.audit ⟨token, user.id, first.orgId, first :: others⟩, w')
  | .audit output, w =>
    some (.done (.ok output),
      ((record (fun s => .loginSuccess s output.userId output.activeOrgId) : Action Anyhow _).run w).2)
  | .done _, _ => none

variable {config input}

/-- A step of a login leads to what the login does next. -/
theorem run_loginNext {p q : LoginPos} {w w' : World} (h : loginNext config input p w = some (q, w')) :
    (loginRest config input p).run w = (loginRest config input q).run w' := by
  cases p with
  | find =>
    simp only [loginNext] at h
    simp only [loginRest, login, authenticate]
    rw [Prog.bind_assoc, Prog.run_bind, Prog.run_mapErr]
    split at h
    · rename_i e w₁ hrun
      cases h
      rw [hrun]
      rfl
    · rename_i w₁ hrun
      cases h
      rw [hrun]
      rfl
    · rename_i user w₁ hrun
      cases h
      rw [hrun]
      simp only [Except.mapError]
      rw [Prog.bind_assoc]
      cases verifyPassword input.password user.passwordHash with
      | error e => rfl
      | ok verified => cases verified <;> rfl
  | refuse reason =>
    cases h
    rfl
  | verify user =>
    simp only [loginNext] at h
    simp only [loginRest]
    split at h
    · rename_i e hverify
      cases h
      rw [hverify]
      rfl
    · rename_i hverify
      cases h
      rw [hverify]
      rfl
    · rename_i hverify
      rw [hverify]
      show Prog.run (opportunisticRehash user input.password >>= _) w = _
      unfold opportunisticRehash
      split at h
      · rename_i hneeds
        cases h
        rw [if_pos hneeds, Prog.bind_assoc, Prog.run_bind, Prog.run_bind, Prog.run_attempt]
        cases ((hashPassword input.password).run w).1 with
        | ok newHash =>
          dsimp only
          rw [Prog.bind_assoc]
          rfl
        | error e => rfl
      · rename_i hneeds
        cases h
        rw [if_neg hneeds]
        rfl
  | rehash user =>
    simp only [loginNext] at h
    simp only [loginRest]
    rw [Prog.run_bind, Prog.run_attempt]
    split at h
    · rename_i newHash w₁ hrun
      cases h
      rw [hrun]
    · rename_i e w₁ hrun
      cases h
      rw [hrun]
  | update user newHash =>
    cases h
    simp only [loginRest]
    rw [Prog.run_bind, Prog.run_attempt]
  | memberships user =>
    simp only [loginNext] at h
    simp only [loginRest, loginMemberships]
    rw [Prog.run_bind, Prog.run_mapErr]
    split at h
    · rename_i e w₁ hrun
      cases h
      rw [hrun]
      rfl
    · rename_i w₁ hrun
      cases h
      rw [hrun]
      rfl
    · rename_i first others w₁ hrun
      cases h
      rw [hrun]
      rfl
  | token user first others =>
    simp only [loginNext] at h
    simp only [loginRest, loginIssue]
    rw [Prog.run_bind, Prog.run_mapErr]
    split at h
    · rename_i e w₁ hrun
      cases h
      rw [hrun]
      rfl
    · rename_i token w₁ hrun
      cases h
      rw [hrun]
      rfl
  | audit output =>
    cases h
    rfl
  | done r => cases h

end Login

/-! ## Password change -/

/-- Where a password change stands. -/
inductive ChangePos
  | find
  | verify (user : User)
  | hash
  | update (newHash : String)
  | audit
  | done (r : Except ChangePasswordError Unit)
deriving DecidableEq

section Change
variable [Argon2] (userId : Uuid) (input : ChangePasswordInput)

/-- What is left of a password change. -/
def changeRest : ChangePos → Action ChangePasswordError Unit
  | .find => changePassword userId input
  | .verify user => do
    let ok ← (Prog.ofExcept (verifyPassword input.currentPassword user.passwordHash)).mapErr
      (fun _ => ChangePasswordError.internal)
    require ok .wrongCurrentPassword
    let newHash ← (hashPassword input.newPassword).mapErr (fun _ => ChangePasswordError.internal)
    (updatePasswordHash userId newHash).mapErr (fun _ => ChangePasswordError.internal)
    record (fun s => .passwordChanged s userId)
  | .hash => do
    let newHash ← (hashPassword input.newPassword).mapErr (fun _ => ChangePasswordError.internal)
    (updatePasswordHash userId newHash).mapErr (fun _ => ChangePasswordError.internal)
    record (fun s => .passwordChanged s userId)
  | .update newHash => do
    (updatePasswordHash userId newHash).mapErr (fun _ => ChangePasswordError.internal)
    record (fun s => .passwordChanged s userId)
  | .audit => record (fun s => .passwordChanged s userId)
  | .done r => .ofExcept r

/-- One step of a password change. -/
def changeNext : ChangePos → World → Option (ChangePos × World)
  | .find, w =>
    if 8 ≤ input.newPassword.utf8ByteSize then
      match (findById userId).run w with
      | (.error _, w') => some (.done (.error .internal), w')
      | (.ok none, w') => some (.done (.error .userNotFound), w')
      | (.ok (some user), w') => some (.verify user, w')
    else some (.done (.error .passwordTooShort), w)
  | .verify user, w =>
    match verifyPassword input.currentPassword user.passwordHash with
    | .error _ => some (.done (.error .internal), w)
    | .ok false => some (.done (.error .wrongCurrentPassword), w)
    | .ok true => some (.hash, w)
  | .hash, w =>
    match (hashPassword input.newPassword).run w with
    | (.error _, w') => some (.done (.error .internal), w')
    | (.ok newHash, w') => some (.update newHash, w')
  | .update newHash, w =>
    match (updatePasswordHash userId newHash).run w with
    | (.error _, w') => some (.done (.error .internal), w')
    | (.ok _, w') => some (.audit, w')
  | .audit, w =>
    some (.done (.ok ()), ((record (fun s => .passwordChanged s userId) : Action Anyhow _).run w).2)
  | .done _, _ => none

variable {userId input}

/-- A step of a password change leads to what the change does next. -/
theorem run_changeNext {p q : ChangePos} {w w' : World}
    (h : changeNext userId input p w = some (q, w')) :
    (changeRest userId input p).run w = (changeRest userId input q).run w' := by
  cases p with
  | find =>
    simp only [changeNext] at h
    simp only [changeRest, changePassword]
    rw [run_require_bind]
    split at h
    · rename_i hlength
      rw [if_pos (decide_eq_true hlength), Prog.run_bind, Prog.run_mapErr]
      split at h
      · rename_i e w₁ hrun
        cases h
        rw [hrun]
        rfl
      · rename_i w₁ hrun
        cases h
        rw [hrun]
        rfl
      · rename_i user w₁ hrun
        cases h
        rw [hrun]
        rfl
    · rename_i hlength
      cases h
      rw [if_neg (by simpa using hlength)]
      rfl
  | verify user =>
    simp only [changeNext] at h
    simp only [changeRest]
    split at h
    · rename_i e hverify
      cases h
      rw [hverify]
      rfl
    · rename_i hverify
      cases h
      rw [hverify]
      rfl
    · rename_i hverify
      cases h
      rw [hverify]
      rfl
  | hash =>
    simp only [changeNext] at h
    simp only [changeRest]
    rw [Prog.run_bind, Prog.run_mapErr]
    split at h
    · rename_i e w₁ hrun
      cases h
      rw [hrun]
      rfl
    · rename_i newHash w₁ hrun
      cases h
      rw [hrun]
      rfl
  | update newHash =>
    simp only [changeNext] at h
    simp only [changeRest]
    rw [Prog.run_bind, Prog.run_mapErr]
    split at h
    · rename_i e w₁ hrun
      cases h
      rw [hrun]
      rfl
    · rename_i a w₁ hrun
      cases h
      rw [hrun]
      rfl
  | audit =>
    cases h
    rfl
  | done r => cases h

end Change

/-! ## Password reset -/

/-- Where the redemption of a reset token stands; once it has found the token, the position says
which one. -/
inductive ResetPos
  | find
  | refuse
  | hash (token : PasswordResetToken)
  | update (token : PasswordResetToken) (newHash : String)
  | consume (token : PasswordResetToken)
  | audit (token : PasswordResetToken)
  | done (token : Option PasswordResetToken) (r : Except PasswordResetConfirmError Unit)
deriving DecidableEq

section Reset
variable [Argon2] [Sha256] (input : PasswordResetConfirmInput)

/-- What is left of the redemption of a reset token. -/
def resetRest : ResetPos → Action PasswordResetConfirmError Unit
  | .find => passwordResetConfirm input
  | .refuse => do
    record (fun s => .passwordResetConfirmed s none .failure (some "invalid_token"))
    .fail .invalidToken
  | .hash token => do
    let newHash ← (hashPassword input.newPassword).mapErr
      (fun _ => PasswordResetConfirmError.internal)
    (updatePasswordHash token.userId newHash).mapErr
      (fun _ => PasswordResetConfirmError.internal)
    (consume token.id).mapErr (fun _ => PasswordResetConfirmError.internal)
    record (fun s => .passwordResetConfirmed s (some token.userId) .success none)
  | .update token newHash => do
    (updatePasswordHash token.userId newHash).mapErr
      (fun _ => PasswordResetConfirmError.internal)
    (consume token.id).mapErr (fun _ => PasswordResetConfirmError.internal)
    record (fun s => .passwordResetConfirmed s (some token.userId) .success none)
  | .consume token => do
    (consume token.id).mapErr (fun _ => PasswordResetConfirmError.internal)
    record (fun s => .passwordResetConfirmed s (some token.userId) .success none)
  | .audit token => record (fun s => .passwordResetConfirmed s (some token.userId) .success none)
  | .done _ r => .ofExcept r

/-- One step of the redemption of a reset token. -/
def resetNext : ResetPos → World → Option (ResetPos × World)
  | .find, w =>
    if 8 ≤ input.newPassword.utf8ByteSize then
      match presentedHash input.rawToken with
      | none => some (.done none (.error .invalidToken), w)
      | some tokenHash =>
        match (findValid tokenHash).run w with
        | (.error _, w') => some (.done none (.error .internal), w')
        | (.ok none, w') => some (.refuse, w')
        | (.ok (some token), w') => some (.hash token, w')
    else some (.done none (.error .passwordTooShort), w)
  | .refuse, w =>
    some (.done none (.error .invalidToken), ((record (fun s => .passwordResetConfirmed s none .failure
      (some "invalid_token")) : Action Anyhow _).run w).2)
  | .hash token, w =>
    match (hashPassword input.newPassword).run w with
    | (.error _, w') => some (.done (some token) (.error .internal), w')
    | (.ok newHash, w') => some (.update token newHash, w')
  | .update token newHash, w =>
    match (updatePasswordHash token.userId newHash).run w with
    | (.error _, w') => some (.done (some token) (.error .internal), w')
    | (.ok _, w') => some (.consume token, w')
  | .consume token, w =>
    match (consume token.id).run w with
    | (.error _, w') => some (.done (some token) (.error .internal), w')
    | (.ok _, w') => some (.audit token, w')
  | .audit token, w =>
    some (.done (some token) (.ok ()), ((record (fun s => .passwordResetConfirmed s
      (some token.userId) .success none) : Action Anyhow _).run w).2)
  | .done _ _, _ => none

variable {input}

/-- A step of the redemption of a reset token leads to what the redemption does next. -/
theorem run_resetNext {p q : ResetPos} {w w' : World} (h : resetNext input p w = some (q, w')) :
    (resetRest input p).run w = (resetRest input q).run w' := by
  cases p with
  | find =>
    simp only [resetNext] at h
    simp only [resetRest, passwordResetConfirm]
    rw [run_require_bind]
    split at h
    · rename_i hlength
      rw [if_pos (decide_eq_true hlength)]
      cases hraw : presentedHash input.rawToken with
      | none =>
        rw [hraw] at h
        cases h
        rfl
      | some tokenHash =>
        rw [hraw] at h
        dsimp only at h ⊢
        rw [Prog.run_bind, Prog.run_mapErr]
        split at h
        · rename_i e w₁ hrun
          cases h
          rw [hrun]
          rfl
        · rename_i w₁ hrun
          cases h
          rw [hrun]
          rfl
        · rename_i token w₁ hrun
          cases h
          rw [hrun]
          rfl
    · rename_i hlength
      cases h
      rw [if_neg (by simpa using hlength)]
      rfl
  | refuse =>
    cases h
    rfl
  | hash token =>
    simp only [resetNext] at h
    simp only [resetRest]
    rw [Prog.run_bind, Prog.run_mapErr]
    split at h
    · rename_i e w₁ hrun
      cases h
      rw [hrun]
      rfl
    · rename_i newHash w₁ hrun
      cases h
      rw [hrun]
      rfl
  | update token newHash =>
    simp only [resetNext] at h
    simp only [resetRest]
    rw [Prog.run_bind, Prog.run_mapErr]
    split at h
    · rename_i e w₁ hrun
      cases h
      rw [hrun]
      rfl
    · rename_i a w₁ hrun
      cases h
      rw [hrun]
      rfl
  | consume token =>
    simp only [resetNext] at h
    simp only [resetRest]
    rw [Prog.run_bind, Prog.run_mapErr]
    split at h
    · rename_i e w₁ hrun
      cases h
      rw [hrun]
      rfl
    · rename_i a w₁ hrun
      cases h
      rw [hrun]
      rfl
  | audit token =>
    cases h
    rfl
  | done token r => cases h

end Reset

/-! ## Calls that interleave -/

/-- Where a call that reads or writes a password hash stands. -/
inductive CredentialPos
  | loggingIn (config : JwtConfig) (input : LoginInput) (p : LoginPos)
  | changing (userId : Uuid) (input : ChangePasswordInput) (p : ChangePos)
  | resetting (input : PasswordResetConfirmInput) (p : ResetPos)
deriving DecidableEq

/-- The reset token that a redemption has found. -/
def ResetPos.token : ResetPos → Option PasswordResetToken
  | find => none
  | refuse => none
  | hash token => some token
  | update token _ => some token
  | consume token => some token
  | audit token => some token
  | done token _ => token

namespace CredentialPos

/-- The password whose hash a call stores. -/
def password : CredentialPos → String
  | loggingIn _ input _ => input.password
  | changing _ input _ => input.newPassword
  | resetting input _ => input.newPassword

/-- A call changes or resets the password of a user. -/
def changes : CredentialPos → Uuid → Bool
  | loggingIn _ _ _, _ => false
  | changing userId _ _, id => userId = id
  | resetting _ p, id => p.token.any (fun token => token.userId = id)

/-- The reset token that a call has found. -/
def token : CredentialPos → Option PasswordResetToken
  | resetting _ p => p.token
  | _ => none

/-- The call confirms a reset. -/
def isReset : CredentialPos → Bool
  | resetting _ _ => true
  | _ => false

/-- What the token presented to a reset is looked up by. -/
def presents [Sha256] : CredentialPos → Option String
  | resetting input _ => presentedHash input.rawToken
  | _ => none

/-- Where calls begin. -/
def starts : CredentialPos → Bool
  | loggingIn _ _ .find => true
  | changing _ _ .find => true
  | resetting _ .find => true
  | _ => false

/-- Where calls end. -/
def final : CredentialPos → Bool
  | loggingIn _ _ (.done _) => true
  | changing _ _ (.done _) => true
  | resetting _ (.done _ _) => true
  | _ => false

/-- The hash that the next step stores. -/
def newHash : CredentialPos → Option String
  | loggingIn _ _ (.update _ h) => some h
  | changing _ _ (.update h) => some h
  | resetting _ (.update _ h) => some h
  | _ => none

/-- A change or a reset has stored its hash and has not failed since. -/
def hasUpdated : CredentialPos → Bool
  | changing _ _ .audit => true
  | changing _ _ (.done (.ok _)) => true
  | resetting _ (.consume _) => true
  | resetting _ (.audit _) => true
  | resetting _ (.done _ (.ok _)) => true
  | _ => false

/-- A reset is about to mark its token as used. -/
def consumes : CredentialPos → Bool
  | resetting _ (.consume _) => true
  | _ => false

/-- A change or a reset has returned `Ok`. -/
def succeeded : CredentialPos → Bool
  | changing _ _ (.done (.ok _)) => true
  | resetting _ (.done _ (.ok _)) => true
  | _ => false

/-- A change or a reset stores its hash. -/
def decisive : CredentialPos → CredentialPos → Bool
  | changing _ _ (.update _), changing _ _ .audit => true
  | resetting _ (.update _ _), resetting _ (.consume _) => true
  | _, _ => false

/-- A call that has succeeded has updated. -/
lemma hasUpdated_of_succeeded {p : CredentialPos} (h : p.succeeded = true) :
    p.hasUpdated = true := by
  unfold succeeded at h
  split at h
  · rfl
  · rfl
  · cases h

/-- A call that begins has stored nothing. -/
lemma not_hasUpdated_of_starts {p : CredentialPos} (h : p.starts = true) :
    p.hasUpdated = false := by
  unfold starts at h
  split at h
  · rfl
  · rfl
  · rfl
  · cases h

/-- A call that begins has no hash yet. -/
lemma newHash_of_starts {p : CredentialPos} (h : p.starts = true) : p.newHash = none := by
  unfold starts at h
  split at h
  · rfl
  · rfl
  · rfl
  · cases h

/-- A call that begins has no token yet. -/
lemma token_of_starts {p : CredentialPos} (h : p.starts = true) : p.token = none := by
  unfold starts at h
  split at h
  · rfl
  · rfl
  · rfl
  · cases h

/-- A call that is about to store a hash has stored none and has not ended. -/
lemma not_hasUpdated_of_newHash {p : CredentialPos} {hash : String} (h : p.newHash = some hash) :
    p.hasUpdated = false := by
  unfold newHash at h
  split at h
  · rfl
  · rfl
  · rfl
  · cases h

/-- A call that is about to store a hash has not ended. -/
lemma not_final_of_newHash {p : CredentialPos} {hash : String} (h : p.newHash = some hash) :
    p.final = false := by
  unfold newHash at h
  split at h
  · rfl
  · rfl
  · rfl
  · cases h

variable [Argon2] [JsonWebToken] [Sha256]

/-- One step of a call. -/
def next : CredentialPos → World → Option (CredentialPos × World)
  | loggingIn config input p, w =>
    (loginNext config input p w).map (fun r => (loggingIn config input r.1, r.2))
  | changing userId input p, w =>
    (changeNext userId input p w).map (fun r => (changing userId input r.1, r.2))
  | resetting input p, w => (resetNext input p w).map (fun r => (resetting input r.1, r.2))

/-- A call that can go on has not ended. -/
lemma final_of_next {p q : CredentialPos} {w w' : World} (h : p.next w = some (q, w')) :
    p.final = false := by
  unfold final
  split
  · cases h
  · cases h
  · cases h
  · rfl

end CredentialPos

/-- Logins, password changes and password resets. -/
def credentialSystem (ι : Type) [Argon2] [JsonWebToken] [Sha256] (env : World → World → Prop) :
    System ι World CredentialPos where
  starts := CredentialPos.starts
  step _ p w q w' := p.next w = some (q, w')
  env := env
  decisive := CredentialPos.decisive
  final := CredentialPos.final
  stops h := CredentialPos.final_of_next h

/-- A schedule of two calls. -/
def performCredentials [Argon2] [JsonWebToken] [Sha256] (env : World → World → Prop)
    (ok : Pool Client World CredentialPos → Turn Client → Bool) (w : World)
    (as : List (Act Client CredentialPos)) : Option (Pool Client World CredentialPos) :=
  Pool.perform (credentialSystem Client env) (fun _ => CredentialPos.next) ok
    (Pool.idle Client CredentialPos w) as

/-! ### What a step can do -/

section Continues
variable [Sha256]

/-- A call goes on without storing a hash or consuming a token. -/
structure Continues (p q : CredentialPos) : Prop where
  password : q.password = p.password
  changes : ∀ id, q.changes id = p.changes id
  isReset : q.isReset = p.isReset
  presents : q.presents = p.presents
  token : q.token = p.token
  hasUpdated : q.hasUpdated = p.hasUpdated
  consumes : p.consumes = false
  decisive : p.decisive q = false

/-- A login goes on wherever it stands, as it changes no password and presents no token. -/
lemma continues_loggingIn {config : JwtConfig} {input : LoginInput} {p q : LoginPos} :
    Continues (.loggingIn config input p) (.loggingIn config input q) :=
  ⟨rfl, fun _ => rfl, rfl, rfl, rfl, rfl, rfl, rfl⟩

/-- A password change goes on when it does not store its hash. -/
lemma continues_changing {userId : Uuid} {input : ChangePasswordInput} {p q : ChangePos}
    (updated : (CredentialPos.changing userId input q).hasUpdated =
      (CredentialPos.changing userId input p).hasUpdated)
    (decisive : (CredentialPos.changing userId input p).decisive (.changing userId input q) = false) :
    Continues (.changing userId input p) (.changing userId input q) :=
  ⟨rfl, fun _ => rfl, rfl, rfl, rfl, updated, rfl, decisive⟩

/-- A password reset goes on when it neither finds its token nor stores its hash. -/
lemma continues_resetting {input : PasswordResetConfirmInput} {p q : ResetPos}
    (token : q.token = p.token)
    (updated : (CredentialPos.resetting input q).hasUpdated =
      (CredentialPos.resetting input p).hasUpdated)
    (consumes : (CredentialPos.resetting input p).consumes = false)
    (decisive : (CredentialPos.resetting input p).decisive (.resetting input q) = false) :
    Continues (.resetting input p) (.resetting input q) :=
  ⟨rfl, fun id => congrArg (Option.any fun t : PasswordResetToken => t.userId = id) token, rfl, rfl, token,
    updated, consumes, decisive⟩

end Continues

section Proceeds
variable [Sha256] [Argon2]

/-- What one step of a call does. -/
inductive Proceeds : CredentialPos → World → CredentialPos → World → Prop
  | rehashes {config input user newHash} {w w' : World} (answered : w.answers = true)
      (tables : w'.tables = w.tables.setPasswordHash user.id newHash w.now) :
      Proceeds (.loggingIn config input (.update user newHash)) w
        (.loggingIn config input (.memberships user)) w'
  | changes {userId input newHash} {w w' : World} (answered : w.answers = true)
      (tables : w'.tables = w.tables.setPasswordHash userId newHash w.now) :
      Proceeds (.changing userId input (.update newHash)) w (.changing userId input .audit) w'
  | finds {input tokenHash token} {w w' : World}
      (presented : presentedHash input.rawToken = some tokenHash)
      (found : w.tables.validToken tokenHash w.now = some token) (tables : w'.tables = w.tables) :
      Proceeds (.resetting input .find) w (.resetting input (.hash token)) w'
  | resets {input token newHash} {w w' : World} (answered : w.answers = true)
      (tables : w'.tables = w.tables.setPasswordHash token.userId newHash w.now) :
      Proceeds (.resetting input (.update token newHash)) w (.resetting input (.consume token)) w'
  | consumes {input token} {w w' : World} (answered : w.answers = true)
      (tables : w'.tables = { w.tables with
        passwordResetTokens := w.tables.passwordResetTokens.updateWhere (fun p => p.id = token.id)
          (fun p => { p with usedAt := some w.now }) (consumeToken_id w.now) }) :
      Proceeds (.resetting input (.consume token)) w (.resetting input (.audit token)) w'
  | fails {input token} {w w' : World} (unanswered : w.answers = false)
      (tables : w'.tables = w.tables) :
      Proceeds (.resetting input (.consume token)) w
        (.resetting input (.done (some token) (.error .internal))) w'
  | hashes {p q newHash salt} {w w' : World}
      (hashed : Argon2.hashPassword p.password salt = some newHash)
      (pending : q.newHash = some newHash) (continues : Continues p q)
      (tables : w'.tables = w.tables) : Proceeds p w q w'
  | goes {p q} {w w' : World} (idle : q.newHash = none) (continues : Continues p q)
      (tables : w'.tables = w.tables) : Proceeds p w q w'

variable {w w' : World}

/-- A step of a login is one of the steps. -/
lemma proceeds_loggingIn [JsonWebToken] {config : JwtConfig} {input : LoginInput} {p q : LoginPos}
    (h : loginNext config input p w = some (q, w')) :
    Proceeds (.loggingIn config input p) w (.loggingIn config input q) w' := by
  cases p with
  | find =>
    have hreads : Prog.Reads World.tables (findByUsernameOrEmail input.usernameOrEmail) :=
      reads_query fun _ => rfl
    simp only [loginNext] at h
    split at h
    all_goals
      rename_i hrun
      cases h
      exact .goes rfl continues_loggingIn (hreads.of_run hrun)
  | refuse reason =>
    cases h
    exact .goes rfl continues_loggingIn rfl
  | verify user =>
    simp only [loginNext] at h
    split at h
    · cases h
      exact .goes rfl continues_loggingIn rfl
    · cases h
      exact .goes rfl continues_loggingIn rfl
    · split at h
      · cases h
        exact .goes rfl continues_loggingIn rfl
      · cases h
        exact .goes rfl continues_loggingIn rfl
  | rehash user =>
    simp only [loginNext] at h
    split at h
    · rename_i newHash w₁ hrun
      cases h
      obtain ⟨hashed, rfl⟩ := hashPassword_eq_ok hrun
      exact .hashes hashed rfl continues_loggingIn rfl
    · rename_i e w₁ hrun
      cases h
      exact .goes rfl continues_loggingIn (reads_hashPassword.of_run hrun)
  | update user newHash =>
    simp only [loginNext] at h
    cases h
    rw [updatePasswordHash_eq]
    cases hrun : (execute (fun w => .ok ((), w.tables.setPasswordHash user.id newHash w.now))).run w with
    | mk r w₁ =>
      cases r with
      | ok a =>
        obtain ⟨t, heffect, rfl, hanswers⟩ := execute_eq_ok hrun
        cases heffect
        exact .rehashes hanswers rfl
      | error e => exact .goes rfl continues_loggingIn (execute_eq_error hrun).2
  | memberships user =>
    have hreads : Prog.Reads World.tables (listMemberships user.id) := reads_query fun _ => rfl
    simp only [loginNext] at h
    split at h
    all_goals
      rename_i hrun
      cases h
      exact .goes rfl continues_loggingIn (hreads.of_run hrun)
  | token user first others =>
    simp only [loginNext] at h
    split at h
    all_goals
      rename_i hrun
      cases h
      exact .goes rfl continues_loggingIn (reads_encodeAccessToken.of_run hrun)
  | audit output =>
    cases h
    exact .goes rfl continues_loggingIn rfl
  | done r => cases h

/-- A step of a change is one of the steps. -/
lemma proceeds_changing {userId : Uuid} {input : ChangePasswordInput} {p q : ChangePos}
    (h : changeNext userId input p w = some (q, w')) :
    Proceeds (.changing userId input p) w (.changing userId input q) w' := by
  cases p with
  | find =>
    have hreads : Prog.Reads World.tables (findById userId) := reads_query fun _ => rfl
    simp only [changeNext] at h
    split at h
    · split at h
      all_goals
        rename_i hrun
        cases h
        exact .goes rfl (continues_changing rfl rfl) (hreads.of_run hrun)
    · cases h
      exact .goes rfl (continues_changing rfl rfl) rfl
  | verify user =>
    simp only [changeNext] at h
    split at h
    all_goals
      cases h
      exact .goes rfl (continues_changing rfl rfl) rfl
  | hash =>
    simp only [changeNext] at h
    split at h
    · rename_i e w₁ hrun
      cases h
      exact .goes rfl (continues_changing rfl rfl) (reads_hashPassword.of_run hrun)
    · rename_i newHash w₁ hrun
      cases h
      obtain ⟨hashed, rfl⟩ := hashPassword_eq_ok hrun
      exact .hashes hashed rfl (continues_changing rfl rfl) rfl
  | update newHash =>
    simp only [changeNext] at h
    rw [updatePasswordHash_eq] at h
    split at h
    · rename_i e w₁ hrun
      cases h
      exact .goes rfl (continues_changing rfl rfl) (execute_eq_error hrun).2
    · rename_i a w₁ hrun
      cases h
      obtain ⟨t, heffect, rfl, hanswers⟩ := execute_eq_ok hrun
      cases heffect
      exact .changes hanswers rfl
  | audit =>
    cases h
    exact .goes rfl (continues_changing rfl rfl) rfl
  | done r => cases h

/-- A step of a reset is one of the steps. -/
lemma proceeds_resetting {input : PasswordResetConfirmInput} {p q : ResetPos}
    (h : resetNext input p w = some (q, w')) :
    Proceeds (.resetting input p) w (.resetting input q) w' := by
  cases p with
  | find =>
    simp only [resetNext] at h
    split at h
    · split at h
      · cases h
        exact .goes rfl (continues_resetting rfl rfl rfl rfl) rfl
      · rename_i tokenHash hpresented
        have hreads : Prog.Reads World.tables (findValid tokenHash) := reads_query fun _ => rfl
        split at h
        · rename_i e w₁ hrun
          cases h
          exact .goes rfl (continues_resetting rfl rfl rfl rfl) (hreads.of_run hrun)
        · rename_i w₁ hrun
          cases h
          exact .goes rfl (continues_resetting rfl rfl rfl rfl) (hreads.of_run hrun)
        · rename_i token w₁ hrun
          cases h
          exact .finds hpresented (query_eq_ok hrun).1.symm (hreads.of_run hrun)
    · cases h
      exact .goes rfl (continues_resetting rfl rfl rfl rfl) rfl
  | refuse =>
    cases h
    exact .goes rfl (continues_resetting rfl rfl rfl rfl) rfl
  | hash token =>
    simp only [resetNext] at h
    split at h
    · rename_i e w₁ hrun
      cases h
      exact .goes rfl (continues_resetting rfl rfl rfl rfl) (reads_hashPassword.of_run hrun)
    · rename_i newHash w₁ hrun
      cases h
      obtain ⟨hashed, rfl⟩ := hashPassword_eq_ok hrun
      exact .hashes hashed rfl (continues_resetting rfl rfl rfl rfl) rfl
  | update token newHash =>
    simp only [resetNext] at h
    rw [updatePasswordHash_eq] at h
    split at h
    · rename_i e w₁ hrun
      cases h
      exact .goes rfl (continues_resetting rfl rfl rfl rfl) (execute_eq_error hrun).2
    · rename_i a w₁ hrun
      cases h
      obtain ⟨t, heffect, rfl, hanswers⟩ := execute_eq_ok hrun
      cases heffect
      exact .resets hanswers rfl
  | consume token =>
    simp only [resetNext] at h
    unfold consume at h
    split at h
    · rename_i e w₁ hrun
      cases h
      obtain ⟨hanswers, htables⟩ := execute_eq_error hrun
      exact .fails hanswers htables
    · rename_i a w₁ hrun
      cases h
      obtain ⟨t, heffect, rfl, hanswers⟩ := execute_eq_ok hrun
      cases heffect
      exact .consumes hanswers rfl
  | audit token =>
    cases h
    exact .goes rfl (continues_resetting rfl rfl rfl rfl) rfl
  | done token r => cases h

/-- What one step of a call does, whichever call it is. -/
lemma proceeds_of_next [JsonWebToken] {p q : CredentialPos} (h : p.next w = some (q, w')) :
    Proceeds p w q w' := by
  cases p with
  | loggingIn config input p =>
    obtain ⟨⟨q, w₁⟩, hnext, heq⟩ := Option.map_eq_some_iff.mp h
    cases heq
    exact proceeds_loggingIn hnext
  | changing userId input p =>
    obtain ⟨⟨q, w₁⟩, hnext, heq⟩ := Option.map_eq_some_iff.mp h
    cases heq
    exact proceeds_changing hnext
  | resetting input p =>
    obtain ⟨⟨q, w₁⟩, hnext, heq⟩ := Option.map_eq_some_iff.mp h
    cases heq
    exact proceeds_resetting hnext

/-- Whoever has stored a hash goes on so or stores it in this step. -/
lemma Proceeds.updated {p q : CredentialPos} (h : Proceeds p w q w')
    (hq : q.hasUpdated = true) : p.hasUpdated = true ∨ p.decisive q = true := by
  cases h with
  | goes _ continues _ => exact Or.inl (continues.hasUpdated ▸ hq)
  | hashes _ _ continues _ => exact Or.inl (continues.hasUpdated ▸ hq)
  | changes _ _ => exact Or.inr rfl
  | resets _ _ => exact Or.inr rfl
  | consumes _ _ => exact Or.inl rfl
  | rehashes _ _ => cases hq
  | finds _ _ _ => cases hq
  | fails _ _ => cases hq

/-- Whoever has not stored a hash and has not failed had not before. -/
lemma Proceeds.not_updated {p q : CredentialPos} (h : Proceeds p w q w')
    (hq : q.hasUpdated = false) (hfinal : q.final = false) :
    p.hasUpdated = false ∧ p.decisive q = false := by
  cases h with
  | goes _ continues _ => exact ⟨continues.hasUpdated ▸ hq, continues.decisive⟩
  | hashes _ _ continues _ => exact ⟨continues.hasUpdated ▸ hq, continues.decisive⟩
  | rehashes _ _ => exact ⟨rfl, rfl⟩
  | finds _ _ _ => exact ⟨rfl, rfl⟩
  | changes _ _ => cases hq
  | resets _ _ => cases hq
  | consumes _ _ => cases hq
  | fails _ _ => cases hfinal

/-- Whoever has stored a hash goes on so, but for a reset that fails to mark its token. -/
lemma Proceeds.keeps_updated {p q : CredentialPos} (h : Proceeds p w q w')
    (hp : p.hasUpdated = true ∨ p.decisive q = true) : q.hasUpdated = true ∨
      w.answers = false ∧ ∃ input token, p = .resetting input (.consume token) := by
  cases h with
  | goes _ continues _ =>
    rw [continues.decisive, ← continues.hasUpdated] at hp
    exact Or.inl (hp.resolve_right Bool.false_ne_true)
  | hashes _ _ continues _ =>
    rw [continues.decisive, ← continues.hasUpdated] at hp
    exact Or.inl (hp.resolve_right Bool.false_ne_true)
  | changes _ _ => exact Or.inl rfl
  | resets _ _ => exact Or.inl rfl
  | consumes _ _ => exact Or.inl rfl
  | fails unanswered _ => exact Or.inr ⟨unanswered, _, _, rfl⟩
  | rehashes _ _ => rcases hp with hp | hp <;> cases hp
  | finds _ _ _ => rcases hp with hp | hp <;> cases hp

/-- A step does not turn a call into another kind. -/
lemma Proceeds.isReset {p q : CredentialPos} (h : Proceeds p w q w') : q.isReset = p.isReset := by
  cases h with
  | goes _ continues _ => exact continues.isReset
  | hashes _ _ continues _ => exact continues.isReset
  | rehashes _ _ => rfl
  | changes _ _ => rfl
  | finds _ _ _ => rfl
  | resets _ _ => rfl
  | consumes _ _ => rfl
  | fails _ _ => rfl

/-- A reset that has stored no hash has not touched the tables. -/
lemma Proceeds.tables_of_reset {p q : CredentialPos} (h : Proceeds p w q w')
    (hreset : q.isReset = true) (hup : q.hasUpdated = false) : w'.tables = w.tables := by
  cases h with
  | goes _ _ tables => exact tables
  | hashes _ _ _ tables => exact tables
  | finds _ _ tables => exact tables
  | fails _ tables => exact tables
  | rehashes _ _ => cases hreset
  | changes _ _ => cases hreset
  | resets _ _ => cases hup
  | consumes _ _ => cases hup

/-- A hash that the next step stores is one of the password of the call. -/
lemma Proceeds.pending {p q : CredentialPos} (h : Proceeds p w q w') {hash : String}
    (hq : q.newHash = some hash) : ∃ salt, Argon2.hashPassword q.password salt = some hash := by
  cases h with
  | goes idle _ _ =>
    rw [idle] at hq
    cases hq
  | @hashes _ _ _ salt _ _ hashed pending continues _ =>
    rw [pending] at hq
    cases hq
    exact ⟨salt, continues.password ▸ hashed⟩
  | rehashes _ _ => cases hq
  | changes _ _ => cases hq
  | finds _ _ _ => cases hq
  | resets _ _ => cases hq
  | consumes _ _ => cases hq
  | fails _ _ => cases hq

end Proceeds
end Egras
