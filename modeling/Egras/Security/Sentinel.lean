import Egras.Db.Seeds
import Egras.Membership.Homes
import Egras.Service.Effects

/-!
# Whether service accounts keep the sentinel hash

The `users` row of a service account carries the password hash `!`, which verifies no password. Of
the requests that write password hashes, a login and a password change have checked a password
first, so they never touch such a row; a password reset has not, and a reset token is issued for any
identifier. So service accounts stay without a password, and no login opens a session for one,
exactly in the runs in which no password reset is redeemed for a service account (`sealed_iff`).
-/

namespace Egras
open Lib

namespace Tables
variable {t t' : Tables} {u : User} {userId : Uuid} {hash : String} {now : Timestamp}

/-- Every service account carries the hash that verifies no password. -/
def Sealed (t : Tables) : Prop :=
  ∀ u ∈ t.users, u.kind = .serviceAccount → u.passwordHash = "!"

/-- The same users are sealed as before. -/
lemma Sealed.of_users (h : t.Sealed) (husers : t'.users = t.users) : t'.Sealed := by
  unfold Sealed
  rw [husers]
  exact h

/-- A new service account carries the sentinel. -/
lemma sealed_hired [CaseMapping] {w : World} {req : NewServiceAccount} (h : w.tables.Sealed)
    (hhires : Hires w req) : (hired w req).Sealed := by
  refine Sealed.of_users (t := w.tables.addUser (serviceAccountUser w)) ?_ addServiceAccount_users
  intro u hu hkind
  rcases (mem_addUser hhires.free).mp hu with hold | rfl
  · exact h u hold hkind
  · rfl

/-- A stored service account under its identifier. -/
lemma isServiceAccount_of_mem (hu : u ∈ t.users) :
    t.isServiceAccount u.id = true ↔ u.kind = .serviceAccount := by
  unfold isServiceAccount
  rw [Table.find?_key hu]
  cases hkind : u.kind <;> simp [hkind]

/-- Another hash for a user that is no service account. -/
lemma Sealed.setPasswordHash (h : t.Sealed) (hhuman : t.isServiceAccount userId = false) :
    (t.setPasswordHash userId hash now).Sealed := by
  intro u hu hkind
  rcases mem_setPasswordHash.mp hu with ⟨hold, -⟩ | ⟨q, hq, rfl, rfl⟩
  · exact h u hold hkind
  · have hsa := (isServiceAccount_of_mem hq).mpr hkind
    rw [hhuman] at hsa
    cases hsa

/-- Another hash than the sentinel for a service account. -/
lemma not_sealed_setPasswordHash (hsa : t.isServiceAccount userId = true) (hhash : hash ≠ "!") :
    ¬ (t.setPasswordHash userId hash now).Sealed := by
  unfold isServiceAccount at hsa
  cases hfind : t.users.find? userId with
  | none =>
    rw [hfind] at hsa
    cases hsa
  | some q =>
    obtain ⟨hq, rfl⟩ := Table.find?_eq_some.mp hfind
    have hkind : q.kind = .serviceAccount :=
      (isServiceAccount_of_mem hq).mp (by unfold isServiceAccount; rw [hfind] at hsa ⊢; exact hsa)
    intro hsealed
    exact hhash (hsealed _ (mem_setPasswordHash.mpr (Or.inr ⟨q, hq, rfl, rfl⟩)) hkind)

/-- The kind of a user does not depend on its hash. -/
lemma isServiceAccount_setPasswordHash {id : Uuid} :
    (t.setPasswordHash userId hash now).isServiceAccount id = t.isServiceAccount id := by
  unfold isServiceAccount
  rw [users_find?_setPasswordHash]
  cases t.users.find? id with
  | none => rfl
  | some q =>
    rw [Option.map_some]
    split <;> rfl

variable [Argon2]

/-- Whoever has a password that verifies is no service account. -/
lemma Sealed.human (h : t.Sealed) (hexact : Argon2Exact) (hu : u ∈ t.users) {password : String}
    (hverify : Argon2.verifyPassword password u.passwordHash = some true) :
    t.isServiceAccount u.id = false := by
  rw [← Bool.not_eq_true, isServiceAccount_of_mem hu]
  intro hkind
  rw [h u hu hkind] at hverify
  exact hexact.sentinel password hverify

end Tables

/-! ## Password changes -/

/-- An effect renews the password of a user of whom a password has been verified. -/
def Renews [Argon2] (t : Tables) (e : Effect) : Prop :=
  ∃ u ∈ t.users, ∃ password hash now,
    Argon2.verifyPassword password u.passwordHash = some true ∧ e = .setPassword u.id hash now

/-- Renewing passwords keeps service accounts sealed, and nobody becomes one or ceases to be. -/
lemma Tables.Sealed.renewed [Argon2] [CaseMapping] {t t' : Tables} (ht : t.Sealed)
    (hexact : Argon2Exact) (h : Relation.ReflTransGen (Effect.Step fun _ e => Renews t e) t t') :
    t'.Sealed ∧ ∀ id, t'.isServiceAccount id = t.isServiceAccount id := by
  refine Effect.invariant (I := fun s => s.Sealed ∧ ∀ id, s.isServiceAccount id = t.isServiceAccount id)
    ?_ h ⟨ht, fun _ => rfl⟩
  rintro s s' e ⟨u, hu, password, hash, now, hverify, rfl⟩ happly ⟨hsealed, hsame⟩
  cases happly
  refine ⟨hsealed.setPasswordHash ?_, fun id => ?_⟩
  · exact (hsame u.id).trans (ht.human hexact hu hverify)
  · exact Tables.isServiceAccount_setPasswordHash.trans (hsame id)

/-- A rehash leaves the memberships alone. -/
lemma memberships_opportunisticRehash [Argon2] [CaseMapping] {w : World} {user : User} {userId : Uuid}
    {password : String} :
    ((opportunisticRehash user password).run w).2.tables.membershipsOf userId =
      w.tables.membershipsOf userId := by
  have hfollows : Prog.Follows World.tables
      (Effect.Step fun _ e => ∃ hash now, e = .setPassword user.id hash now) w
      (opportunisticRehash user password) :=
    follows_opportunisticRehash fun hash now _ => ⟨hash, now, rfl⟩
  refine Effect.invariant (I := fun t => t.membershipsOf userId = w.tables.membershipsOf userId)
    ?_ hfollows rfl
  rintro s s' e ⟨hash, now, rfl⟩ happly hsame
  cases happly
  exact hsame

section Argon2
variable [Argon2] {w v : World} {u : User} [JsonWebToken] {config : JwtConfig} {input : LoginInput}

/-- The token of a login is made for the user that has been authenticated. -/
lemma login_eq_ok {out : LoginOutput} (h : (login config input).run w = (.ok out, v)) :
    ∃ u ∈ w.tables.users, Argon2.verifyPassword input.password u.passwordHash = some true ∧
      ∃ orgId jti now, JsonWebToken.encodeToken config.secret
        (accessClaims config u.id orgId jti now) = some out.token := by
  obtain ⟨u, w₁, hauth, h⟩ := Prog.bind_eq_ok h
  obtain ⟨hu, hverify⟩ := authenticate_eq_ok hauth
  refine ⟨u, hu, hverify, ?_⟩
  obtain ⟨_, w₂, -, h⟩ := Prog.bind_eq_ok h
  obtain ⟨memberships, w₃, -, h⟩ := Prog.bind_eq_ok h
  cases memberships with
  | nil => cases h
  | cons first rest =>
    obtain ⟨token, w₄, htoken, h⟩ := Prog.bind_eq_ok h
    obtain ⟨now, w₅, -, htoken⟩ := Prog.bind_eq_ok (Prog.mapErr_eq_ok htoken)
    obtain ⟨jti, w₆, -, htoken⟩ := Prog.bind_eq_ok htoken
    obtain ⟨_, w₇, -, h⟩ := Prog.bind_eq_ok h
    cases h
    split at htoken
    · rename_i encoded hencode
      cases htoken
      exact ⟨first.orgId, jti, now, hencode⟩
    · cases htoken

end Argon2

/-! ## Password resets -/

/-- What follows the new hash leaves the users alone. -/
lemma reads_consume {tokenId : Uuid} {p : PasswordResetToken} :
    Prog.Reads (fun w : World => w.tables.users) (do
      (consume tokenId).mapErr (fun _ => PasswordResetConfirmError.internal)
      record (fun s => .passwordResetConfirmed s (some p.userId) .success none)) := by
  refine Prog.Reads.bind (Prog.Reads.mapErr (reads_execute (fun _ => rfl) ?_)) fun _ =>
    reads_record (fun _ _ => rfl) (fun _ _ => rfl)
  intro w a t h
  cases h
  rfl

/-- Asking for a reset token leaves the users alone. -/
lemma users_passwordResetRequest [CaseMapping] [Sha256] {w : World} {ttlSecs : Int}
    {input : PasswordResetRequestInput} :
    ((passwordResetRequest ttlSecs input).run w).2.tables.users = w.tables.users := by
  have hfollows : Prog.Follows World.tables (Effect.Step fun _ e => ¬ e.OnUsers) w
      (passwordResetRequest ttlSecs input) :=
    follows_passwordResetRequest (fun _ _ _ _ => id) fun _ _ _ _ _ _ _ _ _ => id
  exact Effect.users_of_follows (fun _ _ => id) hfollows

section Reset
variable [Sha256] [Argon2] {w : World} {input : PasswordResetConfirmInput} {p : PasswordResetToken}
  {hash : String}

/-- A password reset gets as far as storing a hash for the user of a token. -/
structure Redeems (w : World) (input : PasswordResetConfirmInput) (p : PasswordResetToken)
    (hash : String) : Prop where
  long : 8 ≤ input.newPassword.utf8ByteSize
  valid : (presentedHash input.rawToken).bind (fun h => w.tables.validToken h w.now) = some p
  hashed : Argon2.hashPassword input.newPassword ((w.random.headD []).takeD 16 0) = some hash
  answered : w.answersAll 2 = true

/-- A redemption that takes effect sets the password of the token's user. -/
lemma passwordResetConfirm_of_redeems (h : Redeems w input p hash) :
    ((passwordResetConfirm input).run w).2.tables.users =
      (w.tables.setPasswordHash p.userId hash w.now).users := by
  have ha := h.answered
  simp only [World.answersAll_succ, World.answersAll_zero, Bool.and_true, Bool.and_eq_true] at ha
  obtain ⟨h₁, h₂⟩ := ha
  obtain ⟨tokenHash, hpresented, hvalid⟩ := Option.bind_eq_some_iff.mp h.valid
  unfold passwordResetConfirm findValid
  rw [run_require_bind, if_pos (decide_eq_true h.long), hpresented]
  dsimp only
  rw [run_query_bind, if_pos h₁, hvalid]
  dsimp only
  have hhash := hashPassword_ok (w := w.tick) h.hashed
  rw [Prog.run_bind_ok (Prog.run_mapErr_ok hhash) rfl, updatePasswordHash_eq]
  refine (Prog.Reads.after_bind (V := fun w : World => w.tables.users)
    fun _ => reads_consume).trans ?_
  have h₂' : ({ w.tick with random := w.tick.random.tail } : World).answers = true := h₂
  rw [Prog.run_mapErr, run_execute_ok h₂' rfl]
  rfl

/-- Otherwise no hash is stored. -/
lemma passwordResetConfirm_of_not_redeems (h : ∀ p hash, ¬ Redeems w input p hash) :
    ((passwordResetConfirm input).run w).2.tables.users = w.tables.users := by
  unfold passwordResetConfirm findValid
  rw [run_require_bind]
  split
  · rename_i hlong
    cases hpresented : presentedHash input.rawToken with
    | none => rfl
    | some tokenHash =>
      dsimp only
      rw [run_query_bind]
      split
      · rename_i h₁
        cases hvalid : w.tables.validToken tokenHash w.now with
        | none => rfl
        | some p =>
          dsimp only
          rw [Prog.run_bind]
          cases hrun : ((hashPassword input.newPassword).mapErr
              (fun _ => PasswordResetConfirmError.internal)).run w.tick with
          | mk r v =>
            have htables : v.tables = w.tick.tables :=
              (Prog.Reads.mapErr reads_hashPassword).of_run hrun
            cases r with
            | error e => exact congrArg Tables.users htables
            | ok hash =>
              obtain ⟨hashed, rfl⟩ := hashPassword_eq_ok (Prog.mapErr_eq_ok hrun)
              dsimp only
              rw [updatePasswordHash_eq]
              refine (Prog.Reads.after_bind (V := fun w : World => w.tables.users)
                fun _ => reads_consume).trans ?_
              rw [Prog.run_mapErr, run_execute]
              unfold World.exec
              split
              · -- the statement is answered, so the token is redeemed after all
                rename_i h₂
                have h₂' : w.tick.answers = true := h₂
                refine absurd ⟨of_decide_eq_true hlong, ?_, hashed, ?_⟩ (h p hash)
                · rw [hpresented]
                  exact hvalid
                · simp [World.answersAll_succ, h₁, h₂']
              · rfl
      · rfl
  · rfl

end Reset

/-! ## Requests -/

/-- A request that creates service accounts, gives them roles, or has to do with passwords and
sessions. -/
inductive CredentialRequest
  | createServiceAccount (caller : AuthedCaller) (kind : Caller)
      (req : CreateServiceAccountRequest)
  | assignRole (caller : AuthedCaller) (kind : Caller) (orgId : Uuid) (req : AssignRoleRequest)
  | passwordResetRequest (ttlSecs : Int) (req : PasswordResetRequestInput)
  | passwordResetConfirm (req : PasswordResetConfirmInput)
  | changePassword (caller : AuthedCaller) (kind : Caller) (req : ChangePasswordInput)
  | login (config : JwtConfig) (req : LoginInput)
  | logout (caller : AuthedCaller) (kind : Caller)
  | switchOrg (config : JwtConfig) (caller : AuthedCaller) (kind : Caller) (orgId : Uuid)

/-- A request with the world that it is served in. -/
structure CredentialCall where
  world : World
  request : CredentialRequest

namespace CredentialCall
variable {x : CredentialCall} {t t' : Tables} {w : World} {caller : AuthedCaller} {kind : Caller}

/-- A logout leaves the users alone. -/
lemma users_postLogout [CaseMapping] :
    ((postLogout (caller.extensions kind)).run w).2.tables.users = w.tables.users := by
  have hfollows : Prog.Follows World.tables (Effect.Step fun _ e => ¬ e.OnUsers) w
      (postLogout (caller.extensions kind)) :=
    .ofExcept_bind fun _ _ => .ofExcept_bind fun _ _ => .bind_reads reads_utcNow fun _ _ _ _ =>
      .then_reads (follows_logout id).mapErr fun _ => Prog.Reads.ret
  exact Effect.users_of_follows (fun _ _ => id) hfollows

variable [Argon2] [CaseMapping] [Sha256]

/-- The request redeems a reset token of a service account. -/
def Unseals (x : CredentialCall) : Prop :=
  ∃ req, x.request = .passwordResetConfirm req ∧ ∃ p hash, Redeems x.world req p hash ∧
    x.world.tables.isServiceAccount p.userId = true

/-- What a request does to the users. -/
inductive Outcome (x : CredentialCall) (t t' : Tables) : Prop
  | same (h : t'.users = t.users)
  | hires (req : NewServiceAccount) (hires : Hires x.world req) (h : t' = hired x.world req)
  | renews (h : Relation.ReflTransGen (Effect.Step fun _ e => Renews t e) t t')
  | redeems (req : PasswordResetConfirmInput) (request : x.request = .passwordResetConfirm req)
      (p : PasswordResetToken) (hash : String) (redeems : Redeems x.world req p hash)
      (h : t'.users = (t.setPasswordHash p.userId hash x.world.now).users)

/-- Creating a service account seals it or changes no user. -/
lemma outcome_createServiceAccount {req : CreateServiceAccountRequest} :
    Outcome ⟨w, .createServiceAccount caller kind req⟩ w.tables
      ((postCreateServiceAccount (caller.extensions kind) req).run w).2.tables := by
  rw [postCreateServiceAccount_tables]
  split
  · by_cases hhires : Hires w ⟨req.organisationId, req.name, req.description, caller.claims.sub⟩
    · exact .hires _ hhires (createServiceAccountRows_of_hires hhires)
    · exact .same (congrArg Tables.users (createServiceAccountRows_of_not_hires hhires))
  · exact .same rfl

/-- Assigning a role changes no user. -/
lemma outcome_assignRole {orgId : Uuid} {req : AssignRoleRequest} :
    Outcome ⟨w, .assignRole caller kind orgId req⟩ w.tables
      ((postAssignRole (caller.extensions kind) orgId req).run w).2.tables := by
  have hwrites : Prog.Writes World.tables (Assigned orgId req.userId)
      (postAssignRole (caller.extensions kind) orgId req) := writes_postAssignRole
  rcases hwrites w with hsame | ⟨-, roleId, now, hpost⟩
  · exact .same (congrArg Tables.users hsame)
  · refine .same ?_
    by_cases hadd : w.tables.Addable ⟨req.userId, orgId, roleId, now⟩
    · have hrow := hpost.symm.trans (Tables.assignRole_of_addable hadd)
      exact (congrArg Tables.users (Except.ok.inj hrow)).trans Tables.addRole_users
    · exact congrArg Tables.users (Tables.assignRole_eq_ok hpost hadd)

/-- A confirmation sets the password of its token or changes no user. -/
lemma outcome_passwordResetConfirm {req : PasswordResetConfirmInput} :
    Outcome ⟨w, .passwordResetConfirm req⟩ w.tables
      ((postPasswordResetConfirm req).run w).2.tables := by
  have htables : ((postPasswordResetConfirm req).run w).2.tables =
      ((passwordResetConfirm req).run w).2.tables := by
    unfold postPasswordResetConfirm
    rw [Prog.Reads.after_bind (V := World.tables), Prog.run_mapErr]
    exact fun _ => Prog.Reads.ret
  rw [htables]
  by_cases hredeems : ∃ p hash, Redeems w req p hash
  · obtain ⟨p, hash, hredeems⟩ := hredeems
    exact .redeems req rfl p hash hredeems (passwordResetConfirm_of_redeems hredeems)
  · exact .same (passwordResetConfirm_of_not_redeems fun p hash h => hredeems ⟨p, hash, h⟩)

/-- A change sets the password of its caller or changes no user. -/
lemma outcome_changePassword {req : ChangePasswordInput} :
    Outcome ⟨w, .changePassword caller kind req⟩ w.tables
      ((postChangePassword (caller.extensions kind) req).run w).2.tables := by
  unfold postChangePassword
  rw [run_requireHumanCaller_bind]
  split
  · rw [run_authedCaller_bind, Prog.Reads.after_bind (V := World.tables), Prog.run_mapErr]
    · refine .renews (follows_changePassword fun hash now user hmem hid hverified _ => ?_)
      exact ⟨user, hmem, _, hash, now, hverified, hid ▸ rfl⟩
    · exact fun _ => Prog.Reads.ret
  · exact .same rfl

omit [Sha256] in
/-- A login renews the password of its user. -/
lemma follows_postLogin [JsonWebToken] {config : JwtConfig} {req : LoginInput} :
    Prog.Follows World.tables (Effect.Step fun _ e => Renews w.tables e) w (postLogin config req) :=
  (follows_login fun hash now user hmem _ hverified _ =>
    ⟨user, hmem, _, hash, now, hverified, rfl⟩).mapErr

variable [JsonWebToken]

/-- The world after the handler has run. -/
def serve (x : CredentialCall) : World :=
  match x.request with
  | .createServiceAccount caller kind req =>
    ((postCreateServiceAccount (caller.extensions kind) req).run x.world).2
  | .assignRole caller kind orgId req =>
    ((postAssignRole (caller.extensions kind) orgId req).run x.world).2
  | .passwordResetRequest ttlSecs req => ((postPasswordResetRequest ttlSecs req).run x.world).2
  | .passwordResetConfirm req => ((postPasswordResetConfirm req).run x.world).2
  | .changePassword caller kind req =>
    ((postChangePassword (caller.extensions kind) req).run x.world).2
  | .login config req => ((postLogin config req).run x.world).2
  | .logout caller kind => ((postLogout (caller.extensions kind)).run x.world).2
  | .switchOrg config caller kind orgId =>
    ((postSwitchOrg config (caller.extensions kind) orgId).run x.world).2

/-- The claims of the token that a login returns. -/
def session (x : CredentialCall) : Option Claims :=
  match x.request with
  | .login config req =>
    match ((postLogin config req).run x.world).1 with
    | .ok out => JsonWebToken.decodeToken config.secret out.token
    | .error _ => none
  | _ => none

/-- One request over the tables; the rest of its world is supplied anew. -/
structure Step (t : Tables) (x : CredentialCall) (t' : Tables) : Prop where
  pre : x.world.tables = t
  post : x.serve.tables = t'

/-- What a request does to the users, whoever makes it. -/
lemma outcome (h : Step t x t') : Outcome x t t' := by
  obtain ⟨rfl, rfl⟩ := h
  obtain ⟨w, request⟩ := x
  cases request with
  | createServiceAccount caller kind req => exact outcome_createServiceAccount
  | assignRole caller kind orgId req => exact outcome_assignRole
  | passwordResetRequest ttlSecs req =>
    refine .same ?_
    show ((postPasswordResetRequest ttlSecs req).run w).2.tables.users = w.tables.users
    unfold postPasswordResetRequest
    rw [Prog.Reads.after_bind (V := World.tables), Prog.run_mapErr]
    · exact users_passwordResetRequest
    · exact fun _ => Prog.Reads.ret
  | passwordResetConfirm req => exact outcome_passwordResetConfirm
  | changePassword caller kind req => exact outcome_changePassword
  | login config req => exact .renews follows_postLogin
  | logout caller kind => exact .same users_postLogout
  | switchOrg config caller kind orgId => exact .same (congrArg Tables.users (reads_postSwitchOrg w))

/-- A request that redeems a token of a service account leaves it with another hash. -/
lemma Step.not_sealed (hexact : Argon2Exact) (h : Step t x t') (hunseals : x.Unseals) :
    ¬ t'.Sealed := by
  obtain ⟨req, hrequest, p, hash, hredeems, hsa⟩ := hunseals
  obtain ⟨w, request⟩ := x
  obtain rfl : request = .passwordResetConfirm req := hrequest
  obtain ⟨rfl, rfl⟩ := h
  have husers := passwordResetConfirm_of_redeems hredeems
  have hhash : hash ≠ "!" := by
    rintro rfl
    have hverify := hexact.hashed hredeems.hashed req.newPassword
    rw [decide_eq_true rfl] at hverify
    exact hexact.sentinel _ hverify
  intro hsealed
  refine @Tables.not_sealed_setPasswordHash _ _ _ w.now hsa hhash (hsealed.of_users ?_)
  rw [← husers]
  show _ = ((postPasswordResetConfirm req).run w).2.tables.users
  unfold postPasswordResetConfirm
  rw [Prog.Reads.after_bind (V := World.tables), Prog.run_mapErr]
  exact fun _ => Prog.Reads.ret

/-- Another request keeps service accounts sealed. -/
lemma Step.sealed (hexact : Argon2Exact) (h : Step t x t') (hsafe : ¬ x.Unseals)
    (ht : t.Sealed) : t'.Sealed := by
  obtain rfl := h.pre
  cases outcome h with
  | same husers => exact ht.of_users husers
  | hires req hires hpost => exact hpost ▸ Tables.sealed_hired ht hires
  | renews hpost => exact (ht.renewed hexact hpost).1
  | redeems req request p hash redeems husers =>
    refine Tables.Sealed.of_users (ht.setPasswordHash ?_) husers
    rw [← Bool.not_eq_true]
    exact fun hsa => hsafe ⟨req, request, p, hash, redeems, hsa⟩

/-- A login opens no session for a service account while they are sealed. -/
lemma Step.session_human (hexact : Argon2Exact)
    (hjwt : ∀ secret c token, JsonWebToken.encodeToken secret c = some token →
      JsonWebToken.decodeToken secret token = some c)
    (h : Step t x t') (ht : t.Sealed) {c : Claims} (hc : x.session = some c) :
    t'.isServiceAccount c.sub = false := by
  obtain ⟨w, request⟩ := x
  obtain ⟨rfl, rfl⟩ := h
  cases request with
  | login config req =>
    unfold session at hc
    dsimp only at hc
    split at hc
    · rename_i out hout
      have hrun : (login config req).run w = (.ok out, ((login config req).run w).2) := by
        unfold postLogin at hout
        exact Prog.mapErr_eq_ok (g := LoginError.toApp)
          (by rw [Prog.run_mapErr] at hout ⊢; exact Prod.ext hout rfl)
      obtain ⟨u, hu, hverify, orgId, jti, now, hencode⟩ := login_eq_ok hrun
      rw [hjwt _ _ _ hencode] at hc
      cases hc
      -- the login may have stored another hash of the user, which does not change its kind
      have hhuman := ht.human hexact hu hverify
      exact ((ht.renewed hexact follows_postLogin).2 u.id).trans hhuman
    · cases hc
  | _ => cases hc

/-- From tables in which service accounts carry the sentinel they carry it after every request of a
run, and no login opens a session for one, exactly when no request redeems a reset token of a
service account. -/
theorem sealed_iff (hexact : Argon2Exact)
    (hjwt : ∀ secret c token, JsonWebToken.encodeToken secret c = some token →
      JsonWebToken.decodeToken secret token = some c)
    (start : Tables) (ms : List (Move Tables CredentialCall)) (t : Tables)
    (hstart : start.Sealed) (run : Run Step start ms t) :
    (∀ m ∈ ms, m.post.Sealed ∧
      ∀ c, m.label.session = some c → m.post.isServiceAccount c.sub = false) ↔
      ∀ m ∈ ms, ¬ m.label.Unseals := by
  constructor
  · intro hall m hm hunseals
    exact (run.step_of_mem hm).not_sealed hexact hunseals (hall m hm).1
  · intro hsafe m hm
    have hmoves := run.forall_moves Tables.Sealed (fun m => ¬ m.label.Unseals) hstart
      (fun _ _ _ step hs hpre => step.sealed hexact hs hpre) hsafe
    obtain ⟨step, hpre⟩ := hmoves m hm
    exact ⟨step.sealed hexact (hsafe m hm) hpre,
      fun c hc => step.session_human hexact hjwt hpre hc⟩

end CredentialCall

section Runs
open CredentialCall

/-- A platform that signs the tokens of one session. -/
@[reducible] def signingPlatform (session : Claims) : Platform where
  __ := plainPlatform
  encodeToken _ claims := if claims = session then some "session" else none
  decodeToken _ token := if token = "session" then some session else none

/-- The plain platform verifies exactly the hashed password. -/
lemma argon2Exact_plain : @Argon2Exact plainPlatform.toArgon2 := by
  let _ : Platform := plainPlatform
  refine ⟨?_, ?_⟩
  · intro password hash salt h presented
    obtain rfl := Option.some.inj h
    have hsplit : splitN 2 '$' ("m=19456,t=2,p=1$" ++ password).toList =
        ["m=19456,t=2,p=1".toList, password.toList] := by
      rw [String.toList_append]
      rfl
    show verifyPlain presented ("m=19456,t=2,p=1$" ++ password) = _
    unfold verifyPlain
    rw [hsplit]
    simp [String.toList_inj, eq_comm]
  · intro presented h
    cases h

/-- A token decodes to the claims that it was signed for. -/
lemma decode_signing {session : Claims} :
    ∀ secret c token,
      @JsonWebToken.encodeToken (signingPlatform session).toJsonWebToken secret c = some token →
        @JsonWebToken.decodeToken (signingPlatform session).toJsonWebToken secret token =
          some c := by
  intro secret c token h
  have hencode : (if c = session then some "session" else none) = some token := h
  split at hencode
  · rename_i hc
    obtain rfl := Option.some.inj hencode
    rw [hc]
    rfl
  · cases hencode

/-- How tokens are configured in the runs below. -/
def runConfig : JwtConfig := ⟨"secret", "egras", 3600⟩

/-- The owner of `acme` has a password. -/
def ownerTables : Tables :=
  Tables.twoTenants.setPasswordHash 0x11 "m=19456,t=2,p=1$correct horse" 0

/-- The service accounts of the two tenants are sealed. -/
lemma sealed_ownerTables : ownerTables.Sealed := by
  have hall : ∀ u ∈ ownerTables.users.rows, u.kind = .serviceAccount → u.passwordHash = "!" := by
    decide
  exact hall

/-- The owner of `acme` logs in. -/
def ownerLogin : CredentialCall where
  world := .calm ownerTables 0
  request := .login runConfig ⟨"alice", "correct horse"⟩

/-- The claims of the owner's session. -/
def ownerSession : Claims := accessClaims runConfig 0x11 0xa 0x21 0

/-- The owner of a tenant logs in, and the session is not one of a service account. -/
theorem sealed_iff_login :
    @session (signingPlatform ownerSession).toArgon2 (signingPlatform ownerSession).toJsonWebToken
      ownerLogin = some ownerSession ∧
      (@serve (signingPlatform ownerSession).toArgon2 (signingPlatform ownerSession).toCaseMapping
        ⟨id⟩ (signingPlatform ownerSession).toJsonWebToken ownerLogin).tables.isServiceAccount
        ownerSession.sub = false := by
  let _ : Platform := signingPlatform ownerSession
  let _ : Sha256 := ⟨id⟩
  have hsession : ownerLogin.session = some ownerSession := by decide +kernel
  have hstep : Step ownerTables ownerLogin ownerLogin.serve.tables := ⟨rfl, rfl⟩
  have hsafe : ∀ m ∈ [Move.mk ownerTables ownerLogin ownerLogin.serve.tables],
      ¬ m.label.Unseals := by
    rintro m hm ⟨req, hrequest, -⟩
    rw [List.mem_singleton.mp hm] at hrequest
    cases hrequest
  refine ⟨hsession, ?_⟩
  exact ((sealed_iff argon2Exact_plain decode_signing _ _ _ sealed_ownerTables
    (Run.single hstep)).mpr hsafe _ (List.mem_singleton.mpr rfl)).2 _ hsession

/-- The tables after each request of a list, with the random bytes that each draws. -/
def afterRequests (P : Platform) (t : Tables)
    (requests : List (CredentialRequest × List (List UInt8))) : Tables :=
  requests.foldl (fun t request =>
    (@serve P.toArgon2 P.toCaseMapping ⟨id⟩ P.toJsonWebToken
      ⟨{ World.calm t 0 with random := request.2 }, request.1⟩).tables) t

/-- The requests one after the other are a run. -/
lemma run_afterRequests {P : Platform} {t : Tables}
    {requests : List (CredentialRequest × List (List UInt8))} :
    ∃ ms, Run (@Step P.toArgon2 P.toCaseMapping ⟨id⟩ P.toJsonWebToken) t ms
      (afterRequests P t requests) := by
  let _ : Sha256 := ⟨id⟩
  induction requests generalizing t with
  | nil => exact ⟨[], .nil⟩
  | cons request requests ih =>
    obtain ⟨ms, hrun⟩ := @ih (@serve P.toArgon2 P.toCaseMapping ⟨id⟩ P.toJsonWebToken
      ⟨{ World.calm t 0 with random := request.2 }, request.1⟩).tables
    exact ⟨_, Run.cons ⟨rfl, rfl⟩ hrun⟩

/-- The owner of `acme` makes a service account; somebody asks for a reset token under the username
of the service account and redeems it. -/
def unsealingRequests : List (CredentialRequest × List (List UInt8)) :=
  let rawBytes := List.replicate 32 (7 : UInt8)
  [(.createServiceAccount (.loaded .twoTenants 0x11 0xa) (.user 0x11 0xa 0x31)
      ⟨0xa, "bot", none⟩, []),
    (.passwordResetRequest 3600 ⟨"sa_" ++ uuidToString 0x21⟩, [rawBytes]),
    (.passwordResetConfirm ⟨hexEncode rawBytes, "correct horse"⟩, [])]

/-- A service account gets a password through a reset token. -/
theorem reset_unseals_account :
    ∃ ms t, Run (@Step plainPlatform.toArgon2 plainPlatform.toCaseMapping ⟨id⟩
        plainPlatform.toJsonWebToken) .twoTenants ms t ∧
      Tables.twoTenants.Sealed ∧ ¬ t.Sealed := by
  obtain ⟨ms, hrun⟩ := @run_afterRequests plainPlatform .twoTenants unsealingRequests
  refine ⟨ms, _, hrun, ?_, ?_⟩
  · have hall : ∀ u ∈ Tables.twoTenants.users.rows, u.kind = .serviceAccount →
        u.passwordHash = "!" := by decide
    exact hall
  · have hsome : ∃ u ∈ (afterRequests plainPlatform .twoTenants unsealingRequests).users.rows,
        u.kind = .serviceAccount ∧ u.passwordHash ≠ "!" := by decide +kernel
    obtain ⟨u, hu, hkind, hhash⟩ := hsome
    exact fun hsealed => hhash (hsealed u hu hkind)

end Runs
end Egras
