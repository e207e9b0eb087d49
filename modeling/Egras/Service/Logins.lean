import Egras.Service.Sessions

/-!
# How long passwords last

Once a password has been set, by a registration, a change or a reset, it is the one with which its
user logs in, and no other is, whoever sends what and whichever statements fail, until a demand proves
that it may set another one (`Arrival.password_lasts`). A login that hashes the password anew leaves it
what it is.

This is about demands that are served one after the other, as in the runs of `Arrival.Step`: no login
is in flight when the password is set. A login that has verified the old password before would write
a hash of the old one over the new, because its update asks for the user only.
-/

namespace Egras
open Lib Relation

/-- The password of a user. -/
def Tables.PasswordIs [Argon2] (t : Tables) (u : Uuid) (password : String) : Prop :=
  ∃ user ∈ t.users, user.id = u ∧ HashOf password user.passwordHash

/-! ## Logging in -/

section Login
variable [Argon2] {w v : World} {u : Uuid} {name password presented : String}

/-- The hash of a password verifies it and no other. -/
lemma HashOf.verifies {hash : String} (exact : Argon2Exact) (h : HashOf password hash) :
    Argon2.verifyPassword presented hash = some (decide (presented = password)) := by
  obtain ⟨salt, hashed⟩ := h
  exact exact.hashed hashed presented

/-- A name denotes a user: it goes by the name, and no other user does. -/
def Tables.Denotes (t : Tables) (name : String) (u : Uuid) : Prop :=
  (∃ user ∈ t.users, user.id = u ∧ user.Named name) ∧ ∀ user ∈ t.users, user.Named name → user.id = u

/-- Whom the lookup of a name finds. -/
lemma Tables.Denotes.find {t : Tables} (h : t.Denotes name u) (hpassword : t.PasswordIs u password) :
    ∃ user, t.users.rows.find? (fun q => q.username = name || q.email = name) = some user ∧
      user.id = u ∧ HashOf password user.passwordHash := by
  obtain ⟨⟨named, hnamed, -, hname⟩, halone⟩ := h
  obtain ⟨user, huser, hid, hhash⟩ := hpassword
  have hsome : (t.users.rows.find? fun q => q.username = name || q.email = name).isSome = true := by
    rw [List.find?_isSome]
    exact ⟨named, hnamed, by simpa [User.Named] using hname⟩
  obtain ⟨found, hfound⟩ := Option.isSome_iff_exists.mp hsome
  have hgoes : found.Named name := by simpa [User.Named] using List.find?_some hfound
  have hmem : found ∈ t.users := List.mem_of_find?_eq_some hfound
  obtain rfl : found = user := Table.eq_of_key hmem huser ((halone found hmem hgoes).trans hid.symm)
  exact ⟨found, hfound, hid, hhash⟩

/-- The right password is accepted, and every other one is turned away. -/
lemma authenticate_of (exact : Argon2Exact) (hw : w.answers = true) (h : w.tables.Denotes name u)
    (hpassword : w.tables.PasswordIs u password) :
    (presented = password → ∃ user, user.id = u ∧
      (authenticate ⟨name, presented⟩).run w = (.ok user, w.tick)) ∧
    (presented ≠ password →
      ∃ v, (authenticate ⟨name, presented⟩).run w = (.error .invalidCredentials, v)) := by
  obtain ⟨user, hfound, hid, hhash⟩ := h.find hpassword
  have hfind : ((findByUsernameOrEmail name).mapErr fun _ => LoginError.internal).run w =
      (.ok (some user), w.tick) := Prog.run_mapErr_ok (run_query_of hw hfound)
  have hverify : ((Prog.ofExcept (verifyPassword presented user.passwordHash)).mapErr
      (fun _ => LoginError.internal)).run w.tick = (.ok (decide (presented = password)), w.tick) := by
    rw [Prog.run_mapErr, Prog.run_ofExcept, verifyPassword_eq_ok.mpr (hhash.verifies exact)]
    rfl
  constructor
  · rintro rfl
    refine ⟨user, hid, Prog.run_bind_ok hfind (Prog.run_bind_ok hverify ?_)⟩
    rw [decide_eq_true rfl]
    rfl
  · intro hwrong
    obtain ⟨v, hrefused⟩ : ∃ v, (do
        record (fun s => .loginFailed s "bad_password" name)
        .fail LoginError.invalidCredentials : Action LoginError User).run w.tick =
          (.error .invalidCredentials, v) := ⟨_, rfl⟩
    refine ⟨v, Prog.run_bind_ok hfind (Prog.run_bind_ok hverify ?_)⟩
    rw [decide_eq_false hwrong]
    exact hrefused

/-- A rehash never fails. -/
lemma run_opportunisticRehash {user : User} :
    ∃ v, (opportunisticRehash user password).run w = (.ok (), v) := by
  unfold opportunisticRehash
  split
  · rw [Prog.run_bind, Prog.run_attempt]
    cases ((hashPassword password).run w).1 with
    | ok newHash =>
      dsimp only
      rw [Prog.run_bind, Prog.run_attempt]
      exact ⟨_, rfl⟩
    | error e => exact ⟨_, rfl⟩
  · exact ⟨_, rfl⟩

/-- It leaves the database answering. -/
lemma healthy_opportunisticRehash {user : User} :
    Prog.Keeps World.Healthy (opportunisticRehash user password) := by
  unfold opportunisticRehash
  split
  · refine Prog.Keeps.bind (Prog.Keeps.attempt ?_) fun hashed => ?_
    · refine Prog.Keeps.bind (Prog.Keeps.lift fun w hw => hw) fun salt => ?_
      split
      · exact Prog.Keeps.ret
      · exact Prog.Keeps.fail
    · cases hashed with
      | ok newHash => exact Prog.Keeps.bind healthy_execute.attempt fun _ => Prog.Keeps.ret
      | error e => exact Prog.Keeps.ret
  · exact Prog.Keeps.ret

variable [JsonWebToken] {config : JwtConfig}

omit [Argon2] in
/-- A platform that signs gives a token. -/
lemma encodeAccessToken_returns {org : Uuid}
    (signs : ∀ claims, ∃ token, JsonWebToken.encodeToken config.secret claims = some token) :
    ∃ token v, (encodeAccessToken config u org).run w = (.ok token, v) := by
  refine Prog.bind_returns rfl (Prog.bind_returns rfl ?_)
  obtain ⟨token, htoken⟩ := signs (accessClaims config u org (w.uuids.headD 0) w.now)
  split
  · exact ⟨_, _, rfl⟩
  · rename_i hnone
    cases htoken.symm.trans hnone

/-- Who logs in with a name that denotes a user, and how everybody else is turned away. -/
lemma login_of [CaseMapping] (exact : Argon2Exact) (hw : w.Healthy) (h : w.tables.Denotes name u)
    (hpassword : w.tables.PasswordIs u password) :
    (presented = password → w.tables.membershipsOf u ≠ [] →
      (∀ claims, ∃ token, JsonWebToken.encodeToken config.secret claims = some token) →
      ∃ out v, (login config ⟨name, presented⟩).run w = (.ok out, v) ∧ out.userId = u) ∧
    (presented ≠ password →
      ∃ v, (login config ⟨name, presented⟩).run w = (.error .invalidCredentials, v)) := by
  obtain ⟨haccepts, hrefuses⟩ := authenticate_of exact hw.answers h hpassword
  constructor
  · intro hright hmember signs
    obtain ⟨user, rfl, hauth⟩ := haccepts hright
    obtain ⟨w₁, hrehash⟩ : ∃ v, (opportunisticRehash user presented).run w.tick = (.ok (), v) :=
      run_opportunisticRehash
    have hw₁ : w₁.Healthy := healthy_opportunisticRehash.of_run hw.tick hrehash
    have hsame : w₁.tables.membershipsOf user.id = w.tables.membershipsOf user.id := by
      have hkept : ((opportunisticRehash user presented).run w.tick).2.tables.membershipsOf user.id =
          w.tick.tables.membershipsOf user.id := memberships_opportunisticRehash
      rw [hrehash] at hkept
      exact hkept
    cases hrows : w.tables.membershipsOf user.id with
    | nil => exact absurd hrows hmember
    | cons first rest =>
      have hlist : ((listMemberships user.id).mapErr fun _ => LoginError.internal).run w₁ =
          (.ok (first :: rest), w₁.tick) :=
        Prog.run_mapErr_ok (run_query_of hw₁.answers (hsame.trans hrows))
      obtain ⟨token, w₂, hencode⟩ : ∃ token v,
          (encodeAccessToken config user.id first.orgId).run w₁.tick = (.ok token, v) :=
        encodeAccessToken_returns signs
      obtain ⟨w₃, hrecord⟩ : ∃ v, (record (fun s => .loginSuccess s user.id first.orgId) :
          Action LoginError Unit).run w₂ = (.ok (), v) := ⟨_, rfl⟩
      refine ⟨⟨token, user.id, first.orgId, first :: rest⟩, w₃, ?_, rfl⟩
      refine Prog.run_bind_ok hauth (Prog.run_bind_ok hrehash (Prog.run_bind_ok hlist ?_))
      exact Prog.run_bind_ok (Prog.run_mapErr_ok hencode) (Prog.run_bind_ok hrecord rfl)
  · intro hwrong
    obtain ⟨v, hauth⟩ := hrefuses hwrong
    refine ⟨v, ?_⟩
    unfold login
    rw [Prog.run_bind, hauth]

end Login

/-! ## Setting a password -/

section Set
variable [Argon2] {w v : World} {u : Uuid} {hash password : String} {now : Timestamp} {t : Tables}

/-- A password that is set is the password. -/
lemma Tables.PasswordIs.set (huser : ∃ user ∈ t.users, user.id = u) (h : HashOf password hash) :
    (t.setPasswordHash u hash now).PasswordIs u password := by
  obtain ⟨user, hmem, hid⟩ := huser
  exact ⟨_, mem_setPasswordHash.mpr (Or.inr ⟨user, hmem, hid, rfl⟩), hid, h⟩

/-- What a change of a password that succeeds leaves behind. -/
lemma changePassword_sets {input : ChangePasswordInput}
    (h : (changePassword u input).run w = (.ok (), v)) : v.tables.PasswordIs u input.newPassword := by
  obtain ⟨_, w₀, hrequire, h₁⟩ := Prog.bind_eq_ok h
  obtain ⟨-, rfl⟩ := require_eq_ok hrequire
  obtain ⟨found, _, hfind, h₂⟩ := Prog.bind_eq_ok h₁
  obtain ⟨hfound, rfl, -⟩ := query_eq_ok (Prog.mapErr_eq_ok hfind)
  cases found with
  | none => cases h₂
  | some user =>
    have hstored : w₀.tables.users.find? u = some user := hfound.symm
    obtain ⟨hmem, hid⟩ := Table.find?_eq_some.mp hstored
    obtain ⟨ok, w₁, hverify, h₃⟩ := Prog.bind_eq_ok h₂
    have hsame := Prog.Reads.ofExcept.mapErr.of_run (V := World.tables) hverify
    obtain ⟨_, w₂, hrequire, h₄⟩ := Prog.bind_eq_ok h₃
    obtain ⟨-, rfl⟩ := require_eq_ok hrequire
    obtain ⟨newHash, w₃, hhash, h₅⟩ := Prog.bind_eq_ok h₄
    obtain ⟨hhashed, rfl⟩ := hashPassword_eq_ok (Prog.mapErr_eq_ok hhash)
    obtain ⟨_, w₄, hupdate, hrecord⟩ := Prog.bind_eq_ok h₅
    obtain ⟨t, heffect, rfl, -⟩ := execute_eq_ok (Prog.mapErr_eq_ok hupdate)
    cases heffect
    rw [reads_tables_record.of_run hrecord]
    refine .set ⟨user, ?_, hid⟩ ⟨_, hhashed⟩
    exact hsame ▸ hmem

/-- What a confirmed reset leaves behind. -/
lemma passwordResetConfirm_sets [Sha256] {input : PasswordResetConfirmInput} {tokenHash : String}
    {p : PasswordResetToken} (h : (passwordResetConfirm input).run w = (.ok (), v))
    (hpresented : presentedHash input.rawToken = some tokenHash)
    (hvalid : w.tables.validToken tokenHash w.now = some p)
    (huser : ∃ user ∈ w.tables.users, user.id = p.userId) :
    v.tables.PasswordIs p.userId input.newPassword := by
  obtain ⟨_, w₀, hrequire, h₁⟩ := Prog.bind_eq_ok h
  obtain ⟨-, rfl⟩ := require_eq_ok hrequire
  rw [hpresented] at h₁
  obtain ⟨found, _, hfind, h₂⟩ := Prog.bind_eq_ok h₁
  obtain ⟨rfl, rfl, -⟩ := query_eq_ok (Prog.mapErr_eq_ok hfind)
  rw [hvalid] at h₂
  obtain ⟨newHash, w₁, hhash, h₃⟩ := Prog.bind_eq_ok h₂
  obtain ⟨hhashed, rfl⟩ := hashPassword_eq_ok (Prog.mapErr_eq_ok hhash)
  obtain ⟨_, w₂, hupdate, h₄⟩ := Prog.bind_eq_ok h₃
  obtain ⟨t, heffect, rfl, -⟩ := execute_eq_ok (Prog.mapErr_eq_ok hupdate)
  cases heffect
  obtain ⟨_, w₃, hconsume, hrecord⟩ := Prog.bind_eq_ok h₄
  obtain ⟨t', heffect', rfl, -⟩ := execute_eq_ok (Prog.mapErr_eq_ok hconsume)
  cases heffect'
  rw [reads_tables_record.of_run hrecord]
  have hset : (w₀.tables.setPasswordHash p.userId newHash w₀.now).PasswordIs p.userId
      input.newPassword := .set huser ⟨_, hhashed⟩
  exact hset

/-- What a registration leaves behind. -/
lemma registerUser_sets [CaseMapping] {actor org : Uuid} {input : RegisterUserInput}
    (h : (registerUser actor org input).run w = (.ok u, v)) :
    v.tables.PasswordIs u input.password := by
  obtain ⟨_, _, hrequire, h₁⟩ := Prog.bind_eq_ok h
  obtain ⟨-, rfl⟩ := require_eq_ok hrequire
  obtain ⟨_, _, hrequire, h₂⟩ := Prog.bind_eq_ok h₁
  obtain ⟨-, rfl⟩ := require_eq_ok hrequire
  obtain ⟨_, _, hrequire, h₃⟩ := Prog.bind_eq_ok h₂
  obtain ⟨-, rfl⟩ := require_eq_ok hrequire
  obtain ⟨_, _, hrequire, h₄⟩ := Prog.bind_eq_ok h₃
  obtain ⟨-, rfl⟩ := require_eq_ok hrequire
  obtain ⟨newHash, w₁, hhash, h₅⟩ := Prog.bind_eq_ok h₄
  obtain ⟨hhashed, rfl⟩ := hashPassword_eq_ok (Prog.mapErr_eq_ok hhash)
  obtain ⟨user, w₂, hcreate, h₆⟩ := Prog.bind_eq_ok h₅
  obtain ⟨role, henrols, rfl, htables⟩ := createAndAddToOrg_eq_ok (Prog.mapErr_eq_ok hcreate)
  obtain ⟨_, w₃, hrecord, hret⟩ := Prog.bind_eq_ok h₆
  cases hret
  rw [reads_tables_record.of_run hrecord, htables]
  refine ⟨newUser _ _ _ newHash, ?_, rfl, _, hhashed⟩
  unfold enrolled
  rw [Tables.addRole_users]
  exact (Tables.mem_addUser henrols.free).mpr (Or.inr rfl)

end Set

/-! ## Passwords over runs -/

namespace Arrival
variable [Platform] [Sha256] {config : JwtConfig} {x : Arrival} {t : Tables} {u : Uuid}
  {password : String}

/-- A demand sets the password of a user: it registers the user, it changes the password in the user's
own session, or it confirms a reset that was asked for the user. -/
inductive SetsPassword (config : JwtConfig) (x : Arrival) (u : Uuid) (password : String) : Prop
  | registers {headers : Headers} {req : RegisterRequest}
      (demand : x.demand = .guarded headers (.register req)) (password : req.password = password)
      (answer : ((respond config headers (.register req)).run x.world).1 = .ok (.registered u))
  | changes {headers : Headers} {req : ChangePasswordInput} {p : Principal} {code : ℕ}
      (demand : x.demand = .guarded headers (.changePassword req))
      (presented : Principal.Presented config headers x.world p) (user : p.user = u)
      (password : req.newPassword = password)
      (answer : ((respond config headers (.changePassword req)).run x.world).1 = .ok (.status code))
  | confirms {req : PasswordResetConfirmInput}
      {free : (Operation.passwordResetConfirm req).needsCaller = false} {tokenHash : String}
      {p : PasswordResetToken} {code : ℕ} (demand : x.demand = .unguarded (.passwordResetConfirm req) free)
      (presented : presentedHash req.rawToken = some tokenHash)
      (valid : x.world.tables.validToken tokenHash x.world.now = some p) (user : p.userId = u)
      (stored : x.world.tables.hasUser u = true) (password : req.newPassword = password)
      (answer : ((postPasswordResetConfirm req).run x.world).1 = .ok code)

/-- A demand may replace the password of a user: it proves that it may set one, and it is no login. -/
def Replaces (config : JwtConfig) (x : Arrival) (u : Uuid) : Prop :=
  (∃ hash, x.ProvesPassword config u hash) ∧ ∀ req free, x.demand ≠ .unguarded (.login req) free

variable [AuditCursorText] {i s j : Instant} {ms : List (Move Instant Arrival)}

/-- A password that a demand sets is the one that is stored. -/
lemma SetsPassword.stored (hdistinct : x.world.tables.PrefixesDistinct)
    (h : x.SetsPassword config u password) : (x.serve config).tables.PasswordIs u password := by
  obtain ⟨w, demand⟩ := x
  cases h with
  | @registers headers req demand hpassword answer =>
    obtain rfl := demand
    obtain rfl := hpassword
    obtain ⟨p, c, w₁, -, -, -, hhandler⟩ := respond_eq_ok (Prod.ext answer rfl)
    obtain ⟨⟨code, userId⟩, w₂, hpost, hret⟩ := Prog.bind_eq_ok hhandler
    obtain ⟨hreply, hserved⟩ := Prod.mk.inj hret
    cases Except.ok.inj hreply
    obtain ⟨_, _, -, h₁⟩ := Prog.bind_eq_ok hpost
    obtain ⟨_, _, -, h₂⟩ := Prog.bind_eq_ok h₁
    obtain ⟨_, _, -, h₃⟩ := Prog.bind_eq_ok h₂
    obtain ⟨userId', w₃, hregister, hret'⟩ := Prog.bind_eq_ok h₃
    cases hret'
    have hserve : Arrival.serve config ⟨w, .guarded headers (.register req)⟩ = w₂ := hserved.symm
    rw [hserve]
    exact registerUser_sets (Prog.mapErr_eq_ok hregister)
  | @changes headers req p code demand presented huser hpassword answer =>
    obtain rfl := demand
    obtain rfl := hpassword
    obtain ⟨q, c, w₁, hq, hc, -, hhandler⟩ := respond_eq_ok (Prod.ext answer rfl)
    obtain rfl := hq.unique hdistinct presented
    obtain ⟨_, w₂, hpost, hret⟩ := Prog.bind_eq_ok hhandler
    obtain ⟨-, hserved⟩ := Prod.mk.inj hret
    obtain ⟨_, _, -, h₁⟩ := Prog.bind_eq_ok hpost
    obtain ⟨_, _, hcaller, h₂⟩ := Prog.bind_eq_ok h₁
    cases hcaller
    obtain ⟨_, w₃, hchange, hret'⟩ := Prog.bind_eq_ok h₂
    cases hret'
    have hserve : Arrival.serve config ⟨w, .guarded headers (.changePassword req)⟩ = w₂ :=
      hserved.symm
    rw [hserve, ← huser, ← hc.user]
    exact changePassword_sets (Prog.mapErr_eq_ok hchange)
  | @confirms req free tokenHash p code demand presented valid huser stored hpassword answer =>
    obtain rfl := demand
    obtain rfl := hpassword
    obtain rfl := huser
    obtain ⟨_, w₁, hconfirm, hret⟩ := Prog.bind_eq_ok (Prod.ext answer rfl)
    obtain ⟨-, hserved⟩ := Prod.mk.inj hret
    have hserve : Arrival.serve config ⟨w, .unguarded (.passwordResetConfirm req) free⟩ = w₁ :=
      hserved.symm
    rw [hserve]
    exact passwordResetConfirm_sets (Prog.mapErr_eq_ok hconfirm) presented valid
      (Tables.hasUser_iff.mp stored)

omit [AuditCursorText] in
/-- Whoever sets another password replaces the old one, and a login sets the same one anew. -/
lemma Entitles.sets_same (exact : Argon2Exact) {hash : String} {now : Timestamp}
    (h : x.Entitles config t (.setPassword u hash now)) (hkept : ¬ x.Replaces config u)
    (hpassword : x.world.tables.PasswordIs u password) : HashOf password hash := by
  by_cases hlogin : ∃ req free, x.demand = .unguarded (.login req) free
  · obtain ⟨req, free, hdemand⟩ := hlogin
    cases h.proves with
    | changes demand => cases hdemand.symm.trans demand
    | confirms demand => cases hdemand.symm.trans demand
    | logsIn demand stored id named knows hashed =>
      -- the password that was presented has been verified against the one that is stored
      obtain ⟨user, huser, hid, hold⟩ := hpassword
      obtain rfl := Table.eq_of_key stored huser (id.trans hid.symm)
      rw [hold.verifies exact] at knows
      obtain hsame := of_decide_eq_true (Option.some.inj knows)
      exact hsame ▸ hashed
  · exact absurd ⟨⟨hash, h.proves⟩, fun req free hdemand => hlogin ⟨req, free, hdemand⟩⟩ hkept

/-- The password that is stored stays what it is over one step, unless the step replaces it. A login
that is served as one step verifies and rehashes the password of that step. -/
lemma Step.keeps_password (exact : Argon2Exact) (step : x.Step config i j) {user : User}
    (hhuman : user.kind = .human) (huser : i.tables.Records (.account user))
    (hkept : ¬ x.Replaces config user.id) (h : i.tables.PasswordIs user.id password) :
    j.tables.PasswordIs user.id password := by
  have hpath := step.follows
  have hold : x.world.tables.PasswordIs user.id password := step.pre ▸ h
  refine Effect.invariant (I := fun t => t.PasswordIs user.id password) ?_ hpath h
  rintro t t' e hentitled happly ⟨q, hq, hid, hhash⟩
  have hfact : t.Records (.password user.id q.passwordHash) := ⟨q, hq, hid, rfl⟩
  rcases Effect.keeps happly hfact with htakes | ⟨q', hq', hid', hsame⟩
  · cases e with
    | setPassword userId newHash now =>
      obtain rfl : userId = user.id := htakes
      cases happly
      exact .set ⟨q, hq, hid⟩ (hentitled.sets_same exact hkept hold)
    | deleteUser userId =>
      -- only service accounts are deleted
      obtain rfl : user.id = userId := Option.some.inj htakes
      obtain ⟨deleted, hdeleted, hdid, hkind⟩ := hentitled.isServiceAccount
      obtain ⟨human, hmem, hrow⟩ := huser
      rw [step.pre] at hdeleted
      have hhid : human.id = user.id := by rw [← hrow]
      obtain rfl := Table.eq_of_key hdeleted hmem (hdid.trans hhid.symm)
      have hboth : deleted.kind = user.kind := by rw [← hrow]
      rw [hkind, hhuman] at hboth
      cases hboth
    | _ => exact False.elim htakes
  · exact ⟨q', hq', hid', hsame ▸ hhash⟩

/-- Where demands are served one after the other, none in flight while another is served: once a
password has been set, whoever sends what and whichever statements fail, unless a demand of the run may
replace it, a user that goes by a name alone logs in, while the database answers, with that password,
provided that it is a member somewhere and that tokens can be signed, and with no other one. -/
theorem password_lasts (exact : Argon2Exact) (step : x.Step config i s)
    (hdistinct : i.tables.PrefixesDistinct) {user : User} (hhuman : user.kind = .human)
    (huser : s.tables.Records (.account user)) (sets : x.SetsPassword config user.id password)
    (run : Run (Step config) s ms j) (kept : ∀ m ∈ ms, ¬ m.label.Replaces config user.id) {w : World}
    (htables : w.tables = j.tables) (hw : w.Healthy) {name : String}
    (denotes : w.tables.Denotes name user.id) (presented : String) :
    (presented = password → w.tables.membershipsOf user.id ≠ [] →
      (∀ claims, ∃ token, JsonWebToken.encodeToken config.secret claims = some token) →
      ∃ out v, (login config ⟨name, presented⟩).run w = (.ok out, v) ∧ out.userId = user.id) ∧
    (presented ≠ password →
      ∃ v, (login config ⟨name, presented⟩).run w = (.error .invalidCredentials, v)) := by
  have hset : s.tables.PasswordIs user.id password :=
    step.post ▸ sets.stored (step.pre.symm ▸ hdistinct)
  have hboth : j.tables.Records (.account user) ∧ j.tables.PasswordIs user.id password :=
    run.invariant
      (fun k => k.tables.Records (.account user) ∧ k.tables.PasswordIs user.id password)
      (fun m => ¬ m.label.Replaces config user.id) ⟨huser, hset⟩
      (fun _ _ _ step hkept h => ⟨step.keeps_human hhuman h.1,
        step.keeps_password exact hhuman h.1 hkept h.2⟩) kept
  rw [← htables] at hboth
  exact login_of exact hw denotes hboth.2

end Arrival

/-! ## A run -/

section Runs

/-- A platform with the owner's session that signs whatever it is given. -/
@[reducible] def changePlatform : Platform where
  __ := signingPlatform ownerSession
  encodeToken _ _ := some "session"

/-- The tables after the owner of `acme` has changed the password. -/
def passwordChanged : Tables :=
  (@Arrival.serve changePlatform ⟨id⟩ ⟨fun _ => "", fun _ => none⟩ runConfig ownerChanges).tables

/-- Somebody tries the old password. -/
def triesOld : Arrival := ⟨.calm passwordChanged 5, aliceLogsIn.demand⟩

/-- The tables after the old password was tried. -/
def oldTried : Tables :=
  (@Arrival.serve changePlatform ⟨id⟩ ⟨fun _ => "", fun _ => none⟩ runConfig triesOld).tables

/-- The owner logs in with the new password, and not with the old one. -/
theorem password_lasts_ownerChanges :
    (∃ out v, (@login changePlatform.toArgon2 changePlatform.toJsonWebToken runConfig
      ⟨"alice", "battery staple"⟩).run (.calm oldTried 9) = (Except.ok out, v) ∧
        out.userId = 0x11) ∧
    ∃ v, (@login changePlatform.toArgon2 changePlatform.toJsonWebToken runConfig
      ⟨"alice", "correct horse"⟩).run (.calm oldTried 9) =
        (Except.error LoginError.invalidCredentials, v) := by
  let _ : Platform := changePlatform
  let _ : Sha256 := ⟨id⟩
  let _ : AuditCursorText := ⟨fun _ => "", fun _ => none⟩
  have exact : Argon2Exact := argon2Exact_plain
  have hchange : Arrival.Step runConfig ⟨ownerTables, 0⟩ ownerChanges ⟨passwordChanged, 0⟩ :=
    ⟨rfl, le_rfl, rfl, rfl⟩
  have htry : Arrival.Step runConfig ⟨passwordChanged, 0⟩ triesOld ⟨oldTried, 5⟩ :=
    ⟨rfl, by decide, rfl, rfl⟩
  have hdistinct : ownerTables.PrefixesDistinct := fun _ h => absurd h List.not_mem_nil
  have hstored : ∃ q ∈ passwordChanged.users.rows, { q with passwordHash := "", updatedAt := 0 } =
      (⟨0x11, "alice", "alice@acme.example", "", .human, 0, 0⟩ : User) := by decide +kernel
  have huser : passwordChanged.Records
      (.account ⟨0x11, "alice", "alice@acme.example", "", .human, 0, 0⟩) := hstored
  have carried : ownerHeaders.credential = some ("session", .authorizationBearer) := by decide +kernel
  have noKey : ParsedKey.parse "session" = none := by decide +kernel
  have decoded : decodeAccessToken runConfig.secret runConfig.issuer "session" 0 = some ownerSession :=
    by decide +kernel
  have notRevoked : ownerTables.revoked ownerSession.jti 0 = false := by decide +kernel
  have presented := Principal.Presented.token (w := .calm ownerTables 0) carried noKey decoded notRevoked
  have answer : ((respond runConfig ownerHeaders
      (.changePassword ⟨"correct horse", "battery staple"⟩)).run (.calm ownerTables 0)).1 =
        .ok (.status 204) := by decide +kernel
  have sets : ownerChanges.SetsPassword runConfig 0x11 "battery staple" :=
    .changes rfl presented rfl rfl answer
  have hkept : ∀ m ∈ [Move.mk (Instant.mk passwordChanged 0) triesOld ⟨oldTried, 5⟩],
      ¬ m.label.Replaces runConfig 0x11 := by
    rintro m hm ⟨-, hno⟩
    obtain rfl := List.mem_singleton.mp hm
    exact hno _ rfl rfl
  have hhealthy : (World.calm oldTried 9).Healthy := fun n => by simp [World.answersAll, World.calm]
  have hdenotes : oldTried.Denotes "alice" 0x11 := by
    have hnamed : ∃ user ∈ oldTried.users.rows, user.id = 0x11 ∧
        (user.username = "alice" ∨ user.email = "alice") := by decide +kernel
    have halone : ∀ user ∈ oldTried.users.rows, (user.username = "alice" ∨ user.email = "alice") →
        user.id = 0x11 := by decide +kernel
    exact ⟨hnamed, halone⟩
  have hmember : oldTried.membershipsOf 0x11 ≠ [] := by decide +kernel
  have hlasts := Arrival.password_lasts exact hchange hdistinct rfl huser sets (.single htry) hkept
    (w := .calm oldTried 9) rfl hhealthy hdenotes
  exact ⟨(hlasts "battery staple").1 rfl hmember fun _ => ⟨_, rfl⟩,
    (hlasts "correct horse").2 (by decide)⟩

end Runs
end Egras
