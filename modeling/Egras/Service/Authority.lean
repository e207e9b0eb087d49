import Egras.Security.Seeding
import Egras.Service.Provenance

/-!
# Who sets a password

What the provenance of facts says about secrets. Over every run the stored passwords, key secrets and
reset tokens are hashes (`Arrival.secrets_hashed`), and the password of a human account changes only
at the hands of somebody who knows the old one, or who presents a reset token that the service has
made for that account (`Arrival.password_authority`).
-/

namespace Egras
open Lib Relation

/-- The secrets in the tables are hashes, but for the sentinel that no password has. -/
structure Tables.SecretsHashed [Argon2] [Sha256] (t : Tables) : Prop where
  passwords : ∀ user ∈ t.users,
    user.passwordHash = "!" ∨ ∃ password, HashOf password user.passwordHash
  keys : ∀ k ∈ t.apiKeys, ∃ secret, HashOf secret k.secretHash
  resetTokens : ∀ p ∈ t.passwordResetTokens, ∃ rawBytes, p.tokenHash = tokenHashOf rawBytes

namespace Arrival
variable [Platform] [Sha256] {config : JwtConfig} {x : Arrival} {t : Tables} {u : Uuid}
  {hash : String} {now : Timestamp}

/-! ## Passwords -/

/-- A demand proves that it may set the password of an account. -/
inductive ProvesPassword (config : JwtConfig) (x : Arrival) (u : Uuid) (hash : String) : Prop
  /-- The user itself, in an own session and with the old password. -/
  | changes {headers : Headers} {req : ChangePasswordInput} {p : Principal} {user : User}
      (demand : x.demand = .guarded headers (.changePassword req))
      (presented : Principal.Presented config headers x.world p)
      (human : p.kind.isHuman = true) (own : p.user = u)
      (stored : user ∈ x.world.tables.users) (id : user.id = u)
      (knows : Argon2.verifyPassword req.currentPassword user.passwordHash = some true)
      (hashed : HashOf req.newPassword hash)
  /-- Somebody who logs in with the password, which is hashed anew. -/
  | logsIn {req : LoginInput} {free : (Operation.login req).needsCaller = false} {user : User}
      (demand : x.demand = .unguarded (.login req) free)
      (stored : user ∈ x.world.tables.users) (id : user.id = u)
      (named : user.Named req.usernameOrEmail)
      (knows : Argon2.verifyPassword req.password user.passwordHash = some true)
      (hashed : HashOf req.password hash)
  /-- Somebody with a reset token of the account that has neither been used nor expired. -/
  | confirms {req : PasswordResetConfirmInput}
      {free : (Operation.passwordResetConfirm req).needsCaller = false} {p : PasswordResetToken}
      (demand : x.demand = .unguarded (.passwordResetConfirm req) free)
      (stored : p ∈ x.world.tables.passwordResetTokens) (owner : p.userId = u)
      (presented : presentedHash req.rawToken = some p.tokenHash)
      (unused : p.usedAt = none) (live : x.world.now < p.expiresAt)
      (hashed : HashOf req.newPassword hash)

/-- Whoever sets a password proves that it may. -/
lemma Entitles.proves (h : x.Entitles config t (.setPassword u hash now)) :
    x.ProvesPassword config u hash := by
  obtain ⟨w, demand⟩ := x
  cases demand with
  | guarded headers route =>
    obtain ⟨p, c, hpresented, hc, hpasses, hpermits⟩ := h
    cases route with
    | changePassword req =>
      obtain ⟨hown, hhashed, user, hmem, hid, hknows⟩ := hpermits
      exact .changes rfl hpresented (hpasses.human rfl) (hc.user.symm.trans hown.symm) hmem hid
        hknows hhashed
    | resource n action => cases action <;> exact False.elim hpermits
    | _ => exact False.elim hpermits
  | unguarded operation free =>
    cases operation with
    | request _ _ _ | call _ => cases free
    | login req =>
      obtain ⟨hhashed, user, hmem, hid, hnamed, hknows⟩ := h
      exact .logsIn rfl hmem hid hnamed hknows hhashed
    | passwordResetConfirm req =>
      obtain ⟨hhashed, p, hmem, howner, hpresented, hunused, hlive⟩ := h
      exact .confirms rfl hmem howner hpresented hunused hlive hhashed
    | _ => exact False.elim h

/-- A demand is a request for a reset token of an account, whose hash is the one of the bytes that the
demand draws. -/
def RequestsReset (x : Arrival) (u : Uuid) (tokenHash : String) : Prop :=
  ∃ ttlSecs req free, x.demand = .unguarded (.passwordResetRequest ttlSecs req) free ∧
    (∃ user ∈ x.world.tables.users, user.id = u ∧ user.Named req.email) ∧
    tokenHash = tokenHashOf (x.world.nextBytes 32)

/-- Whoever makes a reset token has been asked for it. -/
lemma Entitles.requestsReset {p : PasswordResetToken} (h : x.Entitles config t (.addResetToken p)) :
    x.RequestsReset p.userId p.tokenHash := by
  obtain ⟨w, demand⟩ := x
  cases demand with
  | guarded headers route =>
    obtain ⟨_, _, -, -, -, hpermits⟩ := h
    cases route with
    | resource n action => cases action <;> exact False.elim hpermits
    | _ => exact False.elim hpermits
  | unguarded operation free =>
    cases operation with
    | request _ _ _ | call _ => cases free
    | passwordResetRequest ttlSecs req =>
      obtain ⟨-, hhash, -, huser⟩ := h
      exact ⟨ttlSecs, req, free, rfl, huser, hhash⟩
    | _ => exact False.elim h

/-- The password of a new account is the sentinel or a hash. -/
lemma Entitles.addUser_hashed {user : User} (h : x.Entitles config t (.addUser user)) :
    user.passwordHash = "!" ∨ ∃ password, HashOf password user.passwordHash := by
  obtain ⟨w, demand⟩ := x
  cases demand with
  | guarded headers route =>
    obtain ⟨_, _, -, -, -, hpermits⟩ := h
    cases route with
    | register req =>
      obtain ⟨-, -, -, hhashed⟩ := hpermits
      exact Or.inr ⟨_, hhashed⟩
    | resource n action =>
      cases action with
      | createServiceAccount name description => exact Or.inl hpermits.2.1
      | _ => exact False.elim hpermits
    | _ => exact False.elim hpermits
  | unguarded operation free =>
    cases operation with
    | request _ _ _ | call _ => cases free
    | bootstrapSeedAdmin input =>
      obtain ⟨-, -, -, hhashed⟩ := h
      exact Or.inr ⟨_, hhashed⟩
    | _ => exact False.elim h

/-- The secret of a new key is hashed. -/
lemma Entitles.addKey_hashed {k : ApiKeyRecord} (h : x.Entitles config t (.addKey k)) :
    ∃ secret, HashOf secret k.secretHash := by
  obtain ⟨w, demand⟩ := x
  cases demand with
  | guarded headers route =>
    obtain ⟨_, _, -, -, -, hpermits⟩ := h
    cases route with
    | resource n action =>
      cases action with
      | createApiKey req =>
        obtain ⟨-, -, hhashed, -⟩ := hpermits
        exact hhashed
      | rotateApiKey req =>
        obtain ⟨-, -, hhashed, -⟩ := hpermits
        exact hhashed
      | _ => exact False.elim hpermits
    | _ => exact False.elim hpermits
  | unguarded operation free =>
    cases operation with
    | request _ _ _ | call _ => cases free
    | _ => exact False.elim h

variable [AuditCursorText] {i j : Instant} {ms : List (Move Instant Arrival)}

/-- A reset token that is stored after a run was there before or has been asked for. -/
lemma resetToken_run {id : Uuid} (run : Run (Step config) i ms j)
    (h : j.tables.Records (.resetToken id u hash)) :
    i.tables.Records (.resetToken id u hash) ∨ ∃ m ∈ ms, m.label.RequestsReset u hash := by
  rcases origin_run run h with ⟨m, hm, s, e, s', ⟨-, hentitled, -, -⟩, -, -, hmakes⟩ | hold
  · cases e with
    | addResetToken p =>
      obtain ⟨-, rfl, rfl⟩ := hmakes
      exact Or.inr ⟨m, hm, hentitled.requestsReset⟩
    | _ => exact False.elim hmakes
  · exact Or.inl hold

/-- Over every run, whoever sends what and whatever fails on the way: a human account that is there at
the start keeps its password hash, unless a demand of the run proves that it may set another one; and
every reset token of the account that could serve as the proof was stored at the start or has been
made by the service in answer to an earlier request for the name or the email of the account. -/
theorem password_authority {user : User} (run : Run (Step config) i ms j)
    (hhuman : user.kind = .human) (huser : i.tables.Records (.account user))
    (h : j.tables.Records (.password user.id hash)) :
    i.tables.Records (.password user.id hash) ∨
    ∃ before m after, ms = before ++ m :: after ∧ m.label.ProvesPassword config user.id hash ∧
      ∀ p ∈ m.label.world.tables.passwordResetTokens, p.userId = user.id →
        i.tables.Records (.resetToken p.id user.id p.tokenHash) ∨
        ∃ n ∈ before, n.label.RequestsReset user.id p.tokenHash := by
  refine or_iff_not_imp_left.mpr fun hnew => ?_
  obtain ⟨m, hm, s, e, s', ⟨hpath, hentitled, happly, -⟩, -, -, hmakes⟩ :=
    (origin_run run h).resolve_right hnew
  obtain ⟨before, after, hms, first, -⟩ := run.split hm
  have hpre : m.label.world.tables = m.pre.tables := (run.step_of_mem hm).pre
  refine ⟨before, m, after, hms, ?_, fun p hp howner => ?_⟩
  · cases e with
    | setPassword userId newHash now =>
      obtain ⟨rfl, rfl⟩ := hmakes
      exact hentitled.proves
    | addUser new =>
      -- the account is still there, so that no new one takes its identifier
      exfalso
      obtain ⟨hid, -⟩ := hmakes
      have hstored := human_run first hhuman huser
      rw [← hpre] at hpath hstored
      obtain ⟨q, hq, hsame⟩ := keeps_human hpath hhuman hstored
      have hfree : s.hasUser new.id = false := (Tables.insertUser_eq_ok happly).1.id
      have hqid : q.id = user.id := by rw [← hsame]
      have htaken : s.hasUser new.id = true := Tables.hasUser_iff.mpr ⟨q, hq, hqid.trans hid.symm⟩
      rw [hfree] at htaken
      cases htaken
    | _ => exact False.elim hmakes
  · rw [hpre] at hp
    exact resetToken_run first ⟨p, hp, rfl, howner, rfl⟩

/-! ## Secrets at rest -/

/-- Over every run, whoever sends what and whatever fails on the way, the stored secrets stay hashes. -/
theorem secrets_hashed (run : Run (Step config) i ms j) (h : i.tables.SecretsHashed) :
    j.tables.SecretsHashed where
  passwords user huser := by
    have hfact : j.tables.Records (.password user.id user.passwordHash) := ⟨user, huser, rfl, rfl⟩
    rcases origin_run run hfact with ⟨m, -, s, e, s', ⟨-, hentitled, -, -⟩, -, -, hmakes⟩ |
      ⟨q, hq, -, hsame⟩
    · cases e with
      | addUser new =>
        obtain ⟨-, hsame⟩ := hmakes
        rw [← hsame]
        exact hentitled.addUser_hashed
      | setPassword userId newHash now =>
        obtain ⟨-, hsame⟩ := hmakes
        rw [← hsame]
        cases hentitled.proves with
        | changes _ _ _ _ _ _ _ hashed => exact Or.inr ⟨_, hashed⟩
        | logsIn _ _ _ _ _ hashed => exact Or.inr ⟨_, hashed⟩
        | confirms _ _ _ _ _ _ hashed => exact Or.inr ⟨_, hashed⟩
      | _ => exact False.elim hmakes
    · rw [← hsame]
      exact h.passwords q hq
  keys k hk := by
    have hfact : j.tables.Records (.keySecret k.id k.serviceAccountUserId k.keyPrefix k.secretHash) :=
      ⟨k, hk, rfl, rfl, rfl, rfl⟩
    rcases origin_run run hfact with ⟨m, -, s, e, s', ⟨-, hentitled, -, -⟩, -, -, hmakes⟩ |
      ⟨q, hq, -, -, -, hsame⟩
    · cases e with
      | addKey new =>
        obtain ⟨-, -, -, hsame⟩ := hmakes
        rw [← hsame]
        exact hentitled.addKey_hashed
      | _ => exact False.elim hmakes
    · rw [← hsame]
      exact h.keys q hq
  resetTokens p hp := by
    rcases resetToken_run run ⟨p, hp, rfl, rfl, rfl⟩ with ⟨q, hq, -, -, hsame⟩ | ⟨m, -, hrequest⟩
    · rw [← hsame]
      exact h.resetTokens q hq
    · obtain ⟨_, _, _, -, -, hhash⟩ := hrequest
      exact ⟨_, hhash⟩

end Arrival

/-! ## Two runs -/

section Runs

/-- The owner of `acme` changes the password. -/
def ownerChanges : Arrival :=
  ⟨.calm ownerTables 0, .guarded ownerHeaders (.changePassword ⟨"correct horse", "battery staple"⟩)⟩

/-- The tables after that. -/
def ownerChanged : Tables :=
  (@Arrival.serve (signingPlatform ownerSession) ⟨id⟩ ⟨fun _ => "", fun _ => none⟩ runConfig
    ownerChanges).tables

/-- The owner has proved that it may. -/
theorem password_authority_ownerChanges :
    @Arrival.ProvesPassword (signingPlatform ownerSession) ⟨id⟩ runConfig ownerChanges 0x11
      "m=19456,t=2,p=1$battery staple" := by
  let _ : Platform := signingPlatform ownerSession
  let _ : Sha256 := ⟨id⟩
  let _ : AuditCursorText := ⟨fun _ => "", fun _ => none⟩
  have hstep : Arrival.Step runConfig ⟨ownerTables, 0⟩ ownerChanges ⟨ownerChanged, 0⟩ :=
    ⟨rfl, le_rfl, rfl, rfl⟩
  have hnew : ∃ q ∈ ownerChanged.users.rows,
      q.id = 0x11 ∧ q.passwordHash = "m=19456,t=2,p=1$battery staple" := by decide +kernel
  have hold : ¬ ∃ q ∈ ownerTables.users.rows,
      q.id = 0x11 ∧ q.passwordHash = "m=19456,t=2,p=1$battery staple" := by decide +kernel
  have halice : ownerTables.Records (.account ⟨0x11, "alice", "alice@acme.example", "", .human, 0, 0⟩) :=
    ⟨_, List.mem_cons_self, rfl⟩
  obtain hsame | ⟨before, m, after, hms, hproves, -⟩ :=
    Arrival.password_authority (.single hstep) rfl halice hnew
  · exact absurd hsame hold
  · have hm : m ∈ [Move.mk (Instant.mk ownerTables 0) ownerChanges ⟨ownerChanged, 0⟩] := by
      rw [hms]
      simp
    obtain rfl := List.mem_singleton.mp hm
    exact hproves

/-- The first administrator is seeded. -/
def seedsAdmin : Arrival :=
  ⟨.calm (.seededTables 0) 0, .unguarded (.bootstrapSeedAdmin retyped) rfl⟩

/-- The password of the first administrator is stored as a hash. -/
theorem secrets_hashed_seedsAdmin :
    @Tables.SecretsHashed (signingPlatform ownerSession).toArgon2 ⟨id⟩
      (@Arrival.serve (signingPlatform ownerSession) ⟨id⟩ ⟨fun _ => "", fun _ => none⟩ runConfig
        seedsAdmin).tables := by
  let _ : Platform := signingPlatform ownerSession
  let _ : Sha256 := ⟨id⟩
  let _ : AuditCursorText := ⟨fun _ => "", fun _ => none⟩
  have hstep : Arrival.Step runConfig ⟨.seededTables 0, 0⟩ seedsAdmin
      ⟨(seedsAdmin.serve runConfig).tables, 0⟩ := ⟨rfl, le_rfl, rfl, rfl⟩
  exact Arrival.secrets_hashed (.single hstep)
    ⟨fun _ h => absurd h List.not_mem_nil, fun _ h => absurd h List.not_mem_nil,
      fun _ h => absurd h List.not_mem_nil⟩

end Runs
end Egras
