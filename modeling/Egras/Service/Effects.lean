import Egras.Lib.Follows
import Egras.Resources.Outcome
import Egras.Security.Bootstrap
import Egras.Security.Passwords
import Egras.Security.Revocation

/-!
# The effects of the statements

Every statement of the service that writes, as a value (`Effect`) with what it does to the tables
(`Effect.apply`). The use cases follow the effects that they are allowed: one lemma for each of them
says what its policy `A` has to allow, for the tables in which the statement takes effect.
-/

namespace Egras
open Lib

/-- A statement that writes, with the values that it is sent with. -/
inductive Effect
  | addOrganisation (o : Organisation)
  | addUser (u : User)
  | setPassword (userId : Uuid) (hash : String) (now : Timestamp)
  | deleteUser (userId : Uuid)
  | addRole (r : UserOrganisationRole)
  | removeMember (userId organisationId : Uuid)
  | addResetToken (p : PasswordResetToken)
  | dropOldestPending (userId : Uuid) (now : Timestamp)
  | consumeToken (tokenId : Uuid) (now : Timestamp)
  | revokeToken (r : RevokedToken)
  | addServiceAccount (sa : ServiceAccount)
  | touchServiceAccount (saUserId : Uuid) (now : Timestamp)
  | addKey (k : ApiKeyRecord)
  | revokeKey (keyId : Uuid) (owner : Option Uuid) (now : Timestamp)
  | touchKey (keyId : Uuid) (now : Timestamp)
  | addChannel (c : InboundChannel)
  | updateChannel (organisationId channelId : Uuid) (name : String) (description : Option String)
      (channelType : ChannelType) (isActive : Bool) (now : Timestamp)
  | deleteChannel (organisationId channelId : Uuid)
  | setFlag (f : OrgFeatureOverride)
  | clearFlag (organisationId : Uuid) (slug : String)
  | addEvent (e : AuditEvent)
deriving DecidableEq

namespace Tables

/-- Mark a token as used. -/
def consumeToken (t : Tables) (id : Uuid) (now : Timestamp) : Tables :=
  { t with
    passwordResetTokens := t.passwordResetTokens.updateWhere (fun p => p.id = id)
      (fun p => { p with usedAt := some now }) (consumeToken_id now) }

/-- `UPDATE service_accounts SET last_used_at`. -/
def touchServiceAccount (t : Tables) (saUserId : Uuid) (now : Timestamp) : Tables :=
  { t with
    serviceAccounts := t.serviceAccounts.updateWhere
      (fun sa => sa.userId = saUserId && staleUse sa.lastUsedAt now)
      (fun sa => { sa with lastUsedAt := some now }) (touchServiceAccount_key now) }

/-- `UPDATE api_keys SET last_used_at`. -/
def touchKey (t : Tables) (keyId : Uuid) (now : Timestamp) : Tables :=
  { t with
    apiKeys := t.apiKeys.updateWhere (fun k => k.id = keyId && staleUse k.lastUsedAt now)
      (fun k => { k with lastUsedAt := some now }) (touchKey_key now) }

/-- `DELETE FROM inbound_channels`. -/
def deleteChannel (t : Tables) (organisationId channelId : Uuid) : Tables :=
  { t with
    inboundChannels := t.inboundChannels.deleteWhere
      (fun c => c.id = channelId && c.organisationId = organisationId) }

/-- `DELETE FROM organisation_features`. -/
def clearFlag (t : Tables) (organisationId : Uuid) (slug : String) : Tables :=
  { t with
    organisationFeatures := t.organisationFeatures.deleteWhere
      (fun f => f.key = (organisationId, slug)) }

end Tables

/-- What an effect does to the tables, unless a constraint refuses it. -/
def Effect.apply [CaseMapping] (t : Tables) : Effect → Except SqlError Tables
  | addOrganisation o => t.insertOrganisation o
  | addUser u => t.insertUser u
  | setPassword userId hash now => .ok (t.setPasswordHash userId hash now)
  | deleteUser userId => t.deleteUser userId
  | addRole r => t.assignRole r
  | removeMember userId organisationId => .ok (t.removeMember userId organisationId)
  | addResetToken p => t.insertPasswordResetToken p
  | dropOldestPending userId now => .ok (t.dropOldestPending userId now)
  | consumeToken tokenId now => .ok (t.consumeToken tokenId now)
  | revokeToken r => t.insertRevokedToken r
  | addServiceAccount sa => t.insertServiceAccount sa
  | touchServiceAccount saUserId now => .ok (t.touchServiceAccount saUserId now)
  | addKey k => t.insertApiKey k
  | revokeKey keyId none now => .ok (t.revokeActive keyId now)
  | revokeKey keyId (some owner) now => .ok (t.revokeOwn owner keyId now)
  | touchKey keyId now => .ok (t.touchKey keyId now)
  | addChannel c => t.insertChannel c
  | updateChannel organisationId channelId name description channelType isActive now =>
    (t.updateChannel organisationId channelId name description channelType isActive now).map Prod.snd
  | deleteChannel organisationId channelId => .ok (t.deleteChannel organisationId channelId)
  | setFlag f => t.upsertFeature f
  | clearFlag organisationId slug => .ok (t.clearFlag organisationId slug)
  | addEvent e => t.insertAuditEvent e

/-- An effect that a policy allows in the tables that it finds. -/
def Effect.Step [CaseMapping] (A : Tables → Effect → Prop) (t t' : Tables) : Prop :=
  ∃ e, A t e ∧ Effect.apply t e = .ok t'

/-- An update of a channel is the statement, whatever this returns. -/
lemma Effect.apply_updateChannel [CaseMapping] {t t' : Tables} {org channelId : Uuid} {name : String}
    {description : Option String} {channelType : ChannelType} {isActive : Bool} {now : Timestamp}
    (h : Effect.apply t (.updateChannel org channelId name description channelType isActive now) =
      .ok t') :
    ∃ a, t.updateChannel org channelId name description channelType isActive now = .ok (a, t') := by
  cases hupdate : t.updateChannel org channelId name description channelType isActive now with
  | error e =>
    rw [Effect.apply, hupdate] at h
    cases h
  | ok r =>
    rw [Effect.apply, hupdate] at h
    cases h
    exact ⟨r.1, rfl⟩

/-- What every allowed effect preserves holds along such effects. -/
lemma Effect.invariant [CaseMapping] {A : Tables → Effect → Prop} {I : Tables → Prop} {t t' : Tables}
    (hI : ∀ s s' e, A s e → Effect.apply s e = .ok s' → I s → I s')
    (h : Relation.ReflTransGen (Effect.Step A) t t') (ht : I t) : I t' := by
  induction h with
  | refl => exact ht
  | tail _ hstep ih =>
    obtain ⟨e, he, happly⟩ := hstep
    exact hI _ _ e he happly ih

/-- The effects on users. -/
def Effect.OnUsers : Effect → Prop
  | addUser _ | setPassword _ _ _ | deleteUser _ => True
  | _ => False

/-- The other effects leave the users alone. -/
lemma Effect.users_eq [CaseMapping] {t t' : Tables} {e : Effect} (he : ¬ e.OnUsers)
    (h : Effect.apply t e = .ok t') : t'.users = t.users := by
  cases e with
  | addUser _ | setPassword _ _ _ | deleteUser _ => exact absurd trivial he
  | addOrganisation o =>
    obtain ⟨-, rfl⟩ := Tables.insertOrganisation_eq_ok h
    exact Tables.addOrganisation_users
  | addRole r =>
    by_cases hadd : t.Addable r
    · have hrow := h.symm.trans (Tables.assignRole_of_addable hadd)
      exact (congrArg Tables.users (Except.ok.inj hrow)).trans Tables.addRole_users
    · exact congrArg Tables.users (Tables.assignRole_eq_ok h hadd)
  | addResetToken p =>
    obtain ⟨rows, -, rfl⟩ := Tables.insertPasswordResetToken_eq_ok h
    rfl
  | revokeToken r =>
    obtain ⟨⟨rows, rfl⟩, -⟩ := Tables.insertRevokedToken_eq_ok h
    rfl
  | addServiceAccount sa =>
    rw [(Tables.insertServiceAccount_eq_ok h).1]
    exact Tables.addServiceAccount_users
  | addKey k =>
    obtain ⟨-, rfl⟩ := Tables.insertApiKey_eq_ok h
    exact Tables.addKey_users
  | addChannel c =>
    obtain ⟨rows, -, rfl⟩ := Tables.insertChannel_eq_ok h
    rfl
  | updateChannel org channelId name description channelType isActive now =>
    obtain ⟨a, hupdate⟩ := Effect.apply_updateChannel h
    rcases Tables.updateChannel_cases hupdate with ⟨-, rfl⟩ | ⟨-, rfl⟩ <;> rfl
  | setFlag f =>
    obtain ⟨-, rfl⟩ := Tables.upsertFeature_eq_ok h
    rfl
  | addEvent e =>
    rw [(Tables.insertAuditEvent_eq_ok h).2.2]
  | revokeKey id owner now => cases owner <;> cases h <;> rfl
  | removeMember _ _ | dropOldestPending _ _ | consumeToken _ _ | touchServiceAccount _ _
  | touchKey _ _ | deleteChannel _ _ | clearFlag _ _ =>
    cases h
    rfl

/-- What has no effect on users leaves them alone. -/
lemma Effect.users_of_follows [CaseMapping] {A : Tables → Effect → Prop} {t t' : Tables}
    (hA : ∀ t e, A t e → ¬ e.OnUsers) (h : Relation.ReflTransGen (Effect.Step A) t t') :
    t'.users = t.users :=
  Effect.invariant (I := fun s => s.users = t.users)
    (fun _ _ _ he happly hs => (Effect.users_eq (hA _ _ he) happly).trans hs) h rfl

/-- A hash is one that `hash_password` makes of a password. -/
def HashOf [Argon2] (password hash : String) : Prop :=
  ∃ salt, Argon2.hashPassword password salt = some hash

/-- The bytes that are drawn next. -/
def World.nextBytes (w : World) (n : ℕ) : List UInt8 := (w.random.headD []).takeD n 0

/-- An identifier is the one of the role with a code. -/
def Tables.Codes (t : Tables) (code : String) (roleId : Uuid) : Prop :=
  (t.roleByCode code).map Role.id = some roleId

/-- An insertion of a role row that is accepted is accepted by the idempotent one as well. -/
lemma Tables.assignRole_of_insert {t t' : Tables} {r : UserOrganisationRole}
    (h : t.insertUserOrganisationRole r = .ok t') : t.assignRole r = .ok t' := by
  have hadd := insertUserOrganisationRole_eq_ok h
  rw [assignRole_of_addable hadd, ← insertUserOrganisationRole_of_addable hadd, h]

section Statements
variable [CaseMapping] {ε α β : Type} {A : Tables → Effect → Prop} {w : World}

/-- A statement that has no effect or one that is allowed. -/
lemma follows_execute {f : World → Except SqlError (α × Tables)}
    (h : ∀ a t, f w = .ok (a, t) → t = w.tables ∨ Effect.Step A w.tables t) :
    Prog.Follows World.tables (Effect.Step A) w (execute f) := by
  unfold Prog.Follows
  rw [run_execute]
  unfold World.exec
  split
  · split
    · rename_i a t heffect
      rcases h a t heffect with rfl | hstep
      · exact .refl
      · exact .single hstep
    · exact .refl
  · exact .refl

/-- A statement that returns a known value. -/
lemma follows_returning {r : World → Except SqlError Tables} {a : World → α} {e : Effect}
    (happly : r w = Effect.apply w.tables e) (hA : A w.tables e) :
    Prog.Follows World.tables (Effect.Step A) w
      (execute fun w => do let t ← r w; return (a w, t)) :=
  follows_execute fun _ _ h => Or.inr ⟨e, hA, happly ▸ (return_eq_ok.mp h).1⟩

/-- A statement that is never refused. -/
lemma follows_accepted {f : World → α × Tables} {e : Effect}
    (happly : Effect.apply w.tables e = .ok (f w).2) (hA : A w.tables e) :
    Prog.Follows World.tables (Effect.Step A) w (execute fun w => .ok (f w)) := by
  refine follows_execute fun a t h => Or.inr ⟨e, hA, ?_⟩
  rw [happly, Except.ok.inj h]

/-- A transaction follows what its statements follow, whether it commits or rolls back. -/
lemma follows_transaction {conv : SqlError → ε} {body : Action ε α}
    (h : Prog.Follows World.tables (Effect.Step A) w.tick body) :
    Prog.Follows World.tables (Effect.Step A) w (transaction conv body) := by
  unfold Prog.Follows at h ⊢
  rw [run_transaction]
  split
  · split
    · rename_i a t hrun
      rw [hrun] at h
      split
      · exact h
      · exact .refl
    · exact .refl
  · exact .refl

/-- What follows a check may rely on it. -/
lemma follows_require_bind {c : Bool} {e : ε} {k : Unit → Action ε β}
    (hk : c = true → Prog.Follows World.tables (Effect.Step A) w (k ())) :
    Prog.Follows World.tables (Effect.Step A) w (require c e >>= k) := by
  cases c with
  | true => exact hk rfl
  | false => exact .fail

/-- What follows a lookup knows what it has found. -/
lemma follows_query_bind {f : World → α} {conv : SqlError → ε} {k : α → Action ε β}
    (hk : Prog.Follows World.tables (Effect.Step A) w.tick (k (f w))) :
    Prog.Follows World.tables (Effect.Step A) w ((query f).mapErr conv >>= k) := by
  unfold Prog.Follows at hk ⊢
  rw [run_query_bind]
  split
  · exact hk
  · exact .refl

end Statements

/-! ## Organisations and memberships -/

section Membership
variable [CaseMapping] {A : Tables → Effect → Prop} {w : World} {actor actorOrg : Uuid}

/-- A bare organisation is inserted under its name and business. -/
lemma follows_insertOrganisationRow {name business : String}
    (hA : ∀ o : Organisation, o.name = name → o.business = business → o.isOperator = false →
      A w.tables (.addOrganisation o)) :
    Prog.Follows World.tables (Effect.Step A) w (insertOrganisationRow name business) := by
  refine .bind_reads (reads_nowV7 fun _ _ => rfl) fun id t _ htables => .mapErr ?_
  exact follows_returning (e := .addOrganisation ⟨id, name, business, false, t.now, t.now⟩) rfl
    (htables ▸ hA _ rfl rfl rfl)

/-- The owner's row is one of an organisation that was not there before. -/
lemma follows_createWithInitialOwner {name business code : String} {creator : Uuid}
    (horg : ∀ o : Organisation, o.name = name → o.business = business → o.isOperator = false →
      A w.tables (.addOrganisation o))
    (hrole : ∀ t : Tables, ∀ r : UserOrganisationRole, r.userId = creator →
      w.tables.hasOrganisation r.organisationId = false → t.Codes code r.roleId →
      A t (.addRole r)) :
    Prog.Follows World.tables (Effect.Step A) w
      (createWithInitialOwner name business creator code) := by
  refine follows_transaction (.bind (follows_insertOrganisationRow horg) fun org v hrun => ?_)
  obtain ⟨-, hfree, rfl, -⟩ := createOrganisationRow_eq_ok hrun
  refine follows_query_bind ?_
  cases hfound : (v.tables.roleByCode code).map Role.id with
  | none => exact .fail
  | some roleId =>
    refine .then_reads (.mapErr (follows_execute fun a t h => ?_)) fun _ => Prog.Reads.ret
    have hinsert := (return_eq_ok.mp h).1
    exact Or.inr ⟨_, hrole _ ⟨_, _, roleId, _⟩ rfl hfree.id hfound,
      Tables.assignRole_of_insert hinsert⟩

/-- An organisation is created, and the creator made its owner when asked. -/
lemma follows_createOrganisation {input : CreateOrganisationInput}
    (horg : ∀ o : Organisation, o.name = trimWs input.name → o.business = trimWs input.business →
      o.isOperator = false → A w.tables (.addOrganisation o))
    (hrole : ∀ t : Tables, ∀ r : UserOrganisationRole, r.userId = actor →
      w.tables.hasOrganisation r.organisationId = false → t.Codes "org_owner" r.roleId →
      A t (.addRole r)) :
    Prog.Follows World.tables (Effect.Step A) w (createOrganisation actor actorOrg input) := by
  refine follows_require_bind fun _ => follows_require_bind fun _ => ?_
  cases hseed : input.seedCreatorAsOwner with
  | true =>
    refine .then_reads (follows_createWithInitialOwner horg hrole).mapErr fun org => ?_
    exact Prog.Reads.bind reads_tables_record fun _ => Prog.Reads.ret
  | false =>
    refine .then_reads (follows_insertOrganisationRow horg).mapErr fun org => ?_
    exact Prog.Reads.bind reads_tables_record fun _ => Prog.Reads.ret

/-- A user is added with the role that the code names. -/
lemma follows_addUserToOrganisation {input : AddUserToOrganisationInput}
    (hA : ∀ r : UserOrganisationRole, r.userId = input.userId → r.organisationId = input.orgId →
      w.tables.Codes input.roleCode r.roleId → A w.tables (.addRole r)) :
    Prog.Follows World.tables (Effect.Step A) w
      (addUserToOrganisation actor actorOrg input) := by
  refine .then_reads (.mapErr (follows_query_bind ?_)) fun _ => reads_tables_record
  cases hfound : (w.tables.roleByCode input.roleCode).map Role.id with
  | none => exact .fail
  | some roleId =>
    exact .mapErr (follows_returning (e := .addRole ⟨_, _, roleId, w.now⟩) rfl (hA _ rfl rfl hfound))

/-- A member is removed from the organisation. -/
lemma follows_removeUserFromOrganisation {input : RemoveUserFromOrganisationInput}
    (hA : A w.tables (.removeMember input.userId input.orgId)) :
    Prog.Follows World.tables (Effect.Step A) w
      (removeUserFromOrganisation actor actorOrg input) := by
  refine .then_reads (.mapErr (follows_transaction ?_)) fun _ => reads_tables_record
  refine follows_query_bind (follows_require_bind fun _ => ?_)
  refine follows_query_bind (follows_query_bind (follows_require_bind fun _ => .mapErr ?_))
  exact follows_accepted (e := .removeMember _ _) rfl hA

/-- The role row is written whether or not it is there already. -/
lemma follows_assigned {userId org roleId : Uuid} {event : Stamp → AuditEvent}
    (hA : ∀ now, A w.tables (.addRole ⟨userId, org, roleId, now⟩)) :
    Prog.Follows World.tables (Effect.Step A) w (do
      let already ← (hasRole userId org roleId).mapErr AssignRoleError.repo
      (assign userId org roleId).mapErr .repo
      if already then return ⟨false⟩
      else
        record event
        return ⟨true⟩ : Action AssignRoleError AssignRoleOutput) := by
  refine .bind_reads (reads_query fun _ => rfl).mapErr.mapErr fun already t _ htables => ?_
  refine .then_reads (.mapErr (.mapErr ?_)) fun _ => ?_
  · exact follows_returning (e := .addRole ⟨userId, org, roleId, t.now⟩) rfl (htables ▸ hA _)
  · cases already with
    | true => exact Prog.Reads.ret
    | false => exact Prog.Reads.bind reads_tables_record fun _ => Prog.Reads.ret

/-- An operator assigns a role to a member of the organisation. -/
lemma follows_operatorAssigns {input : AssignRoleInput}
    (hA : ∀ r : UserOrganisationRole, r.userId = input.targetUserId →
      r.organisationId = input.organisationId → w.tables.Codes input.roleCode r.roleId →
      w.tables.isMember input.targetUserId input.organisationId = true → A w.tables (.addRole r)) :
    Prog.Follows World.tables (Effect.Step A) w (assignRole actor actorOrg true input) := by
  refine .bind_reads (reads_query fun _ => rfl).mapErr fun target t _ htables => ?_
  refine .bind_reads reads_guardServiceAccount fun _ t' _ htables' => ?_
  refine .bind_reads (reads_query fun _ => rfl).mapErr.mapErr fun found t'' hfound htables'' => ?_
  obtain ⟨rfl, -, -⟩ := query_eq_ok (Prog.mapErr_eq_ok (Prog.mapErr_eq_ok hfound))
  have hsame : t''.tables = w.tables := htables''.trans (htables'.trans htables)
  cases hrole : t'.tables.roleByCode input.roleCode with
  | none => exact .fail
  | some role =>
    refine .bind_reads (reads_query fun _ => rfl).mapErr.mapErr fun member u hmember hu => ?_
    obtain ⟨rfl, -, -⟩ := query_eq_ok (Prog.mapErr_eq_ok (Prog.mapErr_eq_ok hmember))
    refine follows_require_bind fun hmember => follows_assigned fun now => ?_
    rw [hsame] at hmember
    rw [hu, hsame]
    refine hA _ rfl rfl ?_ hmember
    rw [← htables, ← htables']
    exact congrArg (Option.map Role.id) hrole

/-- A role is assigned to a member of the organisation, by a member unless an operator does it. -/
lemma follows_assignRole {isOperator : Bool} {input : AssignRoleInput}
    (hA : ∀ r : UserOrganisationRole, r.userId = input.targetUserId →
      r.organisationId = input.organisationId → w.tables.Codes input.roleCode r.roleId →
      w.tables.isMember input.targetUserId input.organisationId = true →
      (isOperator = false → w.tables.isMember actor input.organisationId = true) →
      A w.tables (.addRole r)) :
    Prog.Follows World.tables (Effect.Step A) w
      (assignRole actor actorOrg isOperator input) := by
  cases isOperator with
  | true =>
    exact follows_operatorAssigns fun r huser horg hcode hmember =>
      hA r huser horg hcode hmember fun h => by cases h
  | false =>
    refine .bind_reads (reads_query fun _ => rfl).mapErr.mapErr fun member t hmember htables => ?_
    obtain ⟨rfl, -, -⟩ := query_eq_ok (Prog.mapErr_eq_ok (Prog.mapErr_eq_ok hmember))
    refine follows_require_bind fun hactor => follows_operatorAssigns ?_
    rw [htables]
    exact fun r huser horg hcode hmember => hA r huser horg hcode hmember fun _ => hactor

end Membership
/-! ## Accounts and sessions -/

section Accounts
variable [CaseMapping] [Argon2] {A : Tables → Effect → Prop} {w : World} {actor actorOrg : Uuid}

/-- What follows the making of a hash. -/
lemma follows_hash_bind {ε β : Type} {password : String} {conv : Anyhow → ε}
    {k : String → Action ε β}
    (hk : ∀ hash bytes, HashOf password hash →
      Prog.Follows World.tables (Effect.Step A) { w with random := bytes } (k hash)) :
    Prog.Follows World.tables (Effect.Step A) w ((hashPassword password).mapErr conv >>= k) := by
  refine .bind_reads reads_hashPassword.mapErr fun hash t hrun _ => ?_
  obtain ⟨hhash, rfl⟩ := hashPassword_eq_ok (Prog.mapErr_eq_ok hrun)
  exact hk hash _ ⟨_, hhash⟩

omit [Argon2] in
/-- A human user is created with its role row. -/
lemma follows_createAndAddToOrg {username email hash code : String} {org : Uuid}
    (huser : ∀ u : User, u.username = username → u.email = email → u.passwordHash = hash →
      u.kind = .human → A w.tables (.addUser u))
    (hrole : ∀ t : Tables, ∀ r : UserOrganisationRole, r.organisationId = org →
      w.tables.hasUser r.userId = false → t.Codes code r.roleId → A t (.addRole r)) :
    Prog.Follows World.tables (Effect.Step A) w
      (createAndAddToOrg username email hash org code) := by
  refine follows_transaction (.bind_reads (reads_nowV7 fun _ _ => rfl) fun id v _ hv => ?_)
  refine .bind (.mapErr ?_) fun row t hrun => ?_
  · exact follows_returning (e := .addUser ⟨id, username, email, hash, .human, v.now, v.now⟩) rfl
      (hv ▸ huser _ rfl rfl rfl rfl)
  · obtain ⟨tables, heffect, rfl, -⟩ := execute_eq_ok (Prog.mapErr_eq_ok hrun)
    obtain ⟨hinsert, rfl⟩ := return_eq_ok.mp heffect
    obtain ⟨hfree, rfl⟩ := Tables.insertUser_eq_ok hinsert
    refine follows_query_bind ?_
    cases hfound : ((v.tables.addUser ⟨id, username, email, hash, .human, v.now, v.now⟩).roleByCode
        code).map Role.id with
    | none => exact .fail
    | some roleId =>
      refine .then_reads (.mapErr (follows_execute fun a t h => ?_)) fun _ => Prog.Reads.ret
      have hfresh : w.tables.hasUser id = false := by
        have hid := hfree.id
        rw [hv] at hid
        exact hid
      exact Or.inr ⟨_, hrole _ ⟨id, org, roleId, _⟩ rfl hfresh hfound,
        Tables.assignRole_of_insert (return_eq_ok.mp h).1⟩

/-- A human user is registered with the hash of its password. -/
lemma follows_registerUser {input : RegisterUserInput}
    (huser : ∀ u : User, u.username = trimWs input.username →
      u.email = CaseMapping.toLowercase (trimWs input.email) → u.kind = .human →
      HashOf input.password u.passwordHash → A w.tables (.addUser u))
    (hrole : ∀ t : Tables, ∀ r : UserOrganisationRole, r.organisationId = input.targetOrgId →
      w.tables.hasUser r.userId = false → t.Codes input.roleCode r.roleId → A t (.addRole r)) :
    Prog.Follows World.tables (Effect.Step A) w (registerUser actor actorOrg input) := by
  refine follows_require_bind fun _ => follows_require_bind fun _ => ?_
  refine follows_require_bind fun _ => follows_require_bind fun _ => ?_
  refine follows_hash_bind fun hash bytes hhash => ?_
  refine .then_reads (.mapErr (follows_createAndAddToOrg (fun u hname hemail hu hkind => ?_) hrole)) ?_
  · exact huser u hname hemail hkind (hu ▸ hhash)
  · exact fun user => Prog.Reads.bind reads_tables_record fun _ => Prog.Reads.ret

/-- The password is set once the current one has verified. -/
lemma follows_changePassword {input : ChangePasswordInput}
    (hA : ∀ hash now user, user ∈ w.tables.users → user.id = actor →
      Argon2.verifyPassword input.currentPassword user.passwordHash = some true →
      HashOf input.newPassword hash → A w.tables (.setPassword actor hash now)) :
    Prog.Follows World.tables (Effect.Step A) w (changePassword actor input) := by
  refine follows_require_bind fun _ => follows_query_bind ?_
  cases hfound : w.tables.users.find? actor with
  | none => exact .fail
  | some user =>
    obtain ⟨hmem, hid⟩ := Table.find?_eq_some.mp hfound
    refine .bind_reads Prog.Reads.ofExcept.mapErr fun ok t hverify htables => ?_
    refine follows_require_bind fun hok => ?_
    subst hok
    have hverified : Argon2.verifyPassword input.currentPassword user.passwordHash = some true := by
      have hrun := Prog.mapErr_eq_ok hverify
      rw [Prog.run_ofExcept] at hrun
      exact verifyPassword_eq_ok.mp (congrArg Prod.fst hrun)
    refine follows_hash_bind fun hash bytes hhash => ?_
    refine .then_reads (.mapErr ?_) fun _ => reads_tables_record
    exact follows_accepted (e := .setPassword actor hash t.now) rfl
      (htables ▸ hA hash t.now user hmem hid hverified hhash)

omit [Argon2] in
/-- The token of the session is revoked. -/
lemma follows_logout {jti : Uuid} {expiresAt : Timestamp}
    (hA : A w.tables (.revokeToken ⟨jti, actor, expiresAt⟩)) :
    Prog.Follows World.tables (Effect.Step A) w (logout actor actorOrg jti expiresAt) := by
  refine .then_reads (.mapErr ?_) fun _ => reads_tables_record
  exact follows_returning (e := .revokeToken _) rfl hA

omit [CaseMapping] in
/-- Whom a login authenticates: a stored user whose hash verifies the password. -/
lemma authenticate_eq_ok {input : LoginInput} {u : User} {v : World}
    (h : (authenticate input).run w = (.ok u, v)) :
    u ∈ w.tables.users ∧
      Argon2.verifyPassword input.password u.passwordHash = some true := by
  obtain ⟨found, w₁, hfind, h⟩ := Prog.bind_eq_ok h
  obtain ⟨rfl, rfl, -⟩ := query_eq_ok (Prog.mapErr_eq_ok hfind)
  split at h
  · obtain ⟨_, _, -, h⟩ := Prog.bind_eq_ok h
    cases h
  · rename_i q hq
    obtain ⟨ok, w₂, hverify, h⟩ := Prog.bind_eq_ok h
    have hverify := Prog.mapErr_eq_ok hverify
    rw [Prog.run_ofExcept] at hverify
    cases ok with
    | true =>
      cases h
      exact ⟨List.mem_of_find?_eq_some hq, verifyPassword_eq_ok.mp (Prod.mk.inj hverify).1⟩
    | false =>
      obtain ⟨_, _, -, h⟩ := Prog.bind_eq_ok h
      cases h

omit [CaseMapping] in
/-- A password check that succeeds is one of a user with the given name or email. -/
lemma authenticate_named {input : LoginInput} {user : User} {v : World}
    (h : (authenticate input).run w = (.ok user, v)) :
    user.username = input.usernameOrEmail ∨ user.email = input.usernameOrEmail := by
  obtain ⟨found, t, hquery, h⟩ := Prog.bind_eq_ok h
  obtain ⟨rfl, -, -⟩ := query_eq_ok (Prog.mapErr_eq_ok hquery)
  cases hfound : w.tables.users.rows.find?
      (fun u => u.username = input.usernameOrEmail || u.email = input.usernameOrEmail) with
  | none =>
    rw [hfound] at h
    cases h
  | some found =>
    rw [hfound] at h
    obtain ⟨ok, t', -, h⟩ := Prog.bind_eq_ok h
    cases ok with
    | false => cases h
    | true =>
      cases h
      simpa using List.find?_some hfound

/-- The password is hashed anew for the user that has logged in. -/
lemma follows_opportunisticRehash {user : User} {password : String}
    (hA : ∀ hash now, HashOf password hash → A w.tables (.setPassword user.id hash now)) :
    Prog.Follows World.tables (Effect.Step A) w (opportunisticRehash user password) := by
  unfold opportunisticRehash
  split
  · refine .bind_reads reads_hashPassword.attempt fun outcome t hrun htables => ?_
    cases outcome with
    | error e => exact .ret
    | ok hash =>
      rw [Prog.run_attempt] at hrun
      have hhash : HashOf password hash :=
        ⟨_, (hashPassword_eq_ok (Prod.ext (Except.ok.inj (congrArg Prod.fst hrun)) rfl)).1⟩
      refine .then_reads (.attempt ?_) fun _ => Prog.Reads.ret
      exact follows_accepted (e := .setPassword user.id hash t.now) rfl (htables ▸ hA _ _ hhash)
  · exact .ret

/-- A login may hash the password that has verified anew. -/
lemma follows_login [JsonWebToken] {config : JwtConfig} {input : LoginInput}
    (hA : ∀ hash now user, user ∈ w.tables.users →
      (user.username = input.usernameOrEmail ∨ user.email = input.usernameOrEmail) →
      Argon2.verifyPassword input.password user.passwordHash = some true →
      HashOf input.password hash → A w.tables (.setPassword user.id hash now)) :
    Prog.Follows World.tables (Effect.Step A) w (login config input) := by
  refine .bind_reads (reads_authenticate fun _ _ => rfl) fun user t hrun htables => ?_
  obtain ⟨hmem, hverified⟩ := authenticate_eq_ok hrun
  have hnamed := authenticate_named hrun
  refine .then_reads (follows_opportunisticRehash fun hash now hhash => ?_) fun _ => ?_
  · exact htables ▸ hA hash now user hmem hnamed hverified hhash
  · refine Prog.Reads.bind (reads_query fun _ => rfl).mapErr fun memberships => ?_
    cases memberships with
    | nil => exact Prog.Reads.fail
    | cons first rest =>
      refine Prog.Reads.bind reads_encodeAccessToken.mapErr fun token => ?_
      exact Prog.Reads.bind reads_tables_record fun _ => Prog.Reads.ret

omit [Argon2] in
/-- The oldest pending token may be dropped before the new one is added. -/
lemma follows_insertToken {userId : Uuid} {tokenHash : String} {expiresAt : Timestamp}
    (hdrop : ∀ now, A w.tables (.dropOldestPending userId now))
    (hadd : ∀ t p, PasswordResetToken.userId p = userId → p.tokenHash = tokenHash →
      p.expiresAt = expiresAt → p.usedAt = none → A t (.addResetToken p)) :
    Prog.Follows World.tables (Effect.Step A) w (insertToken userId tokenHash expiresAt) := by
  have hstore : ∀ v, Prog.Follows World.tables (Effect.Step A) v (do
      let id ← nowV7
      execute (fun w => do
        let p : PasswordResetToken := ⟨id, userId, tokenHash, expiresAt, none, w.now⟩
        let t ← w.tables.insertPasswordResetToken p
        return (p, t))) := by
    refine fun v => .bind_reads (reads_nowV7 fun _ _ => rfl) fun id t _ _ => ?_
    exact follows_returning (e := .addResetToken ⟨id, userId, tokenHash, expiresAt, none, t.now⟩) rfl
      (hadd _ _ rfl rfl rfl rfl)
  refine .bind_reads (reads_query fun _ => rfl) fun pending t _ htables => ?_
  dsimp only
  split
  · refine .bind ?_ fun _ v _ => hstore v
    exact follows_accepted (e := .dropOldestPending userId t.now) rfl (htables ▸ hdrop _)
  · exact hstore t

omit [Argon2] in
/-- A reset request adds a token for the user that its text names. -/
lemma follows_passwordResetRequest [Sha256] {ttlSecs : Int} {input : PasswordResetRequestInput}
    (hdrop : ∀ user ∈ w.tables.users, (user.username = input.email ∨ user.email = input.email) →
      ∀ now, A w.tables (.dropOldestPending user.id now))
    (hadd : ∀ t p user, user ∈ w.tables.users →
      (user.username = input.email ∨ user.email = input.email) →
      PasswordResetToken.userId p = user.id → p.tokenHash = tokenHashOf (w.nextBytes 32) →
      p.expiresAt = w.now + ttlSecs * 1000000 → p.usedAt = none → A t (.addResetToken p)) :
    Prog.Follows World.tables (Effect.Step A) w (passwordResetRequest ttlSecs input) := by
  refine follows_query_bind ?_
  cases hfound : w.tables.users.rows.find?
      (fun u => u.username = input.email || u.email = input.email) with
  | none => exact .ret
  | some user =>
    have hmem : user ∈ w.tables.users := List.mem_of_find?_eq_some hfound
    have hnamed : user.username = input.email ∨ user.email = input.email := by
      simpa using List.find?_some hfound
    refine .bind_reads (reads_randomBytes fun _ _ => rfl) fun rawBytes t hdrawn htables => ?_
    refine .bind_reads reads_utcNow fun now t' hnow htables' => ?_
    cases hdrawn
    cases hnow
    refine .then_reads (.mapErr (follows_insertToken (fun now => ?_)
      fun t p hu hhash hexpires hused => ?_)) fun _ => reads_tables_record
    · exact hdrop user hmem hnamed now
    · exact hadd t p user hmem hnamed hu hhash hexpires hused

/-- A confirmation sets the password of the token's user and consumes the token. -/
lemma follows_passwordResetConfirm [Sha256] {input : PasswordResetConfirmInput}
    (hset : ∀ hash now p, p ∈ w.tables.passwordResetTokens →
      presentedHash input.rawToken = some p.tokenHash → p.usedAt = none → w.now < p.expiresAt →
      HashOf input.newPassword hash → A w.tables (.setPassword p.userId hash now))
    (huse : ∀ t now p, p ∈ w.tables.passwordResetTokens →
      presentedHash input.rawToken = some p.tokenHash → A t (.consumeToken p.id now)) :
    Prog.Follows World.tables (Effect.Step A) w (passwordResetConfirm input) := by
  refine follows_require_bind fun _ => ?_
  cases hpresented : presentedHash input.rawToken with
  | none => exact .fail
  | some tokenHash =>
    refine follows_query_bind ?_
    cases hfound : w.tables.validToken tokenHash w.now with
    | none => exact .of_reads (Prog.Reads.bind reads_tables_record fun _ => Prog.Reads.fail)
    | some p =>
      have hmem : p ∈ w.tables.passwordResetTokens := List.mem_of_find?_eq_some hfound
      have hvalid := List.find?_some hfound
      simp only [Bool.and_eq_true, decide_eq_true_eq] at hvalid
      obtain ⟨⟨hhash, hused⟩, hlive⟩ := hvalid
      have hnamed : presentedHash input.rawToken = some p.tokenHash := hhash ▸ hpresented
      refine follows_hash_bind fun hash bytes hmade => ?_
      refine .bind (.mapErr ?_) fun _ t _ => .then_reads (.mapErr ?_) fun _ => reads_tables_record
      · exact follows_accepted (e := .setPassword p.userId hash w.now) rfl
          (hset hash w.now p hmem hnamed hused hlive hmade)
      · exact follows_accepted (e := .consumeToken p.id t.now) rfl (huse _ _ p hmem hnamed)

/-- The seed creates the administrator and makes it an owner. -/
lemma follows_bootstrapSeedAdmin {input : SeedAdminInput}
    (huser : ∀ u : User, u.username = input.username → u.email = input.email → u.kind = .human →
      HashOf input.password u.passwordHash → A w.tables (.addUser u))
    (hrole : ∀ t : Tables, ∀ r : UserOrganisationRole, w.tables.hasUser r.userId = false →
      (∃ org ∈ w.tables.organisations, org.name = input.operatorOrgName ∧
        org.id = r.organisationId) → t.Codes input.roleCode r.roleId → A t (.addRole r))
    (hevent : ∀ (t : Tables) (user : User) (org : Organisation) e, user ∈ t.users →
      w.tables.hasUser user.id = false → user.username = input.username →
      user.email = input.email → org ∈ w.tables.organisations → org.name = input.operatorOrgName →
      Stamped w.now (.adminSeeded · user.id org.id input.roleCode) e → A t (.addEvent e)) :
    Prog.Follows World.tables (Effect.Step A) w (bootstrapSeedAdmin input) := by
  refine follows_query_bind ?_
  cases horg : (w.tables.organisations.rows.find? (fun o => o.name = input.operatorOrgName)) with
  | none => exact .fail
  | some org =>
    have hmem : org ∈ w.tables.organisations := List.mem_of_find?_eq_some horg
    have hname : org.name = input.operatorOrgName := by simpa using List.find?_some horg
    refine follows_query_bind (follows_require_bind fun _ => follows_hash_bind ?_)
    intro hash bytes hhash
    refine .bind_reads (reads_nowV7 fun _ _ => rfl) fun id v hid hv => ?_
    have hnow : v.now = w.now := by
      rw [(nowV7_eq_ok hid).2]
      rfl
    let user : User := ⟨id, input.username, input.email, hash, .human, v.now, v.now⟩
    refine .bind (.mapErr ?_) fun _ t hrun => ?_
    · exact follows_returning (e := .addUser user) rfl (hv ▸ huser _ rfl rfl rfl hhash)
    obtain ⟨tables, heffect, rfl, -⟩ := execute_eq_ok (Prog.mapErr_eq_ok hrun)
    obtain ⟨hfree, rfl⟩ := Tables.insertUser_eq_ok (return_eq_ok.mp heffect).1
    have hfresh : w.tables.hasUser id = false := by
      have hid := hfree.id
      rw [hv] at hid
      exact hid
    refine follows_query_bind ?_
    cases hfound : ((v.tables.addUser user).roleByCode input.roleCode).map Role.id with
    | none => exact .fail
    | some roleId =>
      refine .bind (.mapErr ?_) fun _ t hrun => ?_
      · exact follows_returning (e := .addRole ⟨id, org.id, roleId, v.now⟩) rfl
          (hrole _ _ hfresh ⟨org, hmem, hname, rfl⟩ hfound)
      obtain ⟨tables, heffect, rfl, -⟩ := execute_eq_ok (Prog.mapErr_eq_ok hrun)
      have hstored : user ∈ tables.users := by
        have hadded : user ∈ (v.tables.addUser user).users :=
          (Tables.mem_addUser hfree).mpr (Or.inr rfl)
        obtain rfl | ⟨rows, -, rfl⟩ := Tables.assignRole_stored (return_eq_ok.mp heffect).1 <;>
          exact hadded
      refine .bind_reads (Prog.Reads.bind (reads_nowV7 fun _ _ => rfl) fun _ =>
        Prog.Reads.bind reads_utcNow fun _ => Prog.Reads.ret) fun stamp t' hstamp ht' => ?_
      cases hstamp
      refine .then_reads (.mapErr ?_) fun _ => Prog.Reads.ret
      refine follows_returning (e := .addEvent (.adminSeeded _ id org.id input.roleCode)) rfl ?_
      exact hevent _ user org _ hstored hfresh rfl rfl hmem hname ⟨_, by rw [← hnow]; rfl⟩

end Accounts
/-! ## Service accounts and keys -/

section Keys
variable [CaseMapping] {A : Tables → Effect → Prop} {w : World} {saUserId : Uuid}

/-- A service account is created with its user. -/
lemma follows_createServiceAccount {input : CreateServiceAccountInput}
    (huser : ∀ u : User, u.username = "sa_" ++ uuidToString u.id →
      u.email = u.username ++ "@service-account.invalid" → u.kind = .serviceAccount →
      u.passwordHash = "!" → A w.tables (.addUser u))
    (hsa : ∀ t sa, ServiceAccount.organisationId sa = input.organisationId →
      sa.name = input.name → sa.description = input.description →
      sa.createdBy = input.actorUserId → w.tables.hasUser sa.userId = false →
      A t (.addServiceAccount sa)) :
    Prog.Follows World.tables (Effect.Step A) w (createServiceAccount input) := by
  refine .then_reads (.mapErr (follows_transaction ?_)) fun sa =>
    Prog.Reads.bind reads_tables_record fun _ => Prog.Reads.ret
  refine .bind_reads (reads_nowV7 fun _ _ => rfl) fun id v _ hv => ?_
  refine .bind (.mapErr ?_) fun _ t hrun => .mapErr ?_
  · exact follows_returning (e := .addUser ⟨id, "sa_" ++ uuidToString id,
      "sa_" ++ uuidToString id ++ "@service-account.invalid", "!", .serviceAccount, v.now, v.now⟩)
      rfl (hv ▸ huser _ rfl rfl rfl rfl)
  · obtain ⟨tables, heffect, rfl, -⟩ := execute_eq_ok (Prog.mapErr_eq_ok hrun)
    obtain ⟨hfree, -⟩ := Tables.insertUser_eq_ok (return_eq_ok.mp heffect).1
    have hfresh : w.tables.hasUser id = false := by
      have hid := hfree.id
      rw [hv] at hid
      exact hid
    exact follows_returning (e := .addServiceAccount
      ⟨id, input.organisationId, input.name, input.description, v.now, input.actorUserId, none⟩) rfl
      (hsa _ _ rfl rfl rfl rfl hfresh)

/-- The user of a service account of the organisation is deleted. -/
lemma follows_deleteServiceAccount {input : DeleteServiceAccountInput}
    (hA : (w.tables.serviceAccount input.organisationId input.saUserId).isSome = true →
      (∃ user ∈ w.tables.users, user.id = input.saUserId ∧ user.kind = .serviceAccount) →
      A w.tables (.deleteUser input.saUserId)) :
    Prog.Follows World.tables (Effect.Step A) w (deleteServiceAccount input) := by
  refine .then_reads (.mapErr ?_) fun removed =>
    Prog.Reads.bind reads_require fun _ => reads_tables_record
  refine .bind_reads (reads_query fun _ => rfl) fun found t hrun htables => ?_
  obtain ⟨rfl, rfl, -⟩ := query_eq_ok hrun
  cases hsa : w.tables.serviceAccount input.organisationId input.saUserId with
  | none => exact .ret
  | some sa =>
    refine follows_execute fun a t h => ?_
    split at h
    · rename_i hany
      obtain ⟨user, hmem, hkind⟩ := Table.any_eq_true.mp hany
      simp only [Bool.and_eq_true, decide_eq_true_eq] at hkind
      exact Or.inr ⟨_, hA (by rw [hsa]; rfl) ⟨user, hmem, hkind⟩, (return_eq_ok.mp h).1⟩
    · cases h
      exact Or.inl rfl

omit [CaseMapping] in
/-- A fresh row carries a hash. -/
lemma freshKeyRow_hashed [Argon2] [Base64] {v : World} {name : String}
    {scopes : Option (List String)} {createdBy : Uuid} {g : GeneratedKey} {row : NewApiKeyRow}
    (h : (freshKeyRow saUserId name scopes createdBy).run w = (.ok (g, row), v)) :
    HashOf g.secret row.secretHash := by
  obtain ⟨g', w₁, -, h⟩ := Prog.bind_eq_ok h
  obtain ⟨id, w₂, -, h⟩ := Prog.bind_eq_ok h
  obtain ⟨hash, w₃, hhash, h⟩ := Prog.bind_eq_ok h
  cases h
  exact ⟨_, (hashPassword_eq_ok hhash).1⟩

section Create
variable [Argon2] [Base64]

/-- The loop in which a key is made follows what storing a fresh row does. -/
lemma follows_issueKey {ε : Type} {collision other : ε} {createdBy : Uuid} {name : String}
    {scopes : Option (List String)} {store : NewApiKeyRow → Action ApiKeyRepoError ApiKey}
    {event : ApiKey → Stamp → AuditEvent} {attempts : ℕ}
    (hatomic : ∀ row, Prog.Atomic World.tables (store row))
    (hstore : ∀ v v' g row, (freshKeyRow saUserId name scopes createdBy).run v = (.ok (g, row), v') →
      v'.tables = w.tables → Prog.Follows World.tables (Effect.Step A) v' (store row)) :
    Prog.Follows World.tables (Effect.Step A) w
      (issueKey collision other saUserId name scopes createdBy store event attempts) := by
  induction attempts generalizing w with
  | zero => exact .fail
  | succ attempts ih =>
    refine .bind_reads reads_freshKeyRow.mapErr fun drawn t hrun htables => ?_
    obtain ⟨g, row⟩ := drawn
    have hfollows := hstore _ _ g row (Prog.mapErr_eq_ok hrun) htables
    refine .attempt_bind hfollows (fun key v _ => ?_) fun e v hrefused => ?_
    · exact .of_reads (Prog.Reads.bind reads_tables_record fun _ => Prog.Reads.ret)
    · cases e with
      | other e => exact .fail
      | duplicatePrefix =>
        -- the refused row leaves no trace, so that the next round starts from the same tables
        have hv : v.tables = w.tables := (hatomic row t _ v hrefused).trans htables
        exact ih (hv ▸ hstore)

/-- A key is added for a service account of the organisation. -/
lemma follows_createApiKey {input : CreateApiKeyInput}
    (hA : ∀ k, (w.tables.serviceAccount input.organisationId input.saUserId).isSome = true →
      NewKey input.saUserId input.actorUserId k → k.name = input.name → k.scopes = input.scopes →
      (∃ secret, HashOf secret k.secretHash) → A w.tables (.addKey k)) :
    Prog.Follows World.tables (Effect.Step A) w (createApiKey input) := by
  refine follows_require_bind fun _ => follows_query_bind (follows_require_bind fun hhomed => ?_)
  rw [createApiKeyLoop_eq]
  refine follows_issueKey (fun _ => atomic_createKey) fun v v' g row hfresh htables => ?_
  obtain ⟨-, -, -, hscopes, hname⟩ := freshKeyRow_eq_ok hfresh
  refine .bind_reads (reads_query fun _ => rfl).mapErr fun _ t _ ht => .mapErr ?_
  refine follows_returning (e := .addKey (row.record t.now)) rfl ?_
  rw [ht, htables]
  exact hA _ hhomed (newKey_of_fresh hfresh) hname hscopes ⟨_, freshKeyRow_hashed hfresh⟩

/-- The old key is revoked and the new one added. -/
lemma follows_rotateApiKey {input : RotateApiKeyInput}
    (hrevoke : (w.tables.serviceAccount input.organisationId input.saUserId).isSome = true →
      w.tables.HoldsKey input.saUserId input.oldKeyId →
      ∀ now, A w.tables (.revokeKey input.oldKeyId none now))
    (hadd : ∀ (t : Tables) (k old : ApiKeyRecord),
      (w.tables.serviceAccount input.organisationId input.saUserId).isSome = true →
      old ∈ w.tables.apiKeys → old.id = input.oldKeyId →
      old.serviceAccountUserId = input.saUserId → NewKey input.saUserId input.actorUserId k →
      k.name = input.name.getD old.name → k.scopes = input.scopes.getD old.scopes →
      (∃ secret, HashOf secret k.secretHash) → A t (.addKey k)) :
    Prog.Follows World.tables (Effect.Step A) w (rotateApiKey input) := by
  refine follows_query_bind (follows_require_bind fun hhomed => follows_query_bind ?_)
  dsimp only [World.tick_tables]
  cases hfound : w.tables.keyOf input.saUserId input.oldKeyId with
  | none => exact .fail
  | some old =>
    obtain ⟨k, hk, hid, haccount, rfl⟩ := Tables.keyOf_eq_some hfound
    refine follows_require_bind fun _ => rotateApiKeyLoop_eq ▸ follows_issueKey
      (fun _ => atomic_transaction) fun v v' g row hfresh htables => ?_
    obtain ⟨-, -, -, hscopes, hname⟩ := freshKeyRow_eq_ok hfresh
    refine follows_transaction (.bind (.mapErr ?_) fun _ t _ => .mapErr ?_)
    · exact follows_accepted (e := .revokeKey input.oldKeyId none v'.now) rfl
        (htables ▸ hrevoke hhomed ⟨k, hk, hid, haccount⟩ _)
    · exact follows_returning (e := .addKey (row.record t.now)) rfl (hadd _ _ k hhomed hk hid haccount
        (newKey_of_fresh hfresh) hname hscopes ⟨_, freshKeyRow_hashed hfresh⟩)

end Create

/-- A key of a service account of the organisation is revoked. -/
lemma follows_revokeApiKey {input : RevokeApiKeyInput}
    (hA : (w.tables.serviceAccount input.organisationId input.saUserId).isSome = true →
      ∀ now, A w.tables (.revokeKey input.keyId (some input.saUserId) now)) :
    Prog.Follows World.tables (Effect.Step A) w (revokeApiKey input) := by
  refine follows_query_bind (follows_require_bind fun hhomed => ?_)
  refine .then_reads (.mapErr ?_) fun _ => Prog.Reads.bind reads_require fun _ => reads_tables_record
  exact follows_accepted (e := .revokeKey input.keyId (some input.saUserId) w.now) rfl (hA hhomed _)

/-- A touch marks the key and its service account as used. -/
lemma follows_touchLastUsed {task : TouchTask} (hkey : ∀ t now, A t (.touchKey task.keyId now))
    (hsa : ∀ t now, A t (.touchServiceAccount task.saUserId now)) :
    Prog.Follows World.tables (Effect.Step A) w (touchLastUsed task) := by
  refine .bind (.attempt ?_) fun _ t _ => .then_reads (.attempt ?_) fun _ => Prog.Reads.ret
  · exact follows_accepted (e := .touchKey task.keyId w.now) rfl (hkey _ _)
  · exact follows_accepted (e := .touchServiceAccount task.saUserId t.now) rfl (hsa _ _)

end Keys

/-! ## Channels and flags -/

section Resources
variable [CaseMapping] {A : Tables → Effect → Prop} {w : World} {actor actorOrg : Uuid}

/-- A channel is added with the values of the input. -/
lemma follows_createInboundChannel {input : CreateChannelInput}
    (hA : ∀ c : InboundChannel, c.organisationId = input.organisationId →
      c.name = trimWs input.name → c.description = input.description →
      c.channelType = input.channelType → c.isActive = input.isActive →
      A w.tables (.addChannel c)) :
    Prog.Follows World.tables (Effect.Step A) w
      (createInboundChannel actor actorOrg input) := by
  refine follows_require_bind fun _ => follows_require_bind fun _ => ?_
  refine .then_reads (.mapErr ?_) fun ch =>
    Prog.Reads.bind reads_tables_record fun _ => Prog.Reads.ret
  refine .bind_reads (reads_nowV7 fun _ _ => rfl) fun id t _ htables => ?_
  refine .bind_reads (Prog.Reads.bind (reads_randomBytes fun _ _ => rfl)
    fun _ => Prog.Reads.ret) fun apiKey t' _ htables' => .mapErr ?_
  refine follows_returning (e := .addChannel ⟨id, input.organisationId, trimWs input.name,
    input.description, input.channelType, apiKey, input.isActive, t'.now, t'.now⟩) rfl ?_
  exact htables'.trans htables ▸ hA _ rfl rfl rfl rfl rfl

/-- A channel gets the values of the input. -/
lemma follows_updateInboundChannel {input : UpdateChannelInput}
    (hA : A w.tables (.updateChannel input.organisationId input.channelId (trimWs input.name)
      input.description input.channelType input.isActive w.now)) :
    Prog.Follows World.tables (Effect.Step A) w
      (updateInboundChannel actor actorOrg input) := by
  refine follows_require_bind fun _ => follows_require_bind fun _ => ?_
  refine .then_reads (.mapErr (.then_reads (.mapErr (follows_execute fun found t h => ?_))
    fun found => ?_)) fun ch => Prog.Reads.bind reads_tables_record fun _ => Prog.Reads.ret
  · exact Or.inr ⟨_, hA, congrArg (Except.map Prod.snd) h⟩
  · cases found with
    | none => exact Prog.Reads.fail
    | some ch => exact Prog.Reads.ret

/-- A channel of the organisation is deleted. -/
lemma follows_deleteInboundChannel {orgId channelId : Uuid}
    (hA : A w.tables (.deleteChannel orgId channelId)) :
    Prog.Follows World.tables (Effect.Step A) w
      (deleteInboundChannel actor actorOrg orgId channelId) := by
  refine .then_reads (.mapErr (.then_reads (.mapErr ?_) fun _ => reads_require))
    fun _ => reads_tables_record
  exact follows_accepted (e := .deleteChannel orgId channelId) rfl hA

/-- A flag is set to the value of the input by an actor that may set it. -/
lemma follows_setOrgFeature {input : SetOrgFeatureInput}
    (hA : ∀ f : OrgFeatureOverride, f.organisationId = input.organisationId →
      f.slug = input.slug → f.value = input.value → f.updatedBy = input.actorUserId →
      w.tables.MaySet input.actorIsOperator input.slug → A w.tables (.setFlag f)) :
    Prog.Follows World.tables (Effect.Step A) w (setOrgFeature input) := by
  refine .bind_reads reads_getDefinition.mapErr fun found t hrun htables => ?_
  have hfound := getDefinition_eq_ok hrun
  cases found with
  | none => exact .fail
  | some d =>
    refine .bind_reads Prog.Reads.ofExcept.mapErr fun _ t' _ htables' => ?_
    refine follows_require_bind fun hmay => ?_
    refine .then_reads (.mapErr (.mapErr ?_)) fun oldValue =>
      Prog.Reads.bind (Prog.Reads.lift fun _ => rfl) fun _ => reads_tables_record
    refine follows_returning (e := .setFlag
      ⟨input.organisationId, input.slug, input.value, t'.now, input.actorUserId⟩) rfl ?_
    rw [htables', htables]
    exact hA _ rfl rfl rfl rfl ⟨d, hfound.symm, hmay⟩

/-- A flag is cleared by an actor that may set it. -/
lemma follows_clearOrgFeature {input : ClearOrgFeatureInput}
    (hA : w.tables.MaySet input.actorIsOperator input.slug →
      A w.tables (.clearFlag input.organisationId input.slug)) :
    Prog.Follows World.tables (Effect.Step A) w (clearOrgFeature input) := by
  refine .bind_reads reads_getDefinition.mapErr fun found t hrun htables => ?_
  have hfound := getDefinition_eq_ok hrun
  cases found with
  | none => exact .fail
  | some d =>
    refine follows_require_bind fun hmay => ?_
    refine .then_reads (.mapErr (.mapErr ?_)) fun oldValue =>
      Prog.Reads.bind (Prog.Reads.lift fun _ => rfl) fun _ => reads_tables_record
    refine follows_accepted (e := .clearFlag input.organisationId input.slug) rfl ?_
    rw [htables]
    exact hA ⟨d, hfound.symm, hmay⟩

end Resources
end Egras
