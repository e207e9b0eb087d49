import Egras.Membership.Containment
import Egras.Security.Replacement
import Egras.Security.Seeding

/-!
# Whether the transactional writes are all or nothing

Four writes of the service run several statements in a transaction: creating a user in an
organisation, an organisation with its owner, a service account with its user, and the rotation of
an API key, which runs a second transaction when the first one collides. Each leaves the tables
alone when it fails, at whatever statement, and when it returns it has changed them as intended
(`writes_allOrNothing`).
-/

namespace Egras
open Lib

/-- An operation leaves the tables alone when it fails, and when it returns it has changed them as
`φ` says. -/
structure AllOrNothing {ε α : Type} (p : Action ε α) (φ : α → Tables → Tables → Prop) : Prop where
  undone : ∀ w e v, p.run w = (.error e, v) → v.tables = w.tables
  done : ∀ w a v, p.run w = (.ok a, v) → φ a w.tables v.tables

/-! ## What each write is for -/

/-- One more user, with one membership. -/
structure UserAdded (username email passwordHash : String) (orgId : Uuid) (roleCode : String)
    (user : User) (t t' : Tables) : Prop where
  given : user.username = username ∧ user.email = email ∧ user.passwordHash = passwordHash ∧
    user.kind = .human
  users : t'.users.rows = t.users.rows ++ [user]
  members : ∃ role ∈ t.roles, role.code = roleCode ∧ ∃ now,
    t'.userOrganisationRoles.rows =
      t.userOrganisationRoles.rows ++ [⟨user.id, orgId, role.id, now⟩]
  others : t' = { t with
    users := t'.users
    userOrganisationRoles := t'.userOrganisationRoles }

/-- One more organisation, with its owner. -/
structure OrganisationAdded (name business : String) (creator : Uuid) (ownerRoleCode : String)
    (org : Organisation) (t t' : Tables) : Prop where
  given : org.name = name ∧ org.business = business ∧ org.isOperator = false
  organisations : t'.organisations.rows = t.organisations.rows ++ [org]
  owners : ∃ role ∈ t.roles, role.code = ownerRoleCode ∧ ∃ now,
    t'.userOrganisationRoles.rows =
      t.userOrganisationRoles.rows ++ [⟨creator, org.id, role.id, now⟩]
  others : t' = { t with
    organisations := t'.organisations
    userOrganisationRoles := t'.userOrganisationRoles }

/-- One more user of the kind of service accounts, with its `service_accounts` row. -/
structure ServiceAccountAdded (req : NewServiceAccount) (sa : ServiceAccount) (t t' : Tables) :
    Prop where
  given : sa.organisationId = req.organisationId ∧ sa.name = req.name ∧
    sa.description = req.description ∧ sa.createdBy = req.createdBy ∧ sa.lastUsedAt = none
  users : ∃ user : User, user.id = sa.userId ∧ user.kind = .serviceAccount ∧
    t'.users.rows = t.users.rows ++ [user]
  accounts : t'.serviceAccounts.rows = t.serviceAccounts.rows ++ [sa]
  others : t' = { t with users := t'.users, serviceAccounts := t'.serviceAccounts }

/-- The old key is revoked and there is one more key, active and with the name and the scopes of the
old one unless others are given. -/
structure KeyReplaced (input : RotateApiKeyInput) (mat : ApiKeyMaterial) (t t' : Tables) :
    Prop where
  held : t.HoldsKey input.saUserId input.oldKeyId
  keys : ∃ (now : Timestamp) (new : ApiKeyRecord),
    new.toApiKey = mat.key ∧ NewKey input.saUserId input.actorUserId new ∧
    t'.apiKeys.rows = t.apiKeys.rows.map
      (fun k => if k.id = input.oldKeyId then { k with revokedAt := some now } else k) ++ [new]
  inherits : ∀ old ∈ t.apiKeys, old.id = input.oldKeyId →
    mat.key.name = input.name.getD old.name ∧ mat.key.scopes = input.scopes.getD old.scopes
  others : t' = { t with apiKeys := t'.apiKeys }

/-! ## Each write -/

section Writes

/-- A transaction does what it does when it commits, or nothing. -/
lemma allOrNothing_transaction {ε α : Type} {conv : SqlError → ε} {body : Action ε α}
    {φ : α → Tables → Tables → Prop}
    (h : ∀ w a v, (transaction conv body).run w = (.ok a, v) → φ a w.tables v.tables) :
    AllOrNothing (transaction conv body) φ :=
  ⟨fun _ _ _ => transaction_rolls_back, h⟩

/-- A user is created with its role row or not at all. -/
lemma allOrNothing_createAndAddToOrg [CaseMapping] {username email hash : String} {orgId : Uuid}
    {roleCode : String} :
    AllOrNothing (createAndAddToOrg username email hash orgId roleCode)
      (UserAdded username email hash orgId roleCode) := by
  refine allOrNothing_transaction fun w user v hrun => ?_
  obtain ⟨role, henrols, rfl, htables⟩ := createAndAddToOrg_eq_ok hrun
  obtain ⟨hrole, hcode⟩ := Tables.roleByCode_eq_some henrols.known
  rw [htables]
  refine ⟨⟨rfl, rfl, rfl, rfl⟩, ?_, ⟨role, hrole, hcode, w.now, ?_⟩, ?_⟩
  · exact (congrArg Table.rows Tables.addRole_users).trans (Tables.addUser_rows henrols.free)
  · refine (Tables.addRole_rows henrols.addable).trans ?_
    rw [Tables.addUser_userOrganisationRoles]
    rfl
  · unfold enrolled Tables.addRole Tables.addUser
    split <;> split <;> rfl

/-- An organisation is created with its owner or not at all. -/
lemma allOrNothing_createWithInitialOwner {name business : String} {creator : Uuid}
    {ownerRoleCode : String} :
    AllOrNothing (createWithInitialOwner name business creator ownerRoleCode)
      (OrganisationAdded name business creator ownerRoleCode) := by
  refine allOrNothing_transaction fun w org v hrun => ?_
  obtain ⟨role, hfounds, htables, rfl⟩ := createWithInitialOwner_eq_ok hrun
  obtain ⟨hrole, hcode⟩ := Tables.roleByCode_eq_some hfounds.known
  rw [htables]
  refine ⟨⟨rfl, rfl, rfl⟩, ?_, ⟨role, hrole, hcode, w.now, ?_⟩, ?_⟩
  · refine Eq.trans ?_ (Tables.addOrganisation_rows hfounds.free)
    unfold founded Tables.addRole
    split <;> rfl
  · refine (Tables.addRole_rows hfounds.addable).trans ?_
    rw [Tables.addOrganisation_userOrganisationRoles]
    rfl
  · unfold founded Tables.addRole Tables.addOrganisation
    split <;> split <;> rfl

/-- A service account is created with its user or not at all. -/
lemma allOrNothing_createServiceAccountRows [CaseMapping] {req : NewServiceAccount} :
    AllOrNothing (createServiceAccountRows req) (ServiceAccountAdded req) := by
  refine ⟨fun _ _ _ => transaction_rolls_back, fun w sa v hrun => ?_⟩
  obtain ⟨hhires, rfl⟩ := createServiceAccountRows_eq_ok hrun
  have htables : v.tables = hired w req := by
    rw [← createServiceAccountRows_of_hires hhires, hrun]
  obtain ⟨-, rows, hrows⟩ := Tables.insertServiceAccount_eq_ok hhires.accepted
  rw [htables]
  refine ⟨⟨rfl, rfl, rfl, rfl, rfl⟩, ⟨serviceAccountUser w, rfl, rfl, ?_⟩, ?_, ?_⟩
  · refine (congrArg Table.rows Tables.addServiceAccount_users).trans ?_
    exact Tables.addUser_rows hhires.free
  · refine (Tables.addServiceAccount_rows hrows).trans ?_
    rw [Tables.addUser_serviceAccounts]
  · unfold hired Tables.addServiceAccount Tables.addUser
    split <;> split <;> rfl

/-- Revoking an active key, by its identifier. -/
lemma revokeActive_rows {t : Tables} {keyId : Uuid} {now : Timestamp} (h : t.IsActive keyId) :
    (t.revokeActive keyId now).apiKeys.rows =
      t.apiKeys.rows.map (fun k => if k.id = keyId then { k with revokedAt := some now } else k) := by
  obtain ⟨k, hk, hid, hactive⟩ := h
  refine List.map_congr_left fun q hq => ?_
  by_cases hqid : q.id = keyId
  · obtain rfl := Tables.key_eq_of_id hk hq (hid.trans hqid.symm)
    simp [hid, hactive]
  · simp [hqid]

/-- An active key is replaced or nothing changes. -/
lemma allOrNothing_rotateApiKey [Argon2] [Base64] {input : RotateApiKeyInput} :
    AllOrNothing (rotateApiKey input)
      (fun mat t t' => t.IsActive input.oldKeyId → KeyReplaced input mat t t') := by
  refine ⟨atomic_rotateApiKey, fun w mat v hrun hactive => ?_⟩
  obtain ⟨-, hheld, new, now, hnew, hins, hmat, htables, hinherits⟩ := rotateApiKey_eq_ok hrun
  rw [htables]
  refine ⟨hheld, ⟨now, new, hmat.symm, hnew, ?_⟩, ?_, ?_⟩
  · rw [hins.addKey_rows, revokeActive_rows hactive]
  · rw [hmat]
    exact hinherits
  · unfold Tables.addKey Tables.revokeActive Tables.revokeKeys
    split <;> rfl

/-- Each transactional write is all or nothing. -/
theorem writes_allOrNothing [CaseMapping] [Argon2] [Base64] :
    (∀ username email passwordHash orgId roleCode,
      AllOrNothing (createAndAddToOrg username email passwordHash orgId roleCode)
        (UserAdded username email passwordHash orgId roleCode)) ∧
    (∀ name business creator ownerRoleCode,
      AllOrNothing (createWithInitialOwner name business creator ownerRoleCode)
        (OrganisationAdded name business creator ownerRoleCode)) ∧
    (∀ req, AllOrNothing (createServiceAccountRows req) (ServiceAccountAdded req)) ∧
    ∀ input, AllOrNothing (rotateApiKey input)
      (fun mat t t' => t.IsActive input.oldKeyId → KeyReplaced input mat t t') :=
  ⟨fun _ _ _ _ _ => allOrNothing_createAndAddToOrg,
    fun _ _ _ _ => allOrNothing_createWithInitialOwner,
    fun _ => allOrNothing_createServiceAccountRows,
    fun _ => allOrNothing_rotateApiKey⟩

end Writes
end Egras
