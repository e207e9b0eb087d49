import Egras.Base.Platform
import Egras.Db.World

/-!
# Constraints

The effect of each kind of `INSERT`, `UPDATE` and `DELETE` on the tables together with the
constraints of the schema, in the order in which the database checks them: unique indexes first, in
the order of their creation, then the foreign keys. `deleteUser` follows the cascades of
`users(id)`, then checks the references that do not cascade.

Each insertion has one inversion lemma that says when it is accepted and what it does.
-/

namespace Egras
open Lib

namespace Tables
variable {t t' : Tables}

section Insert
variable [CaseMapping]

/-- Whether a user with this identifier is stored. -/
def hasUser (t : Tables) (id : Uuid) : Bool := t.users.any (fun u => u.id = id)

/-- Whether an organisation with this identifier is stored. -/
def hasOrganisation (t : Tables) (id : Uuid) : Bool := t.organisations.any (fun o => o.id = id)

/-- Whether a role with this identifier is stored. -/
def hasRoleId (t : Tables) (id : Uuid) : Bool := t.roles.any (fun r => r.id = id)

/-- `INSERT INTO organisations` with `is_operator` false. -/
def insertOrganisation (t : Tables) (o : Organisation) : Except SqlError Tables :=
  match t.organisations.insert? o with
  | none => .error (.uniqueViolation "organisations_pkey")
  | some rows =>
    if t.organisations.any (fun q => q.name = o.name) then
      .error (.uniqueViolation "organisations_name_key")
    else .ok { t with organisations := rows }

/-- `INSERT INTO users`. -/
def insertUser (t : Tables) (u : User) : Except SqlError Tables :=
  match t.users.insert? u with
  | none => .error (.uniqueViolation "users_pkey")
  | some rows =>
    if t.users.any (fun q => q.username = u.username) then
      .error (.uniqueViolation "users_username_key")
    else if t.users.any (fun q => CaseMapping.lower q.email = CaseMapping.lower u.email) then
      .error (.uniqueViolation "users_email_key")
    else .ok { t with users := rows }

/-- `INSERT INTO user_organisation_roles`. -/
def insertUserOrganisationRole (t : Tables) (r : UserOrganisationRole) : Except SqlError Tables :=
  match t.userOrganisationRoles.insert? r with
  | none => .error (.uniqueViolation "user_organisation_roles_pkey")
  | some rows =>
    if !t.hasUser r.userId then
      .error (.foreignKeyViolation "user_organisation_roles_user_id_fkey")
    else if !t.hasOrganisation r.organisationId then
      .error (.foreignKeyViolation "user_organisation_roles_organisation_id_fkey")
    else if !t.hasRoleId r.roleId then
      .error (.foreignKeyViolation "user_organisation_roles_role_id_fkey")
    else .ok { t with userOrganisationRoles := rows }

/-- Whether a user holds a role in an organisation. -/
def hasRole (t : Tables) (userId organisationId roleId : Uuid) : Bool :=
  t.userOrganisationRoles.any (fun r => r.key = (userId, organisationId, roleId))

/-- `INSERT INTO user_organisation_roles ... ON CONFLICT DO NOTHING`. -/
def assignRole (t : Tables) (r : UserOrganisationRole) : Except SqlError Tables :=
  if t.hasRole r.userId r.organisationId r.roleId then .ok t else t.insertUserOrganisationRole r

/-- `INSERT INTO service_accounts`. -/
def insertServiceAccount (t : Tables) (sa : ServiceAccount) : Except SqlError Tables :=
  match t.serviceAccounts.insert? sa with
  | none => .error (.uniqueViolation "service_accounts_pkey")
  | some rows =>
    if t.serviceAccounts.any
        (fun q => q.organisationId = sa.organisationId && q.name = sa.name) then
      .error (.uniqueViolation "service_accounts_organisation_id_name_key")
    else if !t.hasUser sa.userId then
      .error (.foreignKeyViolation "service_accounts_user_id_fkey")
    else if !t.hasOrganisation sa.organisationId then
      .error (.foreignKeyViolation "service_accounts_organisation_id_fkey")
    else if !t.hasUser sa.createdBy then
      .error (.foreignKeyViolation "service_accounts_created_by_fkey")
    else .ok { t with serviceAccounts := rows }

/-- `INSERT INTO api_keys`; the `CHECK` on `scopes` comes before the indexes. -/
def insertApiKey (t : Tables) (k : ApiKeyRecord) : Except SqlError Tables :=
  if k.scopes = some [] then .error (.checkViolation "api_keys_scopes_check")
  else
    match t.apiKeys.insert? k with
    | none => .error (.uniqueViolation "api_keys_pkey")
    | some rows =>
      if t.apiKeys.any (fun q => q.keyPrefix = k.keyPrefix) then
        .error (.uniqueViolation "api_keys_prefix_key")
      else if !t.serviceAccounts.any (fun sa => sa.userId = k.serviceAccountUserId) then
        .error (.foreignKeyViolation "api_keys_service_account_user_id_fkey")
      else if !t.hasUser k.createdBy then
        .error (.foreignKeyViolation "api_keys_created_by_fkey")
      else .ok { t with apiKeys := rows }

/-- `INSERT INTO inbound_channels`. -/
def insertChannel (t : Tables) (c : InboundChannel) : Except SqlError Tables :=
  match t.inboundChannels.insert? c with
  | none => .error (.uniqueViolation "inbound_channels_pkey")
  | some rows =>
    if t.inboundChannels.any
        (fun q => q.organisationId = c.organisationId && q.name = c.name) then
      .error (.uniqueViolation "inbound_channels_organisation_id_name_key")
    else if !t.hasOrganisation c.organisationId then
      .error (.foreignKeyViolation "inbound_channels_organisation_id_fkey")
    else .ok { t with inboundChannels := rows }

/-- `UPDATE inbound_channels SET ... WHERE id = $5 AND organisation_id = $6`, with the updated row.
The unique index on organisation and name is checked when a row is updated. -/
def updateChannel (t : Tables) (organisationId channelId : Uuid) (name : String)
    (description : Option String) (channelType : ChannelType) (isActive : Bool) (now : Timestamp) :
    Except SqlError (Option InboundChannel × Tables) :=
  let p := fun c : InboundChannel => c.id = channelId && c.organisationId = organisationId
  let f := fun c : InboundChannel => { c with
    name := name, description := description, channelType := channelType, isActive := isActive,
    updatedAt := now }
  match t.inboundChannels.rows.find? p with
  | none => .ok (none, t)
  | some c =>
    if t.inboundChannels.any (fun q =>
        q.id ≠ channelId && q.organisationId = organisationId && q.name = name) then
      .error (.uniqueViolation "inbound_channels_organisation_id_name_key")
    else
      .ok (some (f c), { t with inboundChannels := t.inboundChannels.updateWhere p f })

/-- `INSERT INTO password_reset_tokens`. -/
def insertPasswordResetToken (t : Tables) (p : PasswordResetToken) : Except SqlError Tables :=
  match t.passwordResetTokens.insert? p with
  | none => .error (.uniqueViolation "password_reset_tokens_pkey")
  | some rows =>
    if t.passwordResetTokens.any (fun q => q.tokenHash = p.tokenHash) then
      .error (.uniqueViolation "password_reset_tokens_token_hash_key")
    else if !t.hasUser p.userId then
      .error (.foreignKeyViolation "password_reset_tokens_user_id_fkey")
    else .ok { t with passwordResetTokens := rows }

/-- `INSERT INTO revoked_tokens ... ON CONFLICT DO NOTHING`. -/
def insertRevokedToken (t : Tables) (r : RevokedToken) : Except SqlError Tables :=
  match t.revokedTokens.insert? r with
  | none => .ok t
  | some rows =>
    if !t.hasUser r.userId then .error (.foreignKeyViolation "revoked_tokens_user_id_fkey")
    else .ok { t with revokedTokens := rows }

/-- `INSERT INTO audit_events`. -/
def insertAuditEvent (t : Tables) (e : AuditEvent) : Except SqlError Tables :=
  match t.auditEvents.insert? e with
  | none => .error (.uniqueViolation "audit_events_pkey")
  | some rows => .ok { t with auditEvents := rows }

/-- `INSERT INTO organisation_features ... ON CONFLICT (organisation_id, slug) DO UPDATE`. -/
def upsertFeature (t : Tables) (f : OrgFeatureOverride) : Except SqlError Tables :=
  if !t.hasOrganisation f.organisationId then
    .error (.foreignKeyViolation "organisation_features_organisation_id_fkey")
  else if !t.featureDefinitions.any (fun d => d.slug = f.slug) then
    .error (.foreignKeyViolation "organisation_features_slug_fkey")
  else if !t.hasUser f.updatedBy then
    .error (.foreignKeyViolation "organisation_features_updated_by_fkey")
  else .ok { t with organisationFeatures := t.organisationFeatures.upsert f }

end Insert

section Accepted
variable {t t' : Tables} {event : AuditEvent}

/-- A channel that is accepted is stored; nothing else changes. -/
lemma insertChannel_eq_ok {c : InboundChannel} (h : t.insertChannel c = .ok t') :
    ∃ rows, t.inboundChannels.insert? c = some rows ∧ t' = { t with inboundChannels := rows } := by
  unfold insertChannel at h
  split at h
  · cases h
  · rename_i rows hrows
    split at h
    · cases h
    · split at h
      · cases h
      · cases h
        exact ⟨rows, hrows, rfl⟩

/-- An update of a channel finds no row, or it rewrites the row that it finds. -/
lemma updateChannel_cases {org channelId : Uuid} {name : String} {description : Option String}
    {channelType : ChannelType} {isActive : Bool} {now : Timestamp} {a : Option InboundChannel}
    (h : t.updateChannel org channelId name description channelType isActive now = .ok (a, t')) :
    a = none ∧ t' = t ∨ a.isSome = true ∧
      t' = { t with
        inboundChannels := t.inboundChannels.updateWhere
          (fun c => c.id = channelId && c.organisationId = org)
          (fun c => { c with
            name := name, description := description, channelType := channelType,
            isActive := isActive, updatedAt := now }) } := by
  unfold updateChannel at h
  dsimp only at h
  split at h
  · cases h
    exact Or.inl ⟨rfl, rfl⟩
  · split at h
    · cases h
    · cases h
      exact Or.inr ⟨rfl, rfl⟩

/-- A revocation that is accepted is stored, unless there is one already. -/
lemma insertRevokedToken_eq_ok {r : RevokedToken} (h : t.insertRevokedToken r = .ok t') :
    (∃ rows, t' = { t with revokedTokens := rows }) ∧
      (t' = t ∧ (∃ q ∈ t.revokedTokens, q.jti = r.jti) ∨
        ∀ q, q ∈ t'.revokedTokens ↔ q ∈ t.revokedTokens ∨ q = r) := by
  unfold insertRevokedToken at h
  cases hrows : t.revokedTokens.insert? r with
  | none =>
    rw [hrows] at h
    cases h
    exact ⟨⟨_, rfl⟩, Or.inl ⟨rfl, Table.insert?_eq_none.mp hrows⟩⟩
  | some rows =>
    rw [hrows] at h
    dsimp only at h
    split at h
    · cases h
    · cases h
      exact ⟨⟨_, rfl⟩, Or.inr fun q => Table.mem_insert? hrows⟩

/-- A reset token that is accepted is stored; nothing else changes. -/
lemma insertPasswordResetToken_eq_ok {p : PasswordResetToken}
    (h : t.insertPasswordResetToken p = .ok t') :
    ∃ rows, t.passwordResetTokens.insert? p = some rows ∧
      t' = { t with passwordResetTokens := rows } := by
  unfold insertPasswordResetToken at h
  split at h
  · cases h
  · rename_i rows hrows
    split at h
    · cases h
    · split at h
      · cases h
      · cases h
        exact ⟨rows, hrows, rfl⟩

/-- An audit event under a fresh identifier is accepted. -/
lemma insertAuditEvent_of_fresh (h : ∀ e ∈ t.auditEvents, e.id ≠ event.id) :
    ∃ t', t.insertAuditEvent event = .ok t' := by
  unfold insertAuditEvent
  cases hi : t.auditEvents.insert? event with
  | some rows => exact ⟨_, rfl⟩
  | none =>
    obtain ⟨e, he, hid⟩ := Table.insert?_eq_none.mp hi
    exact absurd hid (h e he)

/-- What an accepted audit event tells: its identifier was free and it is appended. -/
lemma insertAuditEvent_eq_ok (h : t.insertAuditEvent event = .ok t') :
    (∀ e ∈ t.auditEvents, e.id ≠ event.id) ∧
      t'.auditEvents.rows = t.auditEvents.rows ++ [event] ∧
      t' = { t with auditEvents := t'.auditEvents } := by
  unfold insertAuditEvent at h
  split at h
  · cases h
  · rename_i rows hrows
    cases h
    obtain ⟨hfresh, happend⟩ := Table.insert?_eq_some hrows
    exact ⟨hfresh, happend, rfl⟩

end Accepted

/-- The tables after the rows that cascade from a user are gone. -/
def cascadeUser (t : Tables) (id : Uuid) : Tables :=
  { t with
    users := t.users.deleteWhere (fun u => u.id = id)
    passwordResetTokens := t.passwordResetTokens.deleteWhere (fun p => p.userId = id)
    revokedTokens := t.revokedTokens.deleteWhere (fun r => r.userId = id)
    userOrganisationRoles := t.userOrganisationRoles.deleteWhere (fun r => r.userId = id)
    serviceAccounts := t.serviceAccounts.deleteWhere (fun sa => sa.userId = id)
    apiKeys := t.apiKeys.deleteWhere (fun k => k.serviceAccountUserId = id) }

/-- `DELETE FROM users WHERE id = $1`. -/
def deleteUser (t : Tables) (id : Uuid) : Except SqlError Tables :=
  let t' := t.cascadeUser id
  if t'.serviceAccounts.any (fun sa => sa.createdBy = id) then
    .error (.foreignKeyViolation "service_accounts_created_by_fkey")
  else if t'.apiKeys.any (fun k => k.createdBy = id) then
    .error (.foreignKeyViolation "api_keys_created_by_fkey")
  else if t'.organisationFeatures.any (fun f => f.updatedBy = id) then
    .error (.foreignKeyViolation "organisation_features_updated_by_fkey")
  else .ok t'

end Tables
end Egras
