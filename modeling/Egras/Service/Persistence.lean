import Egras.Service.Arrivals

/-!
# What is stored stays stored

A `Fact` is something that the tables tell about one row: that it is there, or that there is none.
`Effect.Takes` lists the effects that end a fact, and every other one leaves it as it is
(`Effect.keeps`). With the policy of the service this gives the frame of a whole run
(`Arrival.frame_run`): a fact holds until a demand of the run takes it away that is entitled to, the
catalogue of roles, permissions and flags never changes, and the audit log only grows. Human accounts
stay whatever happens (`Arrival.human_run`).
-/

namespace Egras
open Lib Relation

/-! ## Facts -/

/-- Something that the tables tell about a row. -/
inductive Fact
  /-- An organisation is stored as it is. -/
  | organisation (o : Organisation)
  /-- A user is stored, under its name, its email and its kind. -/
  | account (u : User)
  /-- The password hash of a user. -/
  | password (userId : Uuid) (hash : String)
  /-- A user has a role in an organisation. -/
  | membership (r : UserOrganisationRole)
  /-- A reset token of a user is stored under its hash, used or not. -/
  | resetToken (tokenId userId : Uuid) (tokenHash : String)
  /-- The reset token of a user with a hash has been used. -/
  | spentToken (tokenId userId : Uuid) (tokenHash : String)
  /-- A token has been revoked. -/
  | revocation (r : RevokedToken)
  /-- A token has not been revoked. -/
  | unrevoked (jti : Uuid)
  /-- A channel is stored as it is. -/
  | channel (c : InboundChannel)
  /-- A channel of an organisation has a key. -/
  | channelKey (channelId organisationId : Uuid) (apiKey : String)
  /-- A service account is stored, whenever it was used last. -/
  | serviceAccount (sa : ServiceAccount)
  /-- An API key is stored, revoked or not, whenever it was used last. -/
  | key (k : ApiKeyRecord)
  /-- An API key of a service account has a prefix and the hash of a secret, revoked or not. -/
  | keySecret (keyId userId : Uuid) (keyPrefix secretHash : String)
  /-- A flag is overridden. -/
  | override (f : OrgFeatureOverride)
  /-- A flag is not overridden. -/
  | noOverride (organisationId : Uuid) (slug : String)
deriving DecidableEq

/-- The tables bear a fact out. -/
def Tables.Records (t : Tables) : Fact → Prop
  | .organisation o => o ∈ t.organisations
  | .account u => ∃ q ∈ t.users, { q with passwordHash := u.passwordHash, updatedAt := u.updatedAt } = u
  | .password userId hash => ∃ q ∈ t.users, q.id = userId ∧ q.passwordHash = hash
  | .membership r => r ∈ t.userOrganisationRoles
  | .resetToken tokenId userId tokenHash => ∃ p ∈ t.passwordResetTokens,
    p.id = tokenId ∧ p.userId = userId ∧ p.tokenHash = tokenHash
  | .spentToken tokenId userId tokenHash => ∃ p ∈ t.passwordResetTokens,
    p.id = tokenId ∧ p.userId = userId ∧ p.tokenHash = tokenHash ∧ p.usedAt ≠ none
  | .revocation r => r ∈ t.revokedTokens
  | .unrevoked jti => ∀ r ∈ t.revokedTokens, r.jti ≠ jti
  | .channel c => c ∈ t.inboundChannels
  | .channelKey channelId organisationId apiKey => ∃ c ∈ t.inboundChannels,
    c.id = channelId ∧ c.organisationId = organisationId ∧ c.apiKey = apiKey
  | .serviceAccount sa => ∃ q ∈ t.serviceAccounts, { q with lastUsedAt := sa.lastUsedAt } = sa
  | .key k => ∃ q ∈ t.apiKeys, { q with lastUsedAt := k.lastUsedAt } = k
  | .keySecret keyId userId keyPrefix secretHash => ∃ k ∈ t.apiKeys, k.id = keyId ∧
    k.serviceAccountUserId = userId ∧ k.keyPrefix = keyPrefix ∧ k.secretHash = secretHash
  | .override f => f ∈ t.organisationFeatures
  | .noOverride organisationId slug => ∀ f ∈ t.organisationFeatures, f.key ≠ (organisationId, slug)

/-- The user on whose row a fact depends. -/
def Fact.holder : Fact → Option Uuid
  | account u => some u.id
  | password userId _ => some userId
  | membership r => some r.userId
  | resetToken _ userId _ => some userId
  | spentToken _ userId _ => some userId
  | revocation r => some r.userId
  | serviceAccount sa => some sa.userId
  | key k => some k.serviceAccountUserId
  | keySecret _ userId _ _ => some userId
  | organisation _ | unrevoked _ | channel _ | channelKey _ _ _ | override _ | noOverride _ _ => none

/-- An effect may end a fact. -/
def Effect.Takes : Effect → Fact → Prop
  | setPassword userId _ _, .password u _ => userId = u
  | deleteUser userId, f => f.holder = some userId
  | dropOldestPending userId _, .resetToken _ u _ => userId = u
  | removeMember userId organisationId, .membership r =>
    r.userId = userId ∧ r.organisationId = organisationId
  | revokeToken r, .unrevoked jti => r.jti = jti
  | revokeKey keyId owner _, .key k =>
    k.id = keyId ∧ k.revokedAt = none ∧ ∀ u, owner = some u → k.serviceAccountUserId = u
  | updateChannel organisationId channelId _ _ _ _ _, .channel c =>
    c.id = channelId ∧ c.organisationId = organisationId
  | deleteChannel organisationId channelId, .channel c =>
    c.id = channelId ∧ c.organisationId = organisationId
  | deleteChannel organisationId channelId, .channelKey c o _ => c = channelId ∧ o = organisationId
  | setFlag f, .override q => q.key = f.key
  | setFlag f, .noOverride organisationId slug => f.key = (organisationId, slug)
  | clearFlag organisationId slug, .override q => q.key = (organisationId, slug)
  | _, _ => False

/-! ## What effects leave as it is -/

namespace Tables
variable {t t' : Tables} {f : Fact}

/-! What an accepted insertion stores. -/

/-- An accepted organisation is what the table gains. -/
lemma insertOrganisation_stored {o : Organisation} (h : t.insertOrganisation o = .ok t') :
    ∃ rows, t.organisations.insert? o = some rows ∧ t' = { t with organisations := rows } := by
  obtain ⟨hfree, rfl⟩ := insertOrganisation_eq_ok h
  obtain ⟨rows, hrows⟩ := organisations_insert?_of_free hfree
  exact ⟨rows, hrows, by rw [addOrganisation, hrows]⟩

/-- An accepted user is what the table gains. -/
lemma insertUser_stored [CaseMapping] {u : User} (h : t.insertUser u = .ok t') :
    ∃ rows, t.users.insert? u = some rows ∧ t' = { t with users := rows } := by
  obtain ⟨hfree, rfl⟩ := insertUser_eq_ok h
  obtain ⟨rows, hrows⟩ := users_insert?_of_free hfree
  exact ⟨rows, hrows, by rw [addUser, hrows]⟩

/-- An accepted service account is what the table gains. -/
lemma insertServiceAccount_stored {sa : ServiceAccount} (h : t.insertServiceAccount sa = .ok t') :
    ∃ rows, t.serviceAccounts.insert? sa = some rows ∧ t' = { t with serviceAccounts := rows } := by
  obtain ⟨rfl, rows, hrows⟩ := insertServiceAccount_eq_ok h
  exact ⟨rows, hrows, by rw [addServiceAccount, hrows]⟩

/-- An accepted key is what the table gains. -/
lemma insertApiKey_stored {k : ApiKeyRecord} (h : t.insertApiKey k = .ok t') :
    ∃ rows, t.apiKeys.insert? k = some rows ∧ t' = { t with apiKeys := rows } := by
  obtain ⟨hins, rfl⟩ := insertApiKey_eq_ok h
  cases hrows : t.apiKeys.insert? k with
  | none =>
    obtain ⟨q, hq, hkey⟩ := Table.insert?_eq_none.mp hrows
    exact absurd hkey (hins.id q hq)
  | some rows => exact ⟨rows, rfl, by rw [addKey, hrows]⟩

/-! Insertions. -/

/-- A new organisation ends no fact. -/
lemma Records.insertOrganisation {o : Organisation} (hf : t.Records f)
    (h : t.insertOrganisation o = .ok t') : t'.Records f := by
  obtain ⟨rows, hrows, rfl⟩ := insertOrganisation_stored h
  cases f with
  | organisation q => exact (Table.mem_insert? hrows).mpr (Or.inl hf)
  | _ => exact hf

/-- A new user ends no fact. -/
lemma Records.insertUser [CaseMapping] {u : User} (hf : t.Records f)
    (h : t.insertUser u = .ok t') : t'.Records f := by
  obtain ⟨rows, hrows, rfl⟩ := insertUser_stored h
  have hold : ∀ q ∈ t.users, q ∈ rows := fun q hq => (Table.mem_insert? hrows).mpr (Or.inl hq)
  cases f with
  | account _ =>
    obtain ⟨q, hq, hsame⟩ := hf
    exact ⟨q, hold q hq, hsame⟩
  | password _ _ =>
    obtain ⟨q, hq, hsame⟩ := hf
    exact ⟨q, hold q hq, hsame⟩
  | _ => exact hf

/-- A new role row ends no fact. -/
lemma Records.assignRole {r : UserOrganisationRole} (hf : t.Records f)
    (h : t.assignRole r = .ok t') : t'.Records f := by
  obtain rfl | ⟨rows, hrows, rfl⟩ := assignRole_stored h
  · exact hf
  · cases f with
    | membership q => exact (Table.mem_insert? hrows).mpr (Or.inl hf)
    | _ => exact hf

/-- A new reset token ends no fact. -/
lemma Records.insertPasswordResetToken {p : PasswordResetToken} (hf : t.Records f)
    (h : t.insertPasswordResetToken p = .ok t') : t'.Records f := by
  obtain ⟨rows, hrows, rfl⟩ := insertPasswordResetToken_eq_ok h
  cases f with
  | resetToken _ _ _ =>
    obtain ⟨q, hq, hsame⟩ := hf
    exact ⟨q, (Table.mem_insert? hrows).mpr (Or.inl hq), hsame⟩
  | spentToken _ _ _ =>
    obtain ⟨q, hq, hspent⟩ := hf
    exact ⟨q, (Table.mem_insert? hrows).mpr (Or.inl hq), hspent⟩
  | _ => exact hf

/-- A revocation ends only that its own token is unrevoked. -/
lemma Records.insertRevokedToken {r : RevokedToken} (hf : t.Records f)
    (h : t.insertRevokedToken r = .ok t') : (∃ jti, f = .unrevoked jti ∧ r.jti = jti) ∨ t'.Records f := by
  obtain ⟨⟨rows, rfl⟩, ⟨hsame, -⟩ | hmem⟩ := insertRevokedToken_eq_ok h
  · exact Or.inr (hsame ▸ hf)
  · cases f with
    | revocation q => exact Or.inr ((hmem q).mpr (Or.inl hf))
    | unrevoked jti =>
      by_cases hjti : r.jti = jti
      · exact Or.inl ⟨jti, rfl, hjti⟩
      · refine Or.inr fun q hq => ?_
        rcases (hmem q).mp hq with hq | rfl
        · exact hf q hq
        · exact hjti
    | _ => exact Or.inr hf

/-- A new service account ends no fact. -/
lemma Records.insertServiceAccount {sa : ServiceAccount} (hf : t.Records f)
    (h : t.insertServiceAccount sa = .ok t') : t'.Records f := by
  obtain ⟨rows, hrows, rfl⟩ := insertServiceAccount_stored h
  cases f with
  | serviceAccount _ =>
    obtain ⟨q, hq, hsame⟩ := hf
    exact ⟨q, (Table.mem_insert? hrows).mpr (Or.inl hq), hsame⟩
  | _ => exact hf

/-- A new key ends no fact. -/
lemma Records.insertApiKey {k : ApiKeyRecord} (hf : t.Records f)
    (h : t.insertApiKey k = .ok t') : t'.Records f := by
  obtain ⟨rows, hrows, rfl⟩ := insertApiKey_stored h
  cases f with
  | key _ | keySecret _ _ _ _ =>
    obtain ⟨q, hq, hsame⟩ := hf
    exact ⟨q, (Table.mem_insert? hrows).mpr (Or.inl hq), hsame⟩
  | _ => exact hf

/-- A new channel ends no fact. -/
lemma Records.insertChannel {c : InboundChannel} (hf : t.Records f)
    (h : t.insertChannel c = .ok t') : t'.Records f := by
  obtain ⟨rows, hrows, rfl⟩ := insertChannel_eq_ok h
  cases f with
  | channel q => exact (Table.mem_insert? hrows).mpr (Or.inl hf)
  | channelKey _ _ _ =>
    obtain ⟨q, hq, hsame⟩ := hf
    exact ⟨q, (Table.mem_insert? hrows).mpr (Or.inl hq), hsame⟩
  | _ => exact hf

/-- A new event ends no fact. -/
lemma Records.insertAuditEvent {e : AuditEvent} (hf : t.Records f)
    (h : t.insertAuditEvent e = .ok t') : t'.Records f := by
  rw [(insertAuditEvent_eq_ok h).2.2]
  cases f <;> exact hf

/-! Updates. -/

/-- Another password hash for a user ends what was known of the old one only. -/
lemma Records.setPasswordHash {u : Uuid} {hash : String} {now : Timestamp} (hf : t.Records f) :
    Effect.Takes (.setPassword u hash now) f ∨ (t.setPasswordHash u hash now).Records f := by
  cases f with
  | account _ =>
    obtain ⟨q, hq, hsame⟩ := hf
    by_cases hid : q.id = u
    · exact Or.inr ⟨_, mem_setPasswordHash.mpr (Or.inr ⟨q, hq, hid, rfl⟩), hsame⟩
    · exact Or.inr ⟨q, mem_setPasswordHash.mpr (Or.inl ⟨hq, hid⟩), hsame⟩
  | password userId _ =>
    obtain ⟨q, hq, rfl, hhash⟩ := hf
    by_cases hid : q.id = u
    · exact Or.inl hid.symm
    · exact Or.inr ⟨q, mem_setPasswordHash.mpr (Or.inl ⟨hq, hid⟩), rfl, hhash⟩
  | _ => exact Or.inr hf

/-- A consumed token ends no fact. -/
lemma Records.consumeToken {tokenId : Uuid} {now : Timestamp} (hf : t.Records f) :
    (t.consumeToken tokenId now).Records f := by
  cases f with
  | resetToken _ _ _ =>
    obtain ⟨p, hp, hsame⟩ := hf
    refine ⟨_, List.mem_map.mpr ⟨p, hp, rfl⟩, ?_⟩
    split <;> exact hsame
  | spentToken _ _ _ =>
    obtain ⟨p, hp, hid, huser, hhash, hused⟩ := hf
    refine ⟨_, List.mem_map.mpr ⟨p, hp, rfl⟩, ?_⟩
    split
    · exact ⟨hid, huser, hhash, by simp⟩
    · exact ⟨hid, huser, hhash, hused⟩
  | _ => exact hf

/-- A service account that was used ends no fact. -/
lemma Records.touchServiceAccount {u : Uuid} {now : Timestamp} (hf : t.Records f) :
    (t.touchServiceAccount u now).Records f := by
  cases f with
  | serviceAccount _ =>
    obtain ⟨q, hq, hsame⟩ := hf
    refine ⟨_, List.mem_map.mpr ⟨q, hq, rfl⟩, ?_⟩
    split <;> exact hsame
  | _ => exact hf

/-- A key that was used ends no fact. -/
lemma Records.touchKey {keyId : Uuid} {now : Timestamp} (hf : t.Records f) :
    (t.touchKey keyId now).Records f := by
  cases f with
  | key _ | keySecret _ _ _ _ =>
    obtain ⟨q, hq, hsame⟩ := hf
    refine ⟨_, List.mem_map.mpr ⟨q, hq, rfl⟩, ?_⟩
    split <;> exact hsame
  | _ => exact hf

/-- A revocation ends what was known of an active key that it selects. -/
lemma Records.revokeKeys (hf : t.Records f) (p : ApiKeyRecord → Bool) (now : Timestamp) :
    (∃ k, f = .key k ∧ ∃ q ∈ t.apiKeys, { q with lastUsedAt := k.lastUsedAt } = k ∧ p q = true) ∨
      (t.revokeKeys p now).Records f := by
  cases f with
  | key k =>
    obtain ⟨q, hq, hsame⟩ := hf
    cases hp : p q with
    | true => exact Or.inl ⟨k, rfl, q, hq, hsame, hp⟩
    | false =>
      refine Or.inr ⟨_, mem_revokeKeys.mpr ⟨q, hq, rfl⟩, ?_⟩
      rw [hp]
      exact hsame
  | keySecret _ _ _ _ =>
    obtain ⟨q, hq, hsame⟩ := hf
    refine Or.inr ⟨_, mem_revokeKeys.mpr ⟨q, hq, rfl⟩, ?_⟩
    split <;> exact hsame
  | _ => exact Or.inr hf

/-- An update ends what it takes, and nothing else. -/
lemma Records.updateChannel {org channelId : Uuid} {name : String} {description : Option String}
    {channelType : ChannelType} {isActive : Bool} {now : Timestamp} {a : Option InboundChannel}
    (hf : t.Records f)
    (h : t.updateChannel org channelId name description channelType isActive now = .ok (a, t')) :
    Effect.Takes (.updateChannel org channelId name description channelType isActive now) f ∨
      t'.Records f := by
  rcases updateChannel_cases h with ⟨-, rfl⟩ | ⟨-, rfl⟩
  · exact Or.inr hf
  · cases f with
    | channel c =>
      by_cases hc : c.id = channelId ∧ c.organisationId = org
      · exact Or.inl hc
      · refine Or.inr (List.mem_map.mpr ⟨c, hf, if_neg ?_⟩)
        simpa using hc
    | channelKey _ _ _ =>
      obtain ⟨c, hc, hsame⟩ := hf
      refine Or.inr ⟨_, List.mem_map.mpr ⟨c, hc, rfl⟩, ?_⟩
      split <;> exact hsame
    | _ => exact Or.inr hf

/-- A flag that is set ends what it takes, and nothing else. -/
lemma Records.upsertFeature {g : OrgFeatureOverride} (hf : t.Records f)
    (h : t.upsertFeature g = .ok t') : Effect.Takes (.setFlag g) f ∨ t'.Records f := by
  obtain ⟨-, rfl⟩ := upsertFeature_eq_ok h
  cases f with
  | override q =>
    by_cases hkey : q.key = g.key
    · exact Or.inl hkey
    · exact Or.inr (Table.mem_upsert.mpr (Or.inl ⟨hf, hkey⟩))
  | noOverride org slug =>
    by_cases hkey : g.key = (org, slug)
    · exact Or.inl hkey
    · refine Or.inr fun q hq => ?_
      rcases Table.mem_upsert.mp hq with ⟨hq, -⟩ | rfl
      · exact hf q hq
      · exact hkey
  | _ => exact Or.inr hf

/-! Deletions. -/

/-- The token that goes is a pending one of the user. -/
lemma kept_dropOldestPending {u : Uuid} {now : Timestamp} {p : PasswordResetToken}
    (hp : p ∈ t.passwordResetTokens) (h : p.userId = u → p.usedAt ≠ none) :
    p ∈ (t.dropOldestPending u now).passwordResetTokens := by
  refine Table.mem_deleteWhere.mpr ⟨hp, ?_⟩
  cases holdest : t.oldestPending u now with
  | none => rfl
  | some q =>
    have hq : q ∈ t.pendingTokens u now :=
      (List.perm_insertionSort _ _).mem_iff.mp (List.mem_of_mem_head? holdest)
    obtain ⟨hmem, hpending⟩ := Table.mem_select.mp hq
    simp only [Bool.and_eq_true, decide_eq_true_eq] at hpending
    obtain ⟨⟨huser, hunused⟩, -⟩ := hpending
    refine decide_eq_false fun he => ?_
    obtain rfl : p = q := Table.eq_of_key hp hmem he
    exact h huser hunused

/-- A dropped token ends what it takes, and nothing else. -/
lemma Records.dropOldestPending {u : Uuid} {now : Timestamp} (hf : t.Records f) :
    Effect.Takes (.dropOldestPending u now) f ∨ (t.dropOldestPending u now).Records f := by
  cases f with
  | resetToken tokenId userId _ =>
    obtain ⟨p, hp, hid, rfl, hhash⟩ := hf
    by_cases huser : u = p.userId
    · exact Or.inl huser
    · exact Or.inr ⟨p, kept_dropOldestPending hp fun he => absurd he.symm huser, hid, rfl, hhash⟩
  | spentToken _ _ _ =>
    obtain ⟨p, hp, hid, huser, hhash, hused⟩ := hf
    exact Or.inr ⟨p, kept_dropOldestPending hp fun _ => hused, hid, huser, hhash, hused⟩
  | _ => exact Or.inr hf

/-- A removal ends what it takes, and nothing else. -/
lemma Records.removeMember {u org : Uuid} (hf : t.Records f) :
    Effect.Takes (.removeMember u org) f ∨ (t.removeMember u org).Records f := by
  cases f with
  | membership r =>
    by_cases hr : r.userId = u ∧ r.organisationId = org
    · exact Or.inl hr
    · exact Or.inr (mem_removeMember.mpr ⟨hf, hr⟩)
  | _ => exact Or.inr hf

/-- A deleted channel ends what it takes, and nothing else. -/
lemma Records.deleteChannel {org channelId : Uuid} (hf : t.Records f) :
    Effect.Takes (.deleteChannel org channelId) f ∨ (t.deleteChannel org channelId).Records f := by
  cases f with
  | channel c =>
    by_cases hc : c.id = channelId ∧ c.organisationId = org
    · exact Or.inl hc
    · exact Or.inr (Table.mem_deleteWhere.mpr ⟨hf, by simpa using hc⟩)
  | channelKey id o _ =>
    obtain ⟨c, hc, rfl, rfl, hkey⟩ := hf
    by_cases hnamed : c.id = channelId ∧ c.organisationId = org
    · exact Or.inl hnamed
    · exact Or.inr ⟨c, Table.mem_deleteWhere.mpr ⟨hc, by simpa using hnamed⟩, rfl, rfl, hkey⟩
  | _ => exact Or.inr hf

/-- A cleared flag ends what it takes, and nothing else. -/
lemma Records.clearFlag {org : Uuid} {slug : String} (hf : t.Records f) :
    Effect.Takes (.clearFlag org slug) f ∨ (t.clearFlag org slug).Records f := by
  cases f with
  | override q =>
    by_cases hkey : q.key = (org, slug)
    · exact Or.inl hkey
    · exact Or.inr (Table.mem_deleteWhere.mpr ⟨hf, by simpa using hkey⟩)
  | noOverride _ _ => exact Or.inr fun q hq => hf q (Table.mem_deleteWhere.mp hq).1
  | _ => exact Or.inr hf

/-- A deletion of a user ends the facts that depend on its row. -/
lemma Records.deleteUser {u : Uuid} (hf : t.Records f) (h : t.deleteUser u = .ok t') :
    Effect.Takes (.deleteUser u) f ∨ t'.Records f := by
  obtain rfl := deleteUser_eq_ok h
  by_cases hholder : f.holder = some u
  · exact Or.inl hholder
  refine Or.inr ?_
  cases f with
  | account q =>
    obtain ⟨r, hr, hsame⟩ := hf
    have hid : r.id = q.id := by rw [← hsame]
    refine ⟨r, Table.mem_deleteWhere.mpr ⟨hr, decide_eq_false fun he => ?_⟩, hsame⟩
    exact hholder (congrArg some (hid.symm.trans he))
  | password userId hash =>
    obtain ⟨r, hr, rfl, hhash⟩ := hf
    refine ⟨r, Table.mem_deleteWhere.mpr ⟨hr, decide_eq_false fun he => ?_⟩, rfl, hhash⟩
    exact hholder (congrArg some he)
  | membership r =>
    exact Table.mem_deleteWhere.mpr ⟨hf, decide_eq_false fun he => hholder (congrArg some he)⟩
  | resetToken tokenId userId tokenHash =>
    obtain ⟨p, hp, hid, rfl, hhash⟩ := hf
    refine ⟨p, Table.mem_deleteWhere.mpr ⟨hp, decide_eq_false fun he => ?_⟩, hid, rfl, hhash⟩
    exact hholder (congrArg some he)
  | spentToken tokenId userId tokenHash =>
    obtain ⟨p, hp, hid, rfl, hspent⟩ := hf
    refine ⟨p, Table.mem_deleteWhere.mpr ⟨hp, decide_eq_false fun he => ?_⟩, hid, rfl, hspent⟩
    exact hholder (congrArg some he)
  | revocation r =>
    exact Table.mem_deleteWhere.mpr ⟨hf, decide_eq_false fun he => hholder (congrArg some he)⟩
  | unrevoked _ => exact fun r hr => hf r (Table.mem_deleteWhere.mp hr).1
  | serviceAccount sa =>
    obtain ⟨q, hq, hsame⟩ := hf
    have hid : q.userId = sa.userId := by rw [← hsame]
    refine ⟨q, Table.mem_deleteWhere.mpr ⟨hq, decide_eq_false fun he => ?_⟩, hsame⟩
    exact hholder (congrArg some (hid.symm.trans he))
  | key k =>
    obtain ⟨q, hq, hsame⟩ := hf
    have hid : q.serviceAccountUserId = k.serviceAccountUserId := by rw [← hsame]
    refine ⟨q, Table.mem_deleteWhere.mpr ⟨hq, decide_eq_false fun he => ?_⟩, hsame⟩
    exact hholder (congrArg some (hid.symm.trans he))
  | keySecret keyId userId keyPrefix secretHash =>
    obtain ⟨k, hk, hid, rfl, hsecret⟩ := hf
    refine ⟨k, Table.mem_deleteWhere.mpr ⟨hk, decide_eq_false fun he => ?_⟩, hid, rfl, hsecret⟩
    exact hholder (congrArg some he)
  | organisation _ | channel _ | channelKey _ _ _ | override _ | noOverride _ _ => exact hf

end Tables

/-- An effect leaves every fact as it is that it does not take away. -/
theorem Effect.keeps [CaseMapping] {t t' : Tables} {e : Effect} {f : Fact}
    (h : Effect.apply t e = .ok t') (hf : t.Records f) : e.Takes f ∨ t'.Records f := by
  cases e with
  | addOrganisation o => exact Or.inr (hf.insertOrganisation h)
  | addUser u => exact Or.inr (hf.insertUser h)
  | setPassword userId hash now =>
    cases h
    exact hf.setPasswordHash
  | deleteUser userId => exact hf.deleteUser h
  | addRole r => exact Or.inr (hf.assignRole h)
  | removeMember userId organisationId =>
    cases h
    exact hf.removeMember
  | addResetToken p => exact Or.inr (hf.insertPasswordResetToken h)
  | dropOldestPending userId now =>
    cases h
    exact hf.dropOldestPending
  | consumeToken tokenId now =>
    cases h
    exact Or.inr hf.consumeToken
  | revokeToken r =>
    rcases hf.insertRevokedToken h with ⟨jti, rfl, hjti⟩ | hkept
    · exact Or.inl hjti
    · exact Or.inr hkept
  | addServiceAccount sa => exact Or.inr (hf.insertServiceAccount h)
  | touchServiceAccount saUserId now =>
    cases h
    exact Or.inr hf.touchServiceAccount
  | addKey k => exact Or.inr (hf.insertApiKey h)
  | revokeKey keyId owner now =>
    cases owner with
    | none =>
      cases h
      rcases hf.revokeKeys (fun k => k.id = keyId && k.revokedAt = none) now with
        ⟨k, rfl, q, -, hsame, hp⟩ | hkept
      · simp only [Bool.and_eq_true, decide_eq_true_eq] at hp
        rw [← hsame]
        exact Or.inl ⟨hp.1, hp.2, fun u hu => by cases hu⟩
      · exact Or.inr hkept
    | some owner =>
      cases h
      rcases hf.revokeKeys (fun k => k.id = keyId && k.serviceAccountUserId = owner &&
          k.revokedAt = none) now with ⟨k, rfl, q, -, hsame, hp⟩ | hkept
      · simp only [Bool.and_eq_true, decide_eq_true_eq] at hp
        rw [← hsame]
        exact Or.inl ⟨hp.1.1, hp.2, fun u hu => Option.some.inj hu ▸ hp.1.2⟩
      · exact Or.inr hkept
  | touchKey keyId now =>
    cases h
    exact Or.inr hf.touchKey
  | addChannel c => exact Or.inr (hf.insertChannel h)
  | updateChannel organisationId channelId name description channelType isActive now =>
    obtain ⟨a, hupdate⟩ := Effect.apply_updateChannel h
    exact hf.updateChannel hupdate
  | deleteChannel organisationId channelId =>
    cases h
    exact hf.deleteChannel
  | setFlag g => exact hf.upsertFeature h
  | clearFlag organisationId slug =>
    cases h
    exact hf.clearFlag
  | addEvent e => exact Or.inr (hf.insertAuditEvent h)

/-! ## What never changes -/

namespace Tables

/-- The rows that the migrations store and no statement writes. -/
def catalogue (t : Tables) :
    List Role × List PermissionRow × List RolePermission × List FeatureDefinition :=
  (t.roles.rows, t.permissions.rows, t.rolePermissions.rows, t.featureDefinitions.rows)

/-- The catalogue is the same and the audit log has only grown. -/
structure Extends (t t' : Tables) : Prop where
  catalogue : t'.catalogue = t.catalogue
  events : t.auditEvents.rows <+: t'.auditEvents.rows

/-- The same catalogue and the same events. -/
lemma Extends.of_eq {t t' : Tables} (h : t'.catalogue = t.catalogue)
    (hevents : t'.auditEvents = t.auditEvents) : t.Extends t' :=
  ⟨h, hevents ▸ List.prefix_refl _⟩

/-- Tables that extend tables extend what these extend. -/
lemma Extends.trans {t t' t'' : Tables} (h : t.Extends t') (h' : t'.Extends t'') :
    t.Extends t'' :=
  ⟨h'.catalogue.trans h.catalogue, h.events.trans h'.events⟩

end Tables

/-- The audit events that an effect inserts. -/
def Effect.events : Effect → List AuditEvent
  | addEvent e => [e]
  | _ => []

/-- Every effect leaves the catalogue alone and the audit log too, but for the events it inserts. -/
lemma Effect.appends [CaseMapping] {t t' : Tables} {e : Effect} (h : Effect.apply t e = .ok t') :
    t'.catalogue = t.catalogue ∧ t'.auditEvents.rows = t.auditEvents.rows ++ e.events := by
  have hnone : t.auditEvents.rows = t.auditEvents.rows ++ [] := (List.append_nil _).symm
  cases e with
  | addOrganisation o =>
    obtain ⟨rows, -, rfl⟩ := Tables.insertOrganisation_stored h
    exact ⟨rfl, hnone⟩
  | addUser u =>
    obtain ⟨rows, -, rfl⟩ := Tables.insertUser_stored h
    exact ⟨rfl, hnone⟩
  | deleteUser userId =>
    obtain rfl := Tables.deleteUser_eq_ok h
    exact ⟨rfl, hnone⟩
  | addRole r =>
    obtain rfl | ⟨rows, -, rfl⟩ := Tables.assignRole_stored h <;> exact ⟨rfl, hnone⟩
  | addResetToken p =>
    obtain ⟨rows, -, rfl⟩ := Tables.insertPasswordResetToken_eq_ok h
    exact ⟨rfl, hnone⟩
  | revokeToken r =>
    obtain ⟨⟨rows, rfl⟩, -⟩ := Tables.insertRevokedToken_eq_ok h
    exact ⟨rfl, hnone⟩
  | addServiceAccount sa =>
    obtain ⟨rows, -, rfl⟩ := Tables.insertServiceAccount_stored h
    exact ⟨rfl, hnone⟩
  | addKey k =>
    obtain ⟨rows, -, rfl⟩ := Tables.insertApiKey_stored h
    exact ⟨rfl, hnone⟩
  | revokeKey keyId owner now =>
    cases owner <;> cases h <;> exact ⟨rfl, hnone⟩
  | addChannel c =>
    obtain ⟨rows, -, rfl⟩ := Tables.insertChannel_eq_ok h
    exact ⟨rfl, hnone⟩
  | updateChannel organisationId channelId name description channelType isActive now =>
    obtain ⟨a, hupdate⟩ := Effect.apply_updateChannel h
    obtain ⟨rows, hrows, -⟩ := channelsChanged_update hupdate
    rw [hrows]
    exact ⟨rfl, hnone⟩
  | setFlag g =>
    obtain ⟨-, rfl⟩ := Tables.upsertFeature_eq_ok h
    exact ⟨rfl, hnone⟩
  | addEvent e =>
    obtain ⟨-, hrows, hsame⟩ := Tables.insertAuditEvent_eq_ok h
    exact ⟨by rw [hsame]; rfl, hrows⟩
  | setPassword _ _ _ | removeMember _ _ | dropOldestPending _ _ | consumeToken _ _
  | touchServiceAccount _ _ | touchKey _ _ | deleteChannel _ _ | clearFlag _ _ =>
    cases h
    exact ⟨rfl, hnone⟩

/-- Every effect leaves the catalogue alone and the audit log longer, if not the same. -/
theorem Effect.extends [CaseMapping] {t t' : Tables} {e : Effect}
    (h : Effect.apply t e = .ok t') : t.Extends t' :=
  ⟨(Effect.appends h).1, (Effect.appends h).2 ▸ List.prefix_append _ _⟩

/-- The effect that brings an event is its insertion. -/
lemma Effect.eq_addEvent [CaseMapping] {t t' : Tables} {e : Effect} {r : AuditEvent}
    (h : Effect.apply t e = .ok t') (hr : r ∉ t.auditEvents) (hr' : r ∈ t'.auditEvents) :
    e = .addEvent r := by
  rw [← Table.mem_rows, (Effect.appends h).2] at hr'
  rcases List.mem_append.mp hr' with hold | hnew
  · exact absurd hold hr
  · cases e with
    | addEvent e => rw [List.mem_singleton.mp hnew]
    | _ => cases hnew

/-- Along effects the catalogue stays the same and the audit log grows. -/
lemma Effect.extends_of_follows [CaseMapping] {A : Tables → Effect → Prop} {t t' : Tables}
    (h : ReflTransGen (Effect.Step A) t t') : t.Extends t' := by
  apply Effect.invariant (I := fun t' => t.Extends t') _ h (.of_eq rfl rfl)
  intro s s' e _ happly hs
  exact hs.trans (Effect.extends happly)

/-! ## Runs -/

namespace Route
variable [Argon2] [CaseMapping] {c : AuthedCaller} {t₀ t : Tables} {now : Timestamp} {u : Uuid}
  {route : Route}

/-- Only service accounts are deleted. -/
lemma Permits.isServiceAccount (h : route.Permits c t₀ now t (.deleteUser u)) :
    ∃ user ∈ t₀.users, user.id = u ∧ user.kind = .serviceAccount := by
  cases route with
  | resource n action =>
    cases action with
    | deleteServiceAccount =>
      obtain ⟨-, -, haccount⟩ := h
      exact haccount
    | _ => exact False.elim h
  | _ => exact False.elim h

end Route

namespace Arrival
variable [Platform] [Sha256] {config : JwtConfig} {x : Arrival} {t : Tables}

/-- Only service accounts are deleted. -/
lemma Entitles.isServiceAccount {u : Uuid} (h : x.Entitles config t (.deleteUser u)) :
    ∃ user ∈ x.world.tables.users, user.id = u ∧ user.kind = .serviceAccount := by
  obtain ⟨w, demand⟩ := x
  cases demand with
  | guarded headers route =>
    obtain ⟨p, c, -, -, -, hpermits⟩ := h
    exact hpermits.isServiceAccount
  | unguarded operation free =>
    cases operation with
    | request _ _ _ | call _ => cases free
    | _ => exact False.elim h

/-- No demand ends a human account. -/
lemma keeps_human {u : User} (h : ReflTransGen (Effect.Step (x.Entitles config)) x.world.tables t)
    (hhuman : u.kind = .human) (hu : x.world.tables.Records (.account u)) :
    t.Records (.account u) := by
  by_contra hgone
  obtain ⟨s, s', -, ⟨e, hentitled, happly⟩, -, hs, hs'⟩ :=
    exists_turn (P := fun t => ¬ t.Records (.account u)) h (not_not.mpr hu) hgone
  have htakes := (Effect.keeps happly (not_not.mp hs)).resolve_right hs'
  obtain ⟨q, hq, hsame⟩ := hu
  have hq' : q.id = u.id ∧ q.kind = u.kind := by
    rw [← hsame]
    exact ⟨rfl, rfl⟩
  cases e with
  | deleteUser id =>
    obtain ⟨user, hmem, hid, hkind⟩ := hentitled.isServiceAccount
    obtain rfl : user = q :=
      Table.eq_of_key hmem hq (hid.trans (hq'.1.trans (Option.some.inj htakes)).symm)
    rw [hkind, hhuman] at hq'
    cases hq'.2
  | _ => exact htakes

variable [AuditCursorText] {i j : Instant} {ms : List (Move Instant Arrival)}

/-- A demand leaves every human account there. -/
lemma Step.keeps_human {u : User} (step : x.Step config i j) (hhuman : u.kind = .human)
    (hu : i.tables.Records (.account u)) : j.tables.Records (.account u) := by
  have hpath := step.follows
  rw [← step.pre] at hpath hu
  exact Arrival.keeps_human hpath hhuman hu

/-- A move of a run ends a fact, by an effect to which its demand is entitled. -/
def Ends (config : JwtConfig) (m : Move Instant Arrival) (f : Fact) : Prop :=
  ∃ s e s', Does config m s e s' ∧ s.Records f ∧ ¬ s'.Records f ∧ e.Takes f

/-- What a run leaves as it is. -/
lemma frame_run (run : Run (Step config) i ms j) :
    i.tables.Extends j.tables ∧
      ∀ f, i.tables.Records f → (∃ m ∈ ms, Ends config m f) ∨ j.tables.Records f := by
  constructor
  · apply run.invariant (fun s => i.tables.Extends s.tables) (fun _ => True) (.of_eq rfl rfl)
    · intro s x s' step _ h
      exact h.trans (Effect.extends_of_follows step.follows)
    · exact fun _ _ => trivial
  · intro f hf
    refine or_iff_not_imp_right.mpr fun hgone => ?_
    obtain ⟨m, hm, s, e, s', does, hs, hs'⟩ :=
      turn_of_run (P := fun t => ¬ t.Records f) run (not_not.mpr hf) hgone
    have hrecorded := not_not.mp hs
    exact ⟨m, hm, s, e, s', does, hrecorded, hs',
      (Effect.keeps does.effect hrecorded).resolve_right hs'⟩

/-- No run ends a human account. -/
lemma human_run {u : User} (run : Run (Step config) i ms j) (hhuman : u.kind = .human)
    (hu : i.tables.Records (.account u)) : j.tables.Records (.account u) :=
  run.invariant (fun s => s.tables.Records (.account u)) (fun _ => True) hu
    (fun _ _ _ step _ h => step.keeps_human hhuman h) fun _ _ => trivial

end Arrival
end Egras
