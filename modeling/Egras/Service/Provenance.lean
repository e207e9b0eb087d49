import Egras.Service.Persistence

/-!
# Where what is stored comes from

The other half of persistence. `Effect.Makes` lists the facts that an effect brings about, and no
other fact holds after it that did not hold before (`Effect.makes`). So over a whole run every fact
that holds at the end held at the start, or there is a move of the run and an effect on its way that
made it and to which the demand of the move was entitled on the tables as they were then; with the
frame of runs this accounts for all that the tables tell (`Arrival.facts_accounted`).
-/

namespace Egras
open Lib Relation

/-- An effect on the tables `t` may bring a fact about. -/
def Effect.Makes (t : Tables) : Effect → Fact → Prop
  | addOrganisation o, .organisation q => q = o
  | addUser u, .account q => { u with passwordHash := q.passwordHash, updatedAt := q.updatedAt } = q
  | addUser u, .password userId hash => u.id = userId ∧ u.passwordHash = hash
  | setPassword userId hash _, .password u h => userId = u ∧ hash = h
  | addRole r, .membership q => q = r
  | addResetToken p, .resetToken tokenId userId tokenHash
  | addResetToken p, .spentToken tokenId userId tokenHash =>
    p.id = tokenId ∧ p.userId = userId ∧ p.tokenHash = tokenHash
  | consumeToken id _, .spentToken tokenId _ _ => id = tokenId
  | revokeToken r, .revocation q => q = r
  | deleteUser userId, .unrevoked jti => ∃ r ∈ t.revokedTokens, r.jti = jti ∧ r.userId = userId
  | addServiceAccount sa, .serviceAccount q => { sa with lastUsedAt := q.lastUsedAt } = q
  | addKey k, .key q => { k with lastUsedAt := q.lastUsedAt } = q
  | addKey k, .keySecret keyId userId keyPrefix secretHash =>
    k.id = keyId ∧ k.serviceAccountUserId = userId ∧ k.keyPrefix = keyPrefix ∧
      k.secretHash = secretHash
  | revokeKey keyId owner now, .key q => ∃ k ∈ t.apiKeys, k.id = keyId ∧ k.revokedAt = none ∧
    (∀ u, owner = some u → k.serviceAccountUserId = u) ∧
    { k with revokedAt := some now, lastUsedAt := q.lastUsedAt } = q
  | addChannel c, .channel q => q = c
  | addChannel c, .channelKey channelId organisationId apiKey =>
    c.id = channelId ∧ c.organisationId = organisationId ∧ c.apiKey = apiKey
  | updateChannel organisationId channelId name description channelType isActive now, .channel c =>
    ∃ old ∈ t.inboundChannels, old.id = channelId ∧ old.organisationId = organisationId ∧
      c = { old with
        name := name, description := description, channelType := channelType, isActive := isActive,
        updatedAt := now }
  | setFlag f, .override q => q = f
  | clearFlag organisationId slug, .noOverride o s => o = organisationId ∧ s = slug
  | _, _ => False

/-! ## What effects bring about -/

namespace Tables
variable {t t' : Tables} {f : Fact}

/-! Insertions. -/

/-- A fact about a new organisation was made by its insert. -/
lemma Records.of_insertOrganisation {o : Organisation} (h : t.insertOrganisation o = .ok t')
    (hf : t'.Records f) : Effect.Makes t (.addOrganisation o) f ∨ t.Records f := by
  obtain ⟨rows, hrows, rfl⟩ := insertOrganisation_stored h
  cases f with
  | organisation q =>
    rcases (Table.mem_insert? hrows).mp hf with hq | rfl
    · exact Or.inr hq
    · exact Or.inl rfl
  | _ => exact Or.inr hf

/-- A fact about a new user was made by its insert. -/
lemma Records.of_insertUser [CaseMapping] {u : User} (h : t.insertUser u = .ok t')
    (hf : t'.Records f) : Effect.Makes t (.addUser u) f ∨ t.Records f := by
  obtain ⟨rows, hrows, rfl⟩ := insertUser_stored h
  cases f with
  | account _ =>
    obtain ⟨q, hq, hsame⟩ := hf
    rcases (Table.mem_insert? hrows).mp hq with hq | rfl
    · exact Or.inr ⟨q, hq, hsame⟩
    · exact Or.inl hsame
  | password _ _ =>
    obtain ⟨q, hq, hsame⟩ := hf
    rcases (Table.mem_insert? hrows).mp hq with hq | rfl
    · exact Or.inr ⟨q, hq, hsame⟩
    · exact Or.inl hsame
  | _ => exact Or.inr hf

/-- A fact about a new role row was made by the assignment. -/
lemma Records.of_assignRole {r : UserOrganisationRole} (h : t.assignRole r = .ok t')
    (hf : t'.Records f) : Effect.Makes t (.addRole r) f ∨ t.Records f := by
  obtain rfl | ⟨rows, hrows, rfl⟩ := assignRole_stored h
  · exact Or.inr hf
  · cases f with
    | membership q =>
      rcases (Table.mem_insert? hrows).mp hf with hq | rfl
      · exact Or.inr hq
      · exact Or.inl rfl
    | _ => exact Or.inr hf

/-- A fact about a new reset token was made by its insert. -/
lemma Records.of_insertPasswordResetToken {p : PasswordResetToken}
    (h : t.insertPasswordResetToken p = .ok t') (hf : t'.Records f) :
    Effect.Makes t (.addResetToken p) f ∨ t.Records f := by
  obtain ⟨rows, hrows, rfl⟩ := insertPasswordResetToken_eq_ok h
  cases f with
  | resetToken _ _ _ =>
    obtain ⟨q, hq, hsame⟩ := hf
    rcases (Table.mem_insert? hrows).mp hq with hq | rfl
    · exact Or.inr ⟨q, hq, hsame⟩
    · exact Or.inl hsame
  | spentToken _ _ _ =>
    obtain ⟨q, hq, hid, huser, hhash, hused⟩ := hf
    rcases (Table.mem_insert? hrows).mp hq with hq | rfl
    · exact Or.inr ⟨q, hq, hid, huser, hhash, hused⟩
    · exact Or.inl ⟨hid, huser, hhash⟩
  | _ => exact Or.inr hf

/-- A fact about a new revocation was made by its insert. -/
lemma Records.of_insertRevokedToken {r : RevokedToken} (h : t.insertRevokedToken r = .ok t')
    (hf : t'.Records f) : Effect.Makes t (.revokeToken r) f ∨ t.Records f := by
  obtain ⟨⟨rows, rfl⟩, ⟨hsame, -⟩ | hmem⟩ := insertRevokedToken_eq_ok h
  · exact Or.inr (hsame ▸ hf)
  · cases f with
    | revocation q =>
      rcases (hmem q).mp hf with hq | rfl
      · exact Or.inr hq
      · exact Or.inl rfl
    | unrevoked _ => exact Or.inr fun q hq => hf q ((hmem q).mpr (Or.inl hq))
    | _ => exact Or.inr hf

/-- A fact about a new service account was made by its insert. -/
lemma Records.of_insertServiceAccount {sa : ServiceAccount} (h : t.insertServiceAccount sa = .ok t')
    (hf : t'.Records f) : Effect.Makes t (.addServiceAccount sa) f ∨ t.Records f := by
  obtain ⟨rows, hrows, rfl⟩ := insertServiceAccount_stored h
  cases f with
  | serviceAccount _ =>
    obtain ⟨q, hq, hsame⟩ := hf
    rcases (Table.mem_insert? hrows).mp hq with hq | rfl
    · exact Or.inr ⟨q, hq, hsame⟩
    · exact Or.inl hsame
  | _ => exact Or.inr hf

/-- A fact about a new key was made by its insert. -/
lemma Records.of_insertApiKey {k : ApiKeyRecord} (h : t.insertApiKey k = .ok t')
    (hf : t'.Records f) : Effect.Makes t (.addKey k) f ∨ t.Records f := by
  obtain ⟨rows, hrows, rfl⟩ := insertApiKey_stored h
  cases f with
  | key _ | keySecret _ _ _ _ =>
    obtain ⟨q, hq, hsame⟩ := hf
    rcases (Table.mem_insert? hrows).mp hq with hq | rfl
    · exact Or.inr ⟨q, hq, hsame⟩
    · exact Or.inl hsame
  | _ => exact Or.inr hf

/-- A fact about a new channel was made by its insert. -/
lemma Records.of_insertChannel {c : InboundChannel} (h : t.insertChannel c = .ok t')
    (hf : t'.Records f) : Effect.Makes t (.addChannel c) f ∨ t.Records f := by
  obtain ⟨rows, hrows, rfl⟩ := insertChannel_eq_ok h
  cases f with
  | channel q =>
    rcases (Table.mem_insert? hrows).mp hf with hq | rfl
    · exact Or.inr hq
    · exact Or.inl rfl
  | channelKey _ _ _ =>
    obtain ⟨q, hq, hsame⟩ := hf
    rcases (Table.mem_insert? hrows).mp hq with hq | rfl
    · exact Or.inr ⟨q, hq, hsame⟩
    · exact Or.inl hsame
  | _ => exact Or.inr hf

/-- A new event makes no fact. -/
lemma Records.of_insertAuditEvent {e : AuditEvent} (h : t.insertAuditEvent e = .ok t')
    (hf : t'.Records f) : t.Records f := by
  rw [(insertAuditEvent_eq_ok h).2.2] at hf
  cases f <;> exact hf

/-! Updates. -/

/-- A fact about a new password was made by setting it. -/
lemma Records.of_setPasswordHash {u : Uuid} {hash : String} {now : Timestamp}
    (hf : (t.setPasswordHash u hash now).Records f) :
    Effect.Makes t (.setPassword u hash now) f ∨ t.Records f := by
  cases f with
  | account _ =>
    obtain ⟨q, hmem, hsame⟩ := hf
    obtain ⟨hq, -⟩ | ⟨q', hq, -, rfl⟩ := mem_setPasswordHash.mp hmem
    · exact Or.inr ⟨q, hq, hsame⟩
    · exact Or.inr ⟨q', hq, hsame⟩
  | password _ _ =>
    obtain ⟨q, hmem, huser, hhash⟩ := hf
    obtain ⟨hq, -⟩ | ⟨q', hq, hid, rfl⟩ := mem_setPasswordHash.mp hmem
    · exact Or.inr ⟨q, hq, huser, hhash⟩
    · exact Or.inl ⟨hid.symm.trans huser, hhash⟩
  | _ => exact Or.inr hf

/-- That a token is spent was made by consuming it. -/
lemma Records.of_consumeToken {tokenId : Uuid} {now : Timestamp}
    (hf : (t.consumeToken tokenId now).Records f) :
    Effect.Makes t (.consumeToken tokenId now) f ∨ t.Records f := by
  cases f with
  | resetToken _ _ _ =>
    obtain ⟨q, hq, hsame⟩ := hf
    obtain ⟨p, hp, rfl⟩ := List.mem_map.mp hq
    refine Or.inr ⟨p, hp, ?_⟩
    split at hsame <;> exact hsame
  | spentToken _ _ _ =>
    obtain ⟨q, hq, hid, huser, hhash, hused⟩ := hf
    obtain ⟨p, hp, rfl⟩ := List.mem_map.mp hq
    by_cases hnamed : p.id = tokenId
    · rw [if_pos (decide_eq_true hnamed)] at hid
      exact Or.inl (hnamed.symm.trans hid)
    · rw [if_neg (by simpa using hnamed)] at hid huser hhash hused
      exact Or.inr ⟨p, hp, hid, huser, hhash, hused⟩
  | _ => exact Or.inr hf

/-- A use of a service account makes no fact. -/
lemma Records.of_touchServiceAccount {u : Uuid} {now : Timestamp}
    (hf : (t.touchServiceAccount u now).Records f) : t.Records f := by
  cases f with
  | serviceAccount _ =>
    obtain ⟨q, hq, hsame⟩ := hf
    obtain ⟨sa, hsa, rfl⟩ := List.mem_map.mp hq
    refine ⟨sa, hsa, ?_⟩
    split at hsame <;> exact hsame
  | _ => exact hf

/-- A use of a key makes no fact. -/
lemma Records.of_touchKey {keyId : Uuid} {now : Timestamp}
    (hf : (t.touchKey keyId now).Records f) : t.Records f := by
  cases f with
  | key _ | keySecret _ _ _ _ =>
    obtain ⟨q, hq, hsame⟩ := hf
    obtain ⟨k, hk, rfl⟩ := List.mem_map.mp hq
    refine ⟨k, hk, ?_⟩
    split at hsame <;> exact hsame
  | _ => exact hf

/-- A key that a revocation leaves behind is as before, or it was selected and is revoked now. -/
lemma Records.of_revokeKeys {p : ApiKeyRecord → Bool} {now : Timestamp}
    (hf : (t.revokeKeys p now).Records f) :
    (∃ k, f = .key k ∧ ∃ q ∈ t.apiKeys, p q = true ∧
        { q with revokedAt := some now, lastUsedAt := k.lastUsedAt } = k) ∨
      t.Records f := by
  cases f with
  | key k =>
    obtain ⟨q, hq, hsame⟩ := hf
    obtain ⟨q', hq', rfl⟩ := mem_revokeKeys.mp hq
    cases hp : p q' with
    | true =>
      rw [hp] at hsame
      exact Or.inl ⟨k, rfl, q', hq', hp, hsame⟩
    | false =>
      rw [hp] at hsame
      exact Or.inr ⟨q', hq', hsame⟩
  | keySecret _ _ _ _ =>
    obtain ⟨q, hq, hsame⟩ := hf
    obtain ⟨k, hk, rfl⟩ := mem_revokeKeys.mp hq
    refine Or.inr ⟨k, hk, ?_⟩
    split at hsame <;> exact hsame
  | _ => exact Or.inr hf

/-- A fact about a new state of a channel was made by its update. -/
lemma Records.of_updateChannel {org channelId : Uuid} {name : String} {description : Option String}
    {channelType : ChannelType} {isActive : Bool} {now : Timestamp} {a : Option InboundChannel}
    (h : t.updateChannel org channelId name description channelType isActive now = .ok (a, t'))
    (hf : t'.Records f) :
    Effect.Makes t (.updateChannel org channelId name description channelType isActive now) f ∨
      t.Records f := by
  rcases updateChannel_cases h with ⟨-, rfl⟩ | ⟨-, rfl⟩
  · exact Or.inr hf
  · cases f with
    | channel c =>
      obtain ⟨q, hq, hsame⟩ := List.mem_map.mp hf
      by_cases hq' : q.id = channelId ∧ q.organisationId = org
      · rw [if_pos (by simpa using hq')] at hsame
        exact Or.inl ⟨q, hq, hq'.1, hq'.2, hsame.symm⟩
      · rw [if_neg (by simpa using hq')] at hsame
        exact Or.inr (hsame ▸ hq)
    | channelKey _ _ _ =>
      obtain ⟨q, hq, hsame⟩ := hf
      obtain ⟨c, hc, rfl⟩ := List.mem_map.mp hq
      refine Or.inr ⟨c, hc, ?_⟩
      split at hsame <;> exact hsame
    | _ => exact Or.inr hf

/-- A fact about a new override was made by setting it. -/
lemma Records.of_upsertFeature {g : OrgFeatureOverride} (h : t.upsertFeature g = .ok t')
    (hf : t'.Records f) : Effect.Makes t (.setFlag g) f ∨ t.Records f := by
  obtain ⟨-, rfl⟩ := upsertFeature_eq_ok h
  cases f with
  | override q =>
    rcases Table.mem_upsert.mp hf with ⟨hq, -⟩ | rfl
    · exact Or.inr hq
    · exact Or.inl rfl
  | noOverride org slug =>
    refine Or.inr fun q hq hkey => ?_
    -- the override in the way was there already, or has been replaced under its own key
    by_cases hsame : q.key = g.key
    · exact hf g (Table.mem_upsert.mpr (Or.inr rfl)) (hsame.symm.trans hkey)
    · exact hf q (Table.mem_upsert.mpr (Or.inl ⟨hq, hsame⟩)) hkey
  | _ => exact Or.inr hf

/-! Deletions. -/

/-- A dropped token makes no fact. -/
lemma Records.of_dropOldestPending {u : Uuid} {now : Timestamp}
    (hf : (t.dropOldestPending u now).Records f) : t.Records f := by
  cases f with
  | resetToken _ _ _ | spentToken _ _ _ =>
    obtain ⟨p, hp, hsame⟩ := hf
    exact ⟨p, (Table.mem_deleteWhere.mp hp).1, hsame⟩
  | _ => exact hf

/-- A removal makes no fact. -/
lemma Records.of_removeMember {u org : Uuid} (hf : (t.removeMember u org).Records f) :
    t.Records f := by
  cases f with
  | membership r => exact (mem_removeMember.mp hf).1
  | _ => exact hf

/-- A deleted channel makes no fact. -/
lemma Records.of_deleteChannel {org channelId : Uuid}
    (hf : (t.deleteChannel org channelId).Records f) : t.Records f := by
  cases f with
  | channel c => exact (Table.mem_deleteWhere.mp hf).1
  | channelKey _ _ _ =>
    obtain ⟨c, hc, hsame⟩ := hf
    exact ⟨c, (Table.mem_deleteWhere.mp hc).1, hsame⟩
  | _ => exact hf

/-- That a flag is not overridden was made by clearing it. -/
lemma Records.of_clearFlag {org : Uuid} {slug : String} (hf : (t.clearFlag org slug).Records f) :
    Effect.Makes t (.clearFlag org slug) f ∨ t.Records f := by
  cases f with
  | override q => exact Or.inr (Table.mem_deleteWhere.mp hf).1
  | noOverride o s =>
    by_cases hnamed : o = org ∧ s = slug
    · exact Or.inl hnamed
    · refine Or.inr fun q hq hkey => hf q (Table.mem_deleteWhere.mpr ⟨hq, decide_eq_false ?_⟩) hkey
      rw [hkey, Prod.mk.injEq]
      exact hnamed
  | _ => exact Or.inr hf

/-- With a user go the revocations of its tokens. -/
lemma Records.of_deleteUser {u : Uuid} (h : t.deleteUser u = .ok t') (hf : t'.Records f) :
    Effect.Makes t (.deleteUser u) f ∨ t.Records f := by
  obtain rfl := deleteUser_eq_ok h
  cases f with
  | account _ | password _ _ | resetToken _ _ _ | spentToken _ _ _ | serviceAccount _ | key _
  | keySecret _ _ _ _ =>
    obtain ⟨q, hq, hsame⟩ := hf
    exact Or.inr ⟨q, (Table.mem_deleteWhere.mp hq).1, hsame⟩
  | membership _ | revocation _ => exact Or.inr (Table.mem_deleteWhere.mp hf).1
  | unrevoked jti =>
    by_cases hold : ∀ r ∈ t.revokedTokens, r.jti ≠ jti
    · exact Or.inr hold
    · -- the revocation in the way has gone with its user
      simp only [not_forall, not_not] at hold
      obtain ⟨r, hr, hjti⟩ := hold
      refine Or.inl ⟨r, hr, hjti, ?_⟩
      by_contra hother
      exact hf r (Table.mem_deleteWhere.mpr ⟨hr, decide_eq_false hother⟩) hjti
  | organisation _ | channel _ | channelKey _ _ _ | override _ | noOverride _ _ => exact Or.inr hf

end Tables

/-- A fact that holds after an effect held before it or was made by it. -/
theorem Effect.makes [CaseMapping] {t t' : Tables} {e : Effect} {f : Fact}
    (h : Effect.apply t e = .ok t') (hf : t'.Records f) : e.Makes t f ∨ t.Records f := by
  cases e with
  | addOrganisation o => exact Tables.Records.of_insertOrganisation h hf
  | addUser u => exact Tables.Records.of_insertUser h hf
  | setPassword userId hash now =>
    cases h
    exact Tables.Records.of_setPasswordHash hf
  | deleteUser userId => exact Tables.Records.of_deleteUser h hf
  | addRole r => exact Tables.Records.of_assignRole h hf
  | removeMember userId organisationId =>
    cases h
    exact Or.inr (Tables.Records.of_removeMember hf)
  | addResetToken p => exact Tables.Records.of_insertPasswordResetToken h hf
  | dropOldestPending userId now =>
    cases h
    exact Or.inr (Tables.Records.of_dropOldestPending hf)
  | consumeToken tokenId now =>
    cases h
    exact Tables.Records.of_consumeToken hf
  | revokeToken r => exact Tables.Records.of_insertRevokedToken h hf
  | addServiceAccount sa => exact Tables.Records.of_insertServiceAccount h hf
  | touchServiceAccount saUserId now =>
    cases h
    exact Or.inr (Tables.Records.of_touchServiceAccount hf)
  | addKey k => exact Tables.Records.of_insertApiKey h hf
  | revokeKey keyId owner now =>
    cases owner with
    | none =>
      cases h
      rcases Tables.Records.of_revokeKeys hf with ⟨k, rfl, q, hq, hp, hsame⟩ | hold
      · simp only [Bool.and_eq_true, decide_eq_true_eq] at hp
        exact Or.inl ⟨q, hq, hp.1, hp.2, nofun, hsame⟩
      · exact Or.inr hold
    | some owner =>
      cases h
      rcases Tables.Records.of_revokeKeys hf with ⟨k, rfl, q, hq, hp, hsame⟩ | hold
      · simp only [Bool.and_eq_true, decide_eq_true_eq] at hp
        refine Or.inl ⟨q, hq, hp.1.1, hp.2, ?_, hsame⟩
        intro u hu
        exact hp.1.2.trans (Option.some.inj hu)
      · exact Or.inr hold
  | touchKey keyId now =>
    cases h
    exact Or.inr (Tables.Records.of_touchKey hf)
  | addChannel c => exact Tables.Records.of_insertChannel h hf
  | updateChannel organisationId channelId name description channelType isActive now =>
    obtain ⟨a, hupdate⟩ := Effect.apply_updateChannel h
    exact Tables.Records.of_updateChannel hupdate hf
  | deleteChannel organisationId channelId =>
    cases h
    exact Or.inr (Tables.Records.of_deleteChannel hf)
  | setFlag g => exact Tables.Records.of_upsertFeature h hf
  | clearFlag organisationId slug =>
    cases h
    exact Tables.Records.of_clearFlag hf
  | addEvent e => exact Or.inr (Tables.Records.of_insertAuditEvent h hf)

/-! ## Runs -/

namespace Arrival
variable [Platform] [Sha256] [AuditCursorText] {config : JwtConfig} {i j : Instant}
  {ms : List (Move Instant Arrival)} {f : Fact}

/-- A move of a run brings a fact about, by an effect to which its demand is entitled. -/
def Makes (config : JwtConfig) (m : Move Instant Arrival) (f : Fact) : Prop :=
  ∃ s e s', Does config m s e s' ∧ ¬ s.Records f ∧ s'.Records f ∧ e.Makes s f

/-- Where the facts after a run come from. -/
lemma origin_run (run : Run (Step config) i ms j) (hf : j.tables.Records f) :
    (∃ m ∈ ms, Makes config m f) ∨ i.tables.Records f := by
  refine or_iff_not_imp_right.mpr fun hnew => ?_
  obtain ⟨m, hm, s, e, s', does, hs, hs'⟩ := turn_of_run (P := fun t => t.Records f) run hnew hf
  exact ⟨m, hm, s, e, s', does, hs, hs', (Effect.makes does.effect hs').resolve_right hs⟩

/-- Over every run, whoever sends what and whatever fails on the way: the catalogue of roles,
permissions and flags is the same at the end, the audit log has only grown, human accounts are still
there under their name and email; everything else that was known of a row still holds, unless a move
of the run has ended it by an effect to which its demand was entitled on the tables as they were, and
everything that is known then was known before, unless a move of the run has brought it about so. -/
theorem facts_accounted (run : Run (Step config) i ms j) :
    j.tables.catalogue = i.tables.catalogue ∧
    i.tables.auditEvents.rows <+: j.tables.auditEvents.rows ∧
    (∀ u : User, u.kind = .human → i.tables.Records (.account u) → j.tables.Records (.account u)) ∧
    (∀ f, i.tables.Records f → (∃ m ∈ ms, Ends config m f) ∨ j.tables.Records f) ∧
    ∀ f, j.tables.Records f → (∃ m ∈ ms, Makes config m f) ∨ i.tables.Records f := by
  obtain ⟨hextends, hfacts⟩ := frame_run run
  exact ⟨hextends.catalogue, hextends.events, fun u hhuman => human_run run hhuman, hfacts,
    fun f hf => origin_run run hf⟩

end Arrival

/-- After the owner of `acme` has ended the session the account and the catalogue are still there, and
the revocation that is stored has been made by the request. -/
theorem facts_accounted_ownerLeaves :
    ownerLeft.catalogue = ownerTables.catalogue ∧
      ownerLeft.Records (.account ⟨0x11, "alice", "alice@acme.example", "", .human, 0, 0⟩) ∧
      ownerLeft.revokedTokens.rows.length = 1 ∧
      ∀ r ∈ ownerLeft.revokedTokens, @Arrival.Makes (signingPlatform ownerSession) ⟨id⟩ runConfig
        ⟨⟨ownerTables, 0⟩, ownerLeaves, ⟨ownerLeft, 0⟩⟩ (.revocation r) := by
  let _ : Platform := signingPlatform ownerSession
  let _ : Sha256 := ⟨id⟩
  let _ : AuditCursorText := ⟨fun _ => "", fun _ => none⟩
  obtain ⟨hcatalogue, -, hhumans, -, hmade⟩ := Arrival.facts_accounted (.single ownerLeaves_step)
  refine ⟨hcatalogue, hhumans _ rfl ⟨_, List.mem_cons_self, rfl⟩, by decide +kernel, ?_⟩
  intro r hr
  rcases hmade (.revocation r) hr with ⟨m, hm, hmakes⟩ | hold
  · obtain rfl := List.mem_singleton.mp hm
    exact hmakes
  · -- no session had been ended before
    cases hold

end Egras
