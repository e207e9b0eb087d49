import Egras.Resources.Replies

/-!
# Organisations are isolated in the guarded resources

A request of a caller that operates on no other tenants and on no other users changes rows of the
caller's organisation only (`Changes.confined`), is answered with rows of it only (`ensures_serve`),
and is treated the same whether what it names exists in another organisation or not at all
(`run_serve_alike`). `serve_isolated` puts the three together.
-/

namespace Egras
open Lib

/-! ## Lookups of what another organisation has -/

namespace Tables
variable {t : Tables} {org id saUserId : Uuid}

/-- A channel that the organisation does not own is not found. -/
lemma channel_eq_none (h : ¬ t.OwnsChannel org id) : t.channel org id = none := by
  refine List.find?_eq_none.mpr fun c hc hselected => h ?_
  obtain ⟨hid, horg⟩ := (Bool.and_eq_true _ _).mp hselected
  exact ⟨c, hc, of_decide_eq_true hid, of_decide_eq_true horg⟩

/-- A service account that the organisation does not own is not found. -/
lemma serviceAccount_eq_none (h : ¬ t.OwnsAccount org id) : t.serviceAccount org id = none :=
  Option.eq_none_iff_forall_ne_some.mpr fun sa hfind => h ⟨sa, serviceAccount_eq_some.mp hfind⟩

/-- An account of the organisation has no key that is not of the organisation. -/
lemma not_holdsKey (haccount : t.OwnsAccount org saUserId) (h : ¬ t.OwnsKey org id) :
    ¬ t.HoldsKey saUserId id := by
  rintro ⟨k, hk, hid, hsa⟩
  refine h ⟨k, hk, hid, ?_⟩
  rw [hsa]
  exact haccount

/-- A key that the service account does not hold is not found. -/
lemma keyOf_eq_none (h : ¬ t.HoldsKey saUserId id) : t.keyOf saUserId id = none := by
  refine Option.eq_none_iff_forall_ne_some.mpr fun key hfind => h ?_
  obtain ⟨k, hk, hid, hsa, -⟩ := keyOf_eq_some hfind
  exact ⟨k, hk, hid, hsa⟩

end Tables

/-! ## Channels -/

section Channels
variable {w : World} {org channelId channelId' actor actorOrg : Uuid}

/-- Reading a foreign channel is like reading one that does not exist. -/
lemma getInboundChannel_alike (h : Indistinct (w.tables.OwnsChannel org) channelId channelId') :
    (getInboundChannel org channelId).run w = (getInboundChannel org channelId').run w := by
  rcases h with rfl | ⟨h, h'⟩
  · rfl
  · unfold getInboundChannel getChannelRow
    rw [Prog.run_mapErr, Prog.run_mapErr, run_query_bind, run_query_bind,
      Tables.channel_eq_none h, Tables.channel_eq_none h']

/-- A foreign channel is not updated. -/
lemma updateChannelRow_of_foreign {name : String} {description : Option String}
    {channelType : ChannelType} {isActive : Bool} (h : ¬ w.tables.OwnsChannel org channelId) :
    (updateChannelRow org channelId name description channelType isActive).run w =
      (.error (if w.answers then .notFound else .db .io), w.tick) := by
  have heffect : w.tables.updateChannel org channelId name description channelType isActive w.now =
      .ok (none, w.tables) := by
    have hnone := Tables.channel_eq_none h
    unfold Tables.channel at hnone
    unfold Tables.updateChannel
    dsimp only
    rw [hnone]
  unfold updateChannelRow
  rw [run_execute_bind, heffect]
  cases w.answers <;> rfl

/-- Updating a foreign channel is like updating one that does not exist. -/
lemma updateInboundChannel_alike {name : String} {description : Option String}
    {channelType : ChannelType} {isActive : Bool}
    (h : Indistinct (w.tables.OwnsChannel org) channelId channelId') :
    (updateInboundChannel actor actorOrg
        ⟨org, channelId, name, description, channelType, isActive⟩).run w =
      (updateInboundChannel actor actorOrg
        ⟨org, channelId', name, description, channelType, isActive⟩).run w := by
  rcases h with rfl | ⟨h, h'⟩
  · rfl
  · unfold updateInboundChannel
    dsimp only
    rw [run_require_bind, run_require_bind, run_require_bind, run_require_bind]
    rw [Prog.run_bind, Prog.run_mapErr, updateChannelRow_of_foreign h]
    rw [Prog.run_bind, Prog.run_mapErr, updateChannelRow_of_foreign h']

/-- A foreign channel is not deleted. -/
lemma deleteChannelRow_of_foreign (h : ¬ w.tables.OwnsChannel org channelId) :
    (deleteChannelRow org channelId).run w =
      (.error (if w.answers then .notFound else .db .io), w.tick) := by
  have hselected : ∀ c ∈ w.tables.inboundChannels,
      (decide (c.id = channelId) && decide (c.organisationId = org)) = false := by
    intro c hc
    refine eq_false_of_ne_true fun hselected => h ?_
    obtain ⟨hid, horg⟩ := (Bool.and_eq_true _ _).mp hselected
    exact ⟨c, hc, of_decide_eq_true hid, of_decide_eq_true horg⟩
  have hnone : w.tables.inboundChannels.select (fun c =>
      decide (c.id = channelId) && decide (c.organisationId = org)) = [] :=
    List.filter_eq_nil_iff.mpr fun c hc => by rw [hselected c hc]; decide
  unfold deleteChannelRow
  dsimp only
  rw [run_execute_bind, hnone, Table.deleteWhere_eq_self hselected]
  cases w.answers <;> rfl

/-- Deleting a foreign channel is like deleting one that does not exist. -/
lemma deleteInboundChannel_alike
    (h : Indistinct (w.tables.OwnsChannel org) channelId channelId') :
    (deleteInboundChannel actor actorOrg org channelId).run w =
      (deleteInboundChannel actor actorOrg org channelId').run w := by
  rcases h with rfl | ⟨h, h'⟩
  · rfl
  · unfold deleteInboundChannel
    rw [Prog.run_bind, Prog.run_mapErr, deleteChannelRow_of_foreign h]
    rw [Prog.run_bind, Prog.run_mapErr, deleteChannelRow_of_foreign h']
    rfl

end Channels

/-! ## Service accounts and keys -/

section Accounts
variable {w : World} {org id id' actor actorOrg keyId keyId' : Uuid}

/-- What follows the search of a service account cannot tell foreign from missing. -/
lemma findServiceAccount_alike {ε α : Type} {conv : SqlError → ε}
    {k k' : Option ServiceAccount → Action ε α}
    (h : Indistinct (w.tables.OwnsAccount org) id id')
    (hnone : (k none).run w.tick = (k' none).run w.tick)
    (hk : id = id' → ∀ sa, w.tables.serviceAccount org id = some sa →
      (k (some sa)).run w.tick = (k' (some sa)).run w.tick) :
    ((findServiceAccount org id).mapErr conv >>= k).run w =
      ((findServiceAccount org id').mapErr conv >>= k').run w := by
  unfold findServiceAccount
  rw [run_query_bind, run_query_bind]
  rcases h with rfl | ⟨h, h'⟩
  · cases hfind : w.tables.serviceAccount org id with
    | none => rw [hnone]
    | some sa => rw [hk rfl sa hfind]
  · rw [Tables.serviceAccount_eq_none h, Tables.serviceAccount_eq_none h', hnone]

/-- A call that requires the account. -/
lemma requireServiceAccount_alike {ε α : Type} {conv : SqlError → ε} {e : ε}
    {k k' : Option ServiceAccount → Unit → Action ε α}
    (h : Indistinct (w.tables.OwnsAccount org) id id')
    (hk : id = id' → ∀ sa, w.tables.serviceAccount org id = some sa →
      (k (some sa) ()).run w.tick = (k' (some sa) ()).run w.tick) :
    ((findServiceAccount org id).mapErr conv >>= fun sa => require sa.isSome e >>= k sa).run w =
      ((findServiceAccount org id').mapErr conv >>= fun sa => require sa.isSome e >>= k' sa).run w
    := by
  refine findServiceAccount_alike h ?_ fun heq sa hfind => ?_
  · rw [run_require_bind, run_require_bind]
    rfl
  · rw [run_require_bind, run_require_bind, hk heq sa hfind]

/-- A foreign service account is not deleted. -/
lemma deleteServiceAccountRows_of_foreign (h : ¬ w.tables.OwnsAccount org id) :
    (deleteServiceAccountRows org id).run w =
      (if w.answers then .ok false else .error .io, w.tick) := by
  unfold deleteServiceAccountRows findServiceAccount
  rw [Prog.run_bind, run_query, Tables.serviceAccount_eq_none h]
  cases w.answers <;> rfl

/-- Deleting a foreign service account is like deleting one that does not exist. -/
lemma deleteServiceAccount_alike (h : Indistinct (w.tables.OwnsAccount org) id id') :
    (deleteServiceAccount ⟨org, id, actor, actorOrg⟩).run w =
      (deleteServiceAccount ⟨org, id', actor, actorOrg⟩).run w := by
  rcases h with rfl | ⟨h, h'⟩
  · rfl
  · unfold deleteServiceAccount
    rw [Prog.run_bind, Prog.run_mapErr, deleteServiceAccountRows_of_foreign h]
    rw [Prog.run_bind, Prog.run_mapErr, deleteServiceAccountRows_of_foreign h']
    cases w.answers <;> rfl

variable [Argon2] [Base64] in
/-- A key for a foreign service account is like one for a missing one. -/
lemma createApiKey_alike {name : String} {scopes : Option (List String)}
    (h : Indistinct (w.tables.OwnsAccount org) id id') :
    (createApiKey ⟨org, id, name, scopes, actor, actorOrg⟩).run w =
      (createApiKey ⟨org, id', name, scopes, actor, actorOrg⟩).run w := by
  unfold createApiKey
  rw [run_require_bind, run_require_bind]
  dsimp only
  cases decide (scopes ≠ some []) with
  | false => rfl
  | true => exact requireServiceAccount_alike h fun heq sa _ => by rw [heq]

/-- Listing the keys of a foreign service account is like listing those of a missing one. -/
lemma listApiKeys_alike (h : Indistinct (w.tables.OwnsAccount org) id id') :
    (listApiKeys ⟨org, id⟩).run w = (listApiKeys ⟨org, id'⟩).run w := by
  unfold listApiKeys
  exact requireServiceAccount_alike h fun heq sa _ => by rw [heq]

/-- A foreign key is not revoked. -/
lemma revokeKey_of_foreign (h : ¬ w.tables.HoldsKey id keyId) :
    (revokeKey id keyId).run w = (if w.answers then .ok false else .error .io, w.tick) := by
  have hselected : ∀ k ∈ w.tables.apiKeys, (decide (k.id = keyId) &&
      decide (k.serviceAccountUserId = id) && decide (k.revokedAt = none)) = false := by
    intro k hk
    refine eq_false_of_ne_true fun hselected => h ?_
    simp only [Bool.and_eq_true, decide_eq_true_eq] at hselected
    exact ⟨k, hk, hselected.1.1, hselected.1.2⟩
  have hkeys : w.tables.revokeKeys (fun k => decide (k.id = keyId) &&
      decide (k.serviceAccountUserId = id) && decide (k.revokedAt = none)) w.now = w.tables := by
    unfold Tables.revokeKeys
    rw [Table.updateWhere_eq_self hselected]
  unfold revokeKey
  dsimp only
  rw [run_execute, Table.any_eq_false.mpr fun k hk => by rw [hselected k hk]; decide, hkeys]
  unfold World.exec
  cases w.answers <;> rfl

/-- What follows the revocation of a foreign key does not run. -/
lemma run_revokeKey_of_foreign {ε α : Type} {conv : SqlError → ε} {e : ε}
    {k : Unit → Action ε α} (h : ¬ w.tables.HoldsKey id keyId) :
    ((revokeKey id keyId).mapErr conv >>= fun revoked => require revoked e >>= k).run w =
      (.error (if w.answers then e else conv .io), w.tick) := by
  rw [Prog.run_bind, Prog.run_mapErr, revokeKey_of_foreign h]
  cases w.answers <;> rfl

/-- Revoking a foreign key is like revoking one that does not exist. -/
lemma revokeApiKey_alike (h : Indistinct (w.tables.OwnsAccount org) id id')
    (hkey : Indistinct (w.tables.OwnsKey org) keyId keyId') :
    (revokeApiKey ⟨org, id, keyId, actor, actorOrg⟩).run w =
      (revokeApiKey ⟨org, id', keyId', actor, actorOrg⟩).run w := by
  unfold revokeApiKey
  refine requireServiceAccount_alike h fun heq sa hfind => ?_
  obtain rfl : id = id' := heq
  rcases hkey with rfl | ⟨hkey, hkey'⟩
  · rfl
  · have howns : w.tables.OwnsAccount org id := ⟨sa, Tables.serviceAccount_eq_some.mp hfind⟩
    have hnot : ¬ w.tick.tables.HoldsKey id keyId := Tables.not_holdsKey howns hkey
    have hnot' : ¬ w.tick.tables.HoldsKey id keyId' := Tables.not_holdsKey howns hkey'
    rw [run_revokeKey_of_foreign hnot, run_revokeKey_of_foreign hnot']

variable [Argon2] [Base64] in
/-- Rotating a foreign key is like rotating one that does not exist. -/
lemma rotateApiKey_alike {name : Option String} {scopes : Option (Option (List String))}
    (h : Indistinct (w.tables.OwnsAccount org) id id')
    (hkey : Indistinct (w.tables.OwnsKey org) keyId keyId') :
    (rotateApiKey ⟨org, id, keyId, name, scopes, actor, actorOrg⟩).run w =
      (rotateApiKey ⟨org, id', keyId', name, scopes, actor, actorOrg⟩).run w := by
  unfold rotateApiKey
  refine requireServiceAccount_alike h fun heq sa hfind => ?_
  obtain rfl : id = id' := heq
  rcases hkey with rfl | ⟨hkey, hkey'⟩
  · rfl
  · have howns : w.tables.OwnsAccount org id := ⟨sa, Tables.serviceAccount_eq_some.mp hfind⟩
    have hnot : w.tick.tables.keyOf id keyId = none :=
      Tables.keyOf_eq_none (Tables.not_holdsKey howns hkey)
    have hnot' : w.tick.tables.keyOf id keyId' = none :=
      Tables.keyOf_eq_none (Tables.not_holdsKey howns hkey')
    unfold findKey
    rw [run_query_bind, run_query_bind, hnot, hnot']

end Accounts

/-! ## Requests -/

section Handlers
variable {α : Type} {c : AuthedCaller} {kind : Caller} {p : Permission} {w : World}

/-- Behind the gate for humans the same runs are the same. -/
lemma run_human_congr {k k' : Unit → Action AppError α} (hk : (k ()).run w = (k' ()).run w) :
    (Prog.ofExcept (requireHumanCaller (c.extensions kind)) >>= k).run w =
      (Prog.ofExcept (requireHumanCaller (c.extensions kind)) >>= k').run w := by
  rw [run_requireHumanCaller_bind, run_requireHumanCaller_bind, hk]

/-- Behind the gate of a permission the same runs are the same. -/
lemma run_perm_congr {k k' : AuthedCaller → Action AppError α}
    (hk : (k c).run w = (k' c).run w) :
    (do
      let caller ← Prog.ofExcept (authedCaller (c.extensions kind))
      Prog.ofExcept (perm p (c.extensions kind))
      k caller : Action AppError α).run w =
    (do
      let caller ← Prog.ofExcept (authedCaller (c.extensions kind))
      Prog.ofExcept (perm p (c.extensions kind))
      k' caller : Action AppError α).run w := by
  rw [run_authedCaller_bind, run_authedCaller_bind, run_perm_bind, run_perm_bind, hk]

/-- An ordinary caller learns nothing of an organisation that is not its own. -/
lemma run_own_congr {orgId orgId' : Uuid} {k k' : Unit → Action AppError α}
    (hop : c.permissions.isOperatorOverTenants = false)
    (h : Indistinct (· = c.claims.org) orgId orgId')
    (hk : orgId = c.claims.org → orgId' = c.claims.org → (k ()).run w = (k' ()).run w) :
    (Prog.ofExcept (requireOwnOrganisation c orgId) >>= k).run w =
      (Prog.ofExcept (requireOwnOrganisation c orgId') >>= k').run w := by
  have hforeign : ∀ {o}, o ≠ c.claims.org → c.mayName o = false := fun hne =>
    eq_false_of_ne_true fun hmay => hne (AuthedCaller.eq_of_mayName hmay hop)
  rw [run_requireOwnOrganisation_bind, run_requireOwnOrganisation_bind]
  by_cases hown : orgId = c.claims.org
  · have hown' : orgId' = c.claims.org := by
      rcases h with rfl | ⟨hne, -⟩
      · exact hown
      · exact absurd hown hne
    rw [hk hown hown', hown, hown']
  · have hne' : orgId' ≠ c.claims.org := by
      rcases h with rfl | ⟨-, hne'⟩
      · exact hown
      · exact hne'
    rw [hforeign hown, hforeign hne']
    rfl

/-- The same runs are answered the same. -/
lemma run_answering_congr {p p' : Action AppError α} {reply : α → ResourceReply}
    (h : p.run w = p'.run w) : (answering p reply).run w = (answering p' reply).run w := by
  unfold answering
  rw [Prog.run_bind, h, Prog.run_bind]

end Handlers

section Serve
variable [Argon2] [Base64] [CaseMapping] [CursorText] {c : AuthedCaller} {kind : Caller}
  {n n' : Names} {act : ResourceAction} {w : World}

/-- Whether what a request names is another organisation's or nobody's makes no difference. -/
theorem run_serve_alike (hop : c.permissions.isOperatorOverTenants = false)
    (husers : c.permissions.isOperatorOverUsers = false)
    (h : n.Alike c.claims.org w.tables n') :
    (act.serve (c.extensions kind) n).run w = (act.serve (c.extensions kind) n').run w := by
  cases act with
  | createChannel req =>
    refine run_answering_congr (run_perm_congr (run_own_congr hop h.organisation fun ho ho' => ?_))
    rw [ho, ho']
  | listChannels q =>
    refine run_answering_congr (run_perm_congr (run_own_congr hop h.organisation fun ho ho' => ?_))
    rw [ho, ho']
  | getChannel =>
    refine run_answering_congr (run_perm_congr (run_own_congr hop h.organisation fun ho ho' => ?_))
    rw [ho, ho', Prog.run_mapErr, getInboundChannel_alike h.channel, Prog.run_mapErr]
  | updateChannel req =>
    refine run_answering_congr (run_perm_congr (run_own_congr hop h.organisation fun ho ho' => ?_))
    rw [ho, ho', Prog.run_bind, Prog.run_bind]
    cases validateFields (validateLength "name" 1 120 req.name) with
    | error e => rfl
    | ok u =>
      show (Prog.mapErr _ _).run w = (Prog.mapErr _ _).run w
      rw [Prog.run_mapErr, updateInboundChannel_alike h.channel, Prog.run_mapErr]
  | deleteChannel =>
    refine run_answering_congr (run_perm_congr (run_own_congr hop h.organisation fun ho ho' => ?_))
    rw [ho, ho', Prog.run_bind, Prog.run_mapErr, deleteInboundChannel_alike h.channel,
      Prog.run_bind, Prog.run_mapErr]
  | listFeatures =>
    refine run_answering_congr (run_perm_congr (run_own_congr hop h.organisation fun ho ho' => ?_))
    rw [ho, ho']
  | putFeature slug value =>
    refine run_answering_congr (run_perm_congr (run_own_congr hop h.organisation fun ho ho' => ?_))
    rw [ho, ho']
  | deleteFeature slug =>
    refine run_answering_congr (run_perm_congr (run_own_congr hop h.organisation fun ho ho' => ?_))
    rw [ho, ho']
  | createServiceAccount name description =>
    refine run_answering_congr (run_human_congr (run_perm_congr
      (run_own_congr hop h.organisation fun ho ho' => ?_)))
    dsimp only at ho ho' ⊢
    rw [ho, ho']
  | listServiceAccounts limit after =>
    refine run_answering_congr (run_human_congr (run_perm_congr
      (run_own_congr hop h.organisation fun ho ho' => ?_)))
    dsimp only at ho ho' ⊢
    rw [ho, ho']
  | getServiceAccount =>
    refine run_answering_congr (run_human_congr (run_perm_congr ?_))
    exact findServiceAccount_alike h.serviceAccount rfl fun _ _ _ => rfl
  | deleteServiceAccount =>
    refine run_answering_congr (run_human_congr (run_perm_congr ?_))
    rw [Prog.run_bind, Prog.run_mapErr, deleteServiceAccount_alike h.serviceAccount,
      Prog.run_bind, Prog.run_mapErr]
  | createApiKey req =>
    refine run_answering_congr (run_human_congr (run_perm_congr ?_))
    rw [Prog.run_bind, Prog.run_mapErr, createApiKey_alike h.serviceAccount,
      Prog.run_bind, Prog.run_mapErr]
  | listApiKeys =>
    refine run_answering_congr (run_human_congr (run_perm_congr ?_))
    rw [Prog.run_bind, Prog.run_mapErr, listApiKeys_alike h.serviceAccount,
      Prog.run_bind, Prog.run_mapErr]
  | deleteApiKey =>
    refine run_answering_congr (run_human_congr (run_perm_congr ?_))
    rw [Prog.run_bind, Prog.run_mapErr, revokeApiKey_alike h.serviceAccount h.key,
      Prog.run_bind, Prog.run_mapErr]
  | rotateApiKey req =>
    refine run_answering_congr (run_human_congr (run_perm_congr ?_))
    rw [Prog.run_bind, Prog.run_mapErr, rotateApiKey_alike h.serviceAccount h.key,
      Prog.run_bind, Prog.run_mapErr]
  | listUsers after limit named q =>
    refine run_answering_congr (run_perm_congr ?_)
    rw [husers]
    rfl

/-- Where service accounts have roles at home only, a request of a caller that operates on no other
tenants and on no other users changes rows of the caller's organisation only, of flags only those
that organisations set themselves; it is answered with rows of it only; and it is treated the same
whether what it names exists in another organisation or not at all. -/
theorem serve_isolated (homed : w.tables.Homed)
    (hop : c.permissions.isOperatorOverTenants = false)
    (husers : c.permissions.isOperatorOverUsers = false)
    (halike : n.Alike c.claims.org w.tables n') :
    w.tables.Confined c.claims.org ((act.serve (c.extensions kind) n).run w).2.tables ∧
      (∀ reply v, (act.serve (c.extensions kind) n).run w = (.ok reply, v) →
        reply.Within c.claims.org w.cache v.tables) ∧
      (act.serve (c.extensions kind) n).run w = (act.serve (c.extensions kind) n').run w := by
  refine ⟨?_, fun reply v hrun => ensures_serve hop husers w reply v rfl hrun,
    run_serve_alike hop husers halike⟩
  have hwrites : Prog.Writes World.tables (act.Changes c kind n)
      (act.serve (c.extensions kind) n) := writes_serve
  rcases hwrites w with hsame | hchanges
  · rw [hsame]
    exact .refl
  · exact hchanges.confined homed hop

end Serve

/-- The owner of `acme` asks for the flags of an organisation. -/
def asksForFlags (orgId : Uuid) : Action AppError ResourceReply :=
  @ResourceAction.serve plainPlatform.toArgon2 plainPlatform.toBase64 plainPlatform.toCaseMapping
    plainPlatform.toCursorText
    ((AuthedCaller.loaded .twoTenants 0x11 0xa).extensions (.user 0x11 0xa 0x31))
    ⟨orgId, 0, 0, 0⟩ .listFeatures

/-- For the owner of `acme` the organisation `bolt` is like one that does not exist. -/
theorem serve_isolated_twoTenants :
    Tables.twoTenants.Confined 0xa ((asksForFlags 0xb).run (.calm .twoTenants 0)).2.tables ∧
      (∀ reply v, (asksForFlags 0xb).run (.calm .twoTenants 0) = (.ok reply, v) →
        @ResourceReply.Within plainPlatform.toBase64 plainPlatform.toCursorText 0xa .empty v.tables
          reply) ∧
      (asksForFlags 0xb).run (.calm .twoTenants 0) =
        (asksForFlags 0x77).run (.calm .twoTenants 0) :=
  @serve_isolated plainPlatform.toArgon2 plainPlatform.toBase64 plainPlatform.toCaseMapping
    plainPlatform.toCursorText (.loaded .twoTenants 0x11 0xa) (.user 0x11 0xa 0x31)
    ⟨0xb, 0, 0, 0⟩ ⟨0x77, 0, 0, 0⟩ .listFeatures (.calm .twoTenants 0) Tables.homed_twoTenants
    owner_ordinary (by decide +kernel)
    ⟨Or.inr (by decide), Or.inl rfl, Or.inl rfl, Or.inl rfl⟩

end Egras
