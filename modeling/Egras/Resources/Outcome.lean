import Egras.Resources.Requests
import Egras.Security.Keys

/-!
# What the requests for guarded resources do to the tables

`ResourceAction.Changes` lists what such a request can do to the tables, a case for each kind of
change with what the handler has checked before it; `writes_serve` says that no request does
anything else. The cases are whole requests, not statements: that the user of a new service account
is never stored without the account, or an old key revoked without its successor, holds of the
transaction only.
-/

namespace Egras
open Lib

/-! ## Channels -/

/-- Only channels of an organisation differ. -/
def ChannelsChanged (orgId : Uuid) (t t' : Tables) : Prop :=
  ∃ rows, t' = { t with inboundChannels := rows } ∧
    Table.ChangedIn (fun c : InboundChannel => c.organisationId = orgId)
      (fun c => c.organisationId = orgId) t.inboundChannels rows

section Channels
variable {orgId channelId : Uuid} {t t' : Tables}

/-- A new channel changes the channels of its organisation. -/
lemma channelsChanged_insert {c : InboundChannel} (h : t.insertChannel c = .ok t') :
    ChannelsChanged c.organisationId t t' := by
  obtain ⟨rows, hrows, rfl⟩ := Tables.insertChannel_eq_ok h
  exact ⟨rows, rfl, Table.changedIn_insert? hrows rfl⟩

/-- An update changes the channels of its organisation. -/
lemma channelsChanged_update {name : String} {description : Option String}
    {channelType : ChannelType} {isActive : Bool} {now : Timestamp} {a : Option InboundChannel}
    (h : t.updateChannel orgId channelId name description channelType isActive now = .ok (a, t')) :
    ChannelsChanged orgId t t' := by
  unfold Tables.updateChannel at h
  dsimp only at h
  split at h
  · cases h
    exact ⟨_, rfl, Table.ChangedIn.refl⟩
  · split at h
    · cases h
    · cases h
      refine ⟨_, rfl, Table.changedIn_updateWhere fun r _ hr => ?_⟩
      obtain ⟨-, horg⟩ := (Bool.and_eq_true _ _).mp hr
      exact ⟨of_decide_eq_true horg, of_decide_eq_true horg⟩

/-- A creation changes the channels of its organisation or nothing. -/
lemma writes_createInboundChannel {actor actorOrg : Uuid} {input : CreateChannelInput} :
    Prog.Writes World.tables (ChannelsChanged input.organisationId)
      (createInboundChannel actor actorOrg input) := by
  refine writes_require_bind fun _ => writes_require_bind fun _ => ?_
  refine Prog.Writes.bind_left (Prog.Writes.mapErr ?_) fun ch => Prog.Reads.bind reads_tables_record
    fun _ => Prog.Reads.ret
  refine Prog.Writes.bind_right (reads_nowV7 fun _ _ => rfl) fun id => ?_
  refine Prog.Writes.bind_right (Prog.Reads.bind (reads_randomBytes fun _ _ => rfl)
    fun _ => Prog.Reads.ret) fun apiKey => ?_
  refine Prog.Writes.mapErr (writes_execute fun w a t heffect => ?_)
  obtain ⟨hinsert, -⟩ := return_eq_ok.mp heffect
  exact channelsChanged_insert hinsert

/-- An update changes the channels of its organisation or nothing. -/
lemma writes_updateInboundChannel {actor actorOrg : Uuid} {input : UpdateChannelInput} :
    Prog.Writes World.tables (ChannelsChanged input.organisationId)
      (updateInboundChannel actor actorOrg input) := by
  refine writes_require_bind fun _ => writes_require_bind fun _ => ?_
  refine Prog.Writes.bind_left (Prog.Writes.mapErr ?_) fun ch => Prog.Reads.bind reads_tables_record
    fun _ => Prog.Reads.ret
  refine Prog.Writes.bind_left (Prog.Writes.mapErr (writes_execute fun w a t heffect => ?_))
    fun found => ?_
  · exact channelsChanged_update heffect
  · cases found with
    | none => exact Prog.Reads.fail
    | some ch => exact Prog.Reads.ret

/-- A deletion changes the channels of its organisation or nothing. -/
lemma writes_deleteInboundChannel {actor actorOrg : Uuid} :
    Prog.Writes World.tables (ChannelsChanged orgId)
      (deleteInboundChannel actor actorOrg orgId channelId) := by
  refine Prog.Writes.bind_left (Prog.Writes.mapErr ?_) fun _ => reads_tables_record
  refine Prog.Writes.bind_left (Prog.Writes.mapErr (writes_execute fun w a t heffect => ?_))
    fun affected => reads_require
  cases heffect
  refine ⟨_, rfl, Table.changedIn_deleteWhere fun r _ hr => ?_⟩
  obtain ⟨-, horg⟩ := (Bool.and_eq_true _ _).mp hr
  exact of_decide_eq_true horg

end Channels

/-! ## Features -/

/-- A caller may set and clear a flag: organisations set it themselves, or the caller is an
operator. -/
def Tables.MaySet (t : Tables) (isOperator : Bool) (slug : String) : Prop :=
  ∃ d, t.definition slug = some d ∧ (d.selfService || isOperator) = true

/-- Only overrides of an organisation differ, of flags that the caller may set; those that are new
are the caller's. -/
def FlagsChanged (orgId actor : Uuid) (isOperator : Bool) (t t' : Tables) : Prop :=
  ∃ rows, t' = { t with organisationFeatures := rows } ∧
    Table.ChangedIn
      (fun f : OrgFeatureOverride => f.organisationId = orgId ∧ t.MaySet isOperator f.slug)
      (fun f => f.organisationId = orgId ∧ t.MaySet isOperator f.slug ∧ f.updatedBy = actor)
      t.organisationFeatures rows

section Features
variable {orgId : Uuid} {t t' : Tables}

/-- A flag that the actor may set changes those of its organisation. -/
lemma flagsChanged_upsert {f : OrgFeatureOverride} {isOperator : Bool}
    (h : t.upsertFeature f = .ok t') (hmay : t.MaySet isOperator f.slug) :
    FlagsChanged f.organisationId f.updatedBy isOperator t t' := by
  obtain ⟨-, rfl⟩ := Tables.upsertFeature_eq_ok h
  refine ⟨_, rfl, Table.changedIn_upsert (fun q _ hkey => ?_) ⟨rfl, hmay, rfl⟩⟩
  obtain ⟨horg, hslug⟩ := Prod.mk.inj hkey
  exact ⟨horg, hslug ▸ hmay⟩

/-- What a lookup of a definition reads. -/
lemma getDefinition_eq_ok {ε : Type} {slug : String} {conv : FeatureRepoError → ε} {w v : World}
    {found : Option FeatureDefinition}
    (h : ((getDefinition slug).mapErr conv).run w = (.ok found, v)) :
    found = w.tables.definition slug :=
  (query_eq_ok (Prog.mapErr_eq_ok (Prog.mapErr_eq_ok h))).1

/-- Setting a flag changes those of its organisation or nothing. -/
lemma writes_setOrgFeature {input : SetOrgFeatureInput} :
    Prog.Writes World.tables
      (FlagsChanged input.organisationId input.actorUserId input.actorIsOperator)
      (setOrgFeature input) := by
  refine Prog.Writes.bind_of (g := fun t : Tables => t.definition input.slug)
    reads_getDefinition.mapErr (fun _ _ _ => getDefinition_eq_ok) fun found => ?_
  cases found with
  | none => exact Prog.Writes.of_reads Prog.Reads.fail
  | some d =>
    refine Prog.Writes.bind_right Prog.Reads.ofExcept.mapErr fun _ => ?_
    refine writes_require_bind fun hmay => ?_
    refine Prog.Writes.bind_left ?_ fun oldValue =>
      Prog.Reads.bind (Prog.Reads.lift fun _ => rfl) fun _ => reads_tables_record
    refine Prog.Writes.mapErr (Prog.Writes.mapErr (writes_execute fun w a t heffect hdefined => ?_))
    obtain ⟨hupsert, -⟩ := return_eq_ok.mp heffect
    exact flagsChanged_upsert hupsert ⟨d, hdefined.symm, hmay⟩

/-- Clearing a flag changes those of its organisation or nothing. -/
lemma writes_clearOrgFeature {input : ClearOrgFeatureInput} :
    Prog.Writes World.tables
      (FlagsChanged input.organisationId input.actorUserId input.actorIsOperator)
      (clearOrgFeature input) := by
  refine Prog.Writes.bind_of (g := fun t : Tables => t.definition input.slug)
    reads_getDefinition.mapErr (fun _ _ _ => getDefinition_eq_ok) fun found => ?_
  cases found with
  | none => exact Prog.Writes.of_reads Prog.Reads.fail
  | some d =>
    refine writes_require_bind fun hmay => ?_
    refine Prog.Writes.bind_left ?_ fun oldValue =>
      Prog.Reads.bind (Prog.Reads.lift fun _ => rfl) fun _ => reads_tables_record
    refine Prog.Writes.mapErr (Prog.Writes.mapErr (writes_execute fun w a t heffect hdefined => ?_))
    cases heffect
    refine ⟨_, rfl, Table.changedIn_deleteWhere fun f _ hf => ?_⟩
    obtain ⟨horg, hslug⟩ := Prod.mk.inj (of_decide_eq_true hf)
    exact ⟨horg, d, by rw [hslug]; exact hdefined.symm, hmay⟩

variable {τ : Type} {V : World → τ} [Blind V]

/-- Evaluating flags leaves blind views alone. -/
lemma reads_evaluateAll {overrides : List OrgFeatureOverride}
    {definitions : List FeatureDefinition} :
    Prog.Reads V (evaluateAll orgId overrides definitions) := by
  induction definitions with
  | nil => exact Prog.Reads.ret
  | cons d ds ih =>
    exact Prog.Reads.bind reads_evaluate.mapErr fun _ => Prog.Reads.bind ih fun _ => Prog.Reads.ret

/-- Listing flags leaves blind views alone. -/
lemma reads_listOrgFeatures : Prog.Reads V (listOrgFeatures orgId) := by
  refine Prog.Reads.bind (Prog.Reads.mapErr (Prog.Reads.mapErr (reads_query Blind.tick)))
    fun definitions => ?_
  refine Prog.Reads.bind (Prog.Reads.mapErr (Prog.Reads.mapErr (reads_query Blind.tick)))
    fun overrides => ?_
  exact reads_evaluateAll

end Features

/-! ## Listings -/

section Listings
variable {τ : Type} {V : World → τ} [Blind V]

/-- Reading a channel leaves blind views alone. -/
lemma reads_getInboundChannel {orgId channelId : Uuid} :
    Prog.Reads V (getInboundChannel orgId channelId) := by
  refine Prog.Reads.mapErr (Prog.Reads.bind (reads_query Blind.tick).mapErr fun found => ?_)
  cases found with
  | none => exact Prog.Reads.fail
  | some ch => exact Prog.Reads.ret

/-- Listing service accounts leaves blind views alone. -/
lemma reads_listServiceAccounts {input : ListServiceAccountsInput} :
    Prog.Reads V (listServiceAccounts input) := by
  refine Prog.Reads.bind (reads_query Blind.tick).mapErr fun items => ?_
  split <;> exact Prog.Reads.ret

/-- Listing keys leaves blind views alone. -/
lemma reads_listApiKeys {input : ListApiKeysInput} : Prog.Reads V (listApiKeys input) :=
  Prog.Reads.bind (reads_query Blind.tick).mapErr fun _ =>
    Prog.Reads.bind reads_require fun _ => (reads_query Blind.tick).mapErr

variable [CursorText]

/-- Listing channels leaves blind views alone. -/
lemma reads_listInboundChannels {input : ListChannelsInput} :
    Prog.Reads V (listInboundChannels input) := by
  refine Prog.Reads.bind Prog.Reads.ofExcept fun after => ?_
  refine Prog.Reads.bind (reads_query Blind.tick).mapErr.mapErr fun items => ?_
  split <;> exact Prog.Reads.ret

variable [CaseMapping]

/-- Listing users leaves blind views alone. -/
lemma reads_listUsers {isOperator : Bool} {callerOrgId : Option Uuid} {input : ListUsersInput} :
    Prog.Reads V (listUsers isOperator callerOrgId input) := by
  refine Prog.Reads.bind Prog.Reads.ofExcept fun cursor => ?_
  refine Prog.Reads.bind (reads_queryWith Blind.tick).mapErr fun found => ?_
  refine Prog.Reads.bind (Prog.Reads.mapErr ?_) fun raw => Prog.Reads.ret
  unfold listMembershipsForUsers
  split
  · exact Prog.Reads.ret
  · exact reads_query Blind.tick

/-- The handler of the user listing changes no table. -/
lemma reads_getListUsers {ext : Extensions} {q : ListUsersQuery} :
    Prog.Reads World.tables (getListUsers ext q) := by
  refine Prog.Reads.bind Prog.Reads.ofExcept fun caller => ?_
  refine Prog.Reads.bind Prog.Reads.ofExcept fun _ => Prog.Reads.bind reads_require fun _ => ?_
  refine Prog.Reads.bind reads_listUsers.mapErr fun out => ?_
  exact Prog.Reads.bind reads_tables_record fun _ => Prog.Reads.ret

end Listings

/-! ## Requests -/

section Gates
variable {c : AuthedCaller} {kind : Caller} {orgId : Uuid}

/-- Handlers for humans run for humans only. -/
lemma isHuman_of_ok {u : Unit} (h : requireHumanCaller (c.extensions kind) = .ok u) :
    kind.isHuman = true := by
  cases kind with
  | user _ _ _ => rfl
  | apiKey _ _ _ => cases h

/-- Handlers for an organisation run for callers that may name it only. -/
lemma mayName_of_ok {u : Unit} (h : requireOwnOrganisation c orgId = .ok u) :
    c.mayName orgId = true := by
  unfold requireOwnOrganisation at h
  unfold AuthedCaller.mayName
  split at h
  · cases h
  · rename_i hown
    cases hop : c.permissions.isOperatorOverTenants with
    | true => rfl
    | false =>
      rw [hop] at hown
      simpa using hown

end Gates

/-- What a request does to the tables, with what its handler has checked before. -/
inductive ResourceAction.Changes [CaseMapping] (c : AuthedCaller) (kind : Caller) (n : Names)
    (act : ResourceAction) (t t' : Tables) : Prop
  | channels (may : c.mayName n.organisation = true) (h : ChannelsChanged n.organisation t t')
  | flags (may : c.mayName n.organisation = true)
      (h : FlagsChanged n.organisation c.claims.sub c.permissions.isOperatorOverTenants t t')
  | hires (w : World) (name : String) (description : Option String) (human : kind.isHuman = true)
      (may : c.mayName n.organisation = true) (tables : w.tables = t)
      (hires : Hires w ⟨n.organisation, name, description, c.claims.sub⟩)
      (h : t' = hired w ⟨n.organisation, name, description, c.claims.sub⟩)
  | dismisses (names : act = .deleteServiceAccount) (human : kind.isHuman = true)
      (homed : (t.serviceAccount c.claims.org n.serviceAccount).isSome = true)
      (account : t.isServiceAccount n.serviceAccount = true)
      (h : t.deleteUser n.serviceAccount = .ok t')
  | adds (k : ApiKeyRecord) (human : kind.isHuman = true)
      (homed : (t.serviceAccount c.claims.org n.serviceAccount).isSome = true)
      (new : NewKey n.serviceAccount c.claims.sub k) (insertable : t.Insertable k)
      (h : t' = t.addKey k)
  | rotates (k : ApiKeyRecord) (now : Timestamp) (human : kind.isHuman = true)
      (homed : (t.serviceAccount c.claims.org n.serviceAccount).isSome = true)
      (held : t.HoldsKey n.serviceAccount n.key) (new : NewKey n.serviceAccount c.claims.sub k)
      (insertable : (t.revokeActive n.key now).Insertable k)
      (h : t' = (t.revokeActive n.key now).addKey k)
  | revokes (now : Timestamp) (human : kind.isHuman = true)
      (homed : (t.serviceAccount c.claims.org n.serviceAccount).isSome = true)
      (h : t' = t.revokeOwn n.serviceAccount n.key now)

section Serve
variable {c : AuthedCaller} {kind : Caller} {n : Names}

section Handlers
variable {α : Type} {φ : Tables → Tables → Prop} {p : Permission}

/-- A handler that only humans use. -/
lemma writes_human_bind {k : Unit → Action AppError α}
    (hk : kind.isHuman = true → Prog.Writes World.tables φ (k ())) :
    Prog.Writes World.tables φ (Prog.ofExcept (requireHumanCaller (c.extensions kind)) >>= k) :=
  Prog.Writes.ofExcept_bind fun _ h => hk (isHuman_of_ok h)

/-- A handler behind a permission of the caller. -/
lemma writes_perm_bind {k : AuthedCaller → Action AppError α}
    (hk : Prog.Writes World.tables φ (k c)) :
    Prog.Writes World.tables φ (do
      let caller ← Prog.ofExcept (authedCaller (c.extensions kind))
      Prog.ofExcept (perm p (c.extensions kind))
      k caller) :=
  Prog.Writes.ofExcept_bind fun _ h => by
    cases h
    exact Prog.Writes.bind_right Prog.Reads.ofExcept fun _ => hk

/-- A handler for the organisation of its path. -/
lemma writes_own_bind {orgId : Uuid} {k : Unit → Action AppError α}
    (hk : c.mayName orgId = true → Prog.Writes World.tables φ (k ())) :
    Prog.Writes World.tables φ (Prog.ofExcept (requireOwnOrganisation c orgId) >>= k) :=
  Prog.Writes.ofExcept_bind fun _ h => hk (mayName_of_ok h)

/-- Answering changes nothing more. -/
lemma writes_answering {p : Action AppError α} {reply : α → ResourceReply}
    (hp : Prog.Writes World.tables φ p) : Prog.Writes World.tables φ (answering p reply) :=
  Prog.Writes.bind_left hp fun _ => Prog.Reads.ret

end Handlers

/-- The handler of new service accounts makes the changes of its action or none. -/
lemma writes_postCreateServiceAccount [CaseMapping] {req : CreateServiceAccountRequest}
    {act : ResourceAction} (horg : req.organisationId = n.organisation) :
    Prog.Writes World.tables (act.Changes c kind n)
      (postCreateServiceAccount (c.extensions kind) req) := by
  intro w
  rw [postCreateServiceAccount_tables]
  split
  · rename_i hmanages
    simp only [AuthedCaller.managesAccountsOf, Bool.and_eq_true] at hmanages
    obtain ⟨⟨hhuman, -⟩, hmay⟩ := hmanages
    rw [horg] at hmay ⊢
    by_cases hhires : Hires w ⟨n.organisation, req.name, req.description, c.claims.sub⟩
    · exact Or.inr (.hires w req.name req.description hhuman hmay rfl hhires
        (createServiceAccountRows_of_hires hhires))
    · exact Or.inl (createServiceAccountRows_of_not_hires hhires)
  · exact Or.inl rfl

/-- The handler of deletions makes the changes of its action or none. -/
lemma writes_deleteServiceAccountHandler [CaseMapping] :
    Prog.Writes World.tables
      (ResourceAction.Changes c kind n ResourceAction.deleteServiceAccount)
      (deleteServiceAccountHandler (c.extensions kind) n.serviceAccount) := by
  intro w
  rw [deleteServiceAccountHandler_tables]
  split
  · rename_i hgates
    obtain ⟨hhuman, -⟩ := (Bool.and_eq_true _ _).mp hgates
    by_cases hdismisses : Dismisses w c.claims.org n.serviceAccount
    · rw [deleteServiceAccountRows_of_dismisses hdismisses]
      exact Or.inr (.dismisses rfl hhuman hdismisses.homed hdismisses.isServiceAccount
        hdismisses.unreferenced)
    · exact Or.inl (deleteServiceAccountRows_of_not_dismisses hdismisses)
  · exact Or.inl rfl

variable [Argon2] [Base64] [CaseMapping] {act : ResourceAction}

/-- The handler of new keys makes the changes of its action or none. -/
lemma writes_createApiKey {req : CreateApiKeyRequest} :
    Prog.Writes World.tables (act.Changes c kind n)
      (postCreateApiKey (c.extensions kind) n.serviceAccount req) := by
  refine writes_human_bind fun hhuman => writes_perm_bind ?_
  refine Prog.Writes.bind_left (Prog.Writes.mapErr ?_) fun _ => Prog.Reads.ret
  refine atomic_createApiKey.writes fun w mat v hrun => ?_
  obtain ⟨hhomed, k, hnew, hins, -, htables⟩ := createApiKey_eq_ok hrun
  exact .adds k hhuman hhomed hnew hins htables

/-- The handler of rotations makes the changes of its action or none. -/
lemma writes_rotateApiKey {req : RotateApiKeyRequest} :
    Prog.Writes World.tables (act.Changes c kind n)
      (postRotateApiKey (c.extensions kind) n.serviceAccount n.key req) := by
  refine writes_human_bind fun hhuman => writes_perm_bind ?_
  refine Prog.Writes.bind_left (Prog.Writes.mapErr ?_) fun _ => Prog.Reads.ret
  refine atomic_rotateApiKey.writes fun w mat v hrun => ?_
  obtain ⟨hhomed, hheld, k, now, hnew, hins, -, htables, -⟩ := rotateApiKey_eq_ok hrun
  exact .rotates k now hhuman hhomed hheld hnew hins htables

omit [Argon2] [Base64] in
/-- The handler of revocations makes the changes of its action or none. -/
lemma writes_revokeApiKey :
    Prog.Writes World.tables (act.Changes c kind n)
      (deleteApiKeyHandler (c.extensions kind) n.serviceAccount n.key) := by
  refine writes_human_bind fun hhuman => writes_perm_bind ?_
  refine Prog.Writes.bind_left (Prog.Writes.mapErr fun w => ?_) fun _ => Prog.Reads.ret
  obtain hsame | ⟨hhomed, htables⟩ := @revokeApiKey_tables w
    ⟨c.claims.org, n.serviceAccount, n.key, c.claims.sub, c.claims.org⟩
  · exact Or.inl hsame
  · exact Or.inr (.revokes w.now hhuman hhomed htables)

variable [CursorText]

/-- A request changes the tables as `Changes` says, or leaves them alone. -/
theorem writes_serve :
    Prog.Writes World.tables (act.Changes c kind n) (act.serve (c.extensions kind) n) := by
  cases act with
  | createChannel req =>
    refine writes_answering (writes_perm_bind (writes_own_bind fun hmay => ?_))
    refine Prog.Writes.bind_right Prog.Reads.ofExcept fun _ => ?_
    refine Prog.Writes.bind_left (Prog.Writes.mapErr ?_) fun _ => Prog.Reads.ret
    exact writes_createInboundChannel.mono fun _ _ h => .channels hmay h
  | listChannels q =>
    refine writes_answering (writes_perm_bind (writes_own_bind fun hmay => ?_))
    exact Prog.Writes.of_reads (Prog.Reads.bind reads_listInboundChannels.mapErr
      fun _ => Prog.Reads.ret)
  | getChannel =>
    refine writes_answering (writes_perm_bind (writes_own_bind fun hmay => ?_))
    exact Prog.Writes.of_reads reads_getInboundChannel.mapErr
  | updateChannel req =>
    refine writes_answering (writes_perm_bind (writes_own_bind fun hmay => ?_))
    refine Prog.Writes.bind_right Prog.Reads.ofExcept fun _ => Prog.Writes.mapErr ?_
    exact writes_updateInboundChannel.mono fun _ _ h => .channels hmay h
  | deleteChannel =>
    refine writes_answering (writes_perm_bind (writes_own_bind fun hmay => ?_))
    refine Prog.Writes.bind_left (Prog.Writes.mapErr ?_) fun _ => Prog.Reads.ret
    exact writes_deleteInboundChannel.mono fun _ _ h => .channels hmay h
  | listFeatures =>
    refine writes_answering (writes_perm_bind (writes_own_bind fun hmay => ?_))
    exact Prog.Writes.of_reads reads_listOrgFeatures.mapErr
  | putFeature slug value =>
    refine writes_answering (writes_perm_bind (writes_own_bind fun hmay => ?_))
    refine Prog.Writes.bind_left (Prog.Writes.mapErr ?_) fun _ =>
      Prog.Reads.bind reads_listOrgFeatures.mapErr fun features => ?_
    · exact writes_setOrgFeature.mono fun _ _ h => .flags hmay h
    · cases features.find? (fun f => f.slug = slug) with
      | none => exact Prog.Reads.fail
      | some evaluated => exact Prog.Reads.ret
  | deleteFeature slug =>
    refine writes_answering (writes_perm_bind (writes_own_bind fun hmay => ?_))
    refine Prog.Writes.bind_left (Prog.Writes.mapErr ?_) fun _ => Prog.Reads.ret
    exact writes_clearOrgFeature.mono fun _ _ h => .flags hmay h
  | createServiceAccount name description =>
    exact writes_answering (writes_postCreateServiceAccount rfl)
  | listServiceAccounts limit after =>
    refine writes_answering (writes_human_bind fun _ => writes_perm_bind
      (writes_own_bind fun _ => Prog.Writes.of_reads ?_))
    exact Prog.Reads.bind Prog.Reads.ofExcept fun _ =>
      Prog.Reads.bind reads_listServiceAccounts.mapErr fun _ => Prog.Reads.ret
  | getServiceAccount =>
    refine writes_answering (writes_human_bind fun _ => writes_perm_bind
      (Prog.Writes.of_reads ?_))
    refine Prog.Reads.bind (reads_query fun _ => rfl).mapErr fun found => ?_
    cases found with
    | none => exact Prog.Reads.fail
    | some sa => exact Prog.Reads.ret
  | deleteServiceAccount => exact writes_answering writes_deleteServiceAccountHandler
  | createApiKey req => exact writes_answering writes_createApiKey
  | listApiKeys =>
    refine writes_answering (writes_human_bind fun _ => writes_perm_bind
      (Prog.Writes.of_reads ?_))
    exact Prog.Reads.bind reads_listApiKeys.mapErr fun _ => Prog.Reads.ret
  | deleteApiKey => exact writes_answering writes_revokeApiKey
  | rotateApiKey req => exact writes_answering writes_rotateApiKey
  | listUsers after limit named q =>
    exact writes_answering (Prog.Writes.of_reads reads_getListUsers)

end Serve
end Egras
