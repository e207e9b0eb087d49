import Egras.Service.Gateway

/-!
# Every change is accounted for

Each use case that writes records one event, after its write and only if that succeeded. So a
protected request leaves no trace at all, or it offers the audit channel exactly one event, the one
that its route, its principal and its answer determine but for the identifier drawn for it
(`Route.event`, `respond_accounted`); and one that is answered with an error has left no trace, but for
`PUT` of a feature flag, whose handler lists the flags once more after it has recorded the change.
-/

namespace Egras
open Lib

/-! ## Organisations and memberships -/

section Membership
variable {actor actorOrg : Uuid}

/-- Inserting an organisation records nothing. -/
lemma silent_insertOrganisationRow {name business : String} :
    Silent (insertOrganisationRow name business) :=
  Prog.Reads.bind silent_nowV7 fun _ => silent_execute.mapErr

/-- Founding with an owner records nothing. -/
lemma silent_createWithInitialOwner {name business code : String} {creator : Uuid} :
    Silent (createWithInitialOwner name business creator code) := by
  refine silent_transaction (Prog.Reads.bind silent_insertOrganisationRow fun org => ?_)
  refine Prog.Reads.bind silent_query.mapErr fun found => ?_
  cases found with
  | none => exact Prog.Reads.fail
  | some roleId => exact Prog.Reads.bind silent_execute.mapErr fun _ => Prog.Reads.ret

/-- The creation of an organisation is recorded with its identifier and its name. -/
lemma logs_createOrganisation {input : CreateOrganisationInput} :
    Logs (fun ℓ out => Stamped ℓ.now fun s =>
        .organisationCreated s actor actorOrg out.id (trimWs input.name))
      (createOrganisation actor actorOrg input) := by
  refine .bind_right reads_require fun _ => .bind_right reads_require fun _ => ?_
  cases hseed : input.seedCreatorAsOwner with
  | true =>
    exact .of_write (Prog.Atomic.mapErr atomic_transaction) silent_createWithInitialOwner.mapErr
      (fun _ => notes_record.map) fun _ _ _ _ id => ⟨id, rfl⟩
  | false =>
    exact .of_write (Prog.Atomic.mapErr atomic_createOrganisationRow)
      silent_insertOrganisationRow.mapErr (fun _ => notes_record.map) fun _ _ _ _ id => ⟨id, rfl⟩

/-- A new membership is recorded with its role. -/
lemma logs_addUserToOrganisation {input : AddUserToOrganisationInput} :
    Logs (fun ℓ _ => Stamped ℓ.now fun s =>
        .organisationMemberAdded s actor actorOrg input.orgId input.userId input.roleCode)
      (addUserToOrganisation actor actorOrg input) := by
  refine .of_write (Prog.Atomic.mapErr ?_) (Prog.Reads.mapErr ?_) (fun _ => notes_record)
    fun _ _ _ _ id => ⟨id, rfl⟩
  · refine Prog.Atomic.bind_right (reads_query fun _ => rfl).mapErr fun found => ?_
    cases found with
    | none => exact Prog.Atomic.of_reads Prog.Reads.fail
    | some roleId => exact Prog.Atomic.mapErr atomic_execute
  · refine Prog.Reads.bind silent_query.mapErr fun found => ?_
    cases found with
    | none => exact Prog.Reads.fail
    | some roleId => exact silent_execute.mapErr

/-- The removal of a member is recorded. -/
lemma logs_removeUserFromOrganisation {input : RemoveUserFromOrganisationInput} :
    Logs (fun ℓ _ => Stamped ℓ.now fun s =>
        .organisationMemberRemoved s actor actorOrg input.orgId input.userId)
      (removeUserFromOrganisation actor actorOrg input) := by
  refine .of_write (Prog.Atomic.mapErr atomic_transaction) (Prog.Reads.mapErr
    (silent_transaction ?_)) (fun _ => notes_record) fun _ _ _ _ id => ⟨id, rfl⟩
  refine Prog.Reads.bind silent_query.mapErr fun member => Prog.Reads.bind reads_require fun _ => ?_
  refine Prog.Reads.bind silent_query.mapErr fun others => ?_
  refine Prog.Reads.bind silent_query.mapErr fun owner => Prog.Reads.bind reads_require fun _ => ?_
  exact silent_execute.mapErr

/-- Assigning a role that is held leaves no trace. -/
lemma ledger_assign_of_held {w : World} {userId org roleId : Uuid}
    (h : w.tables.hasRole userId org roleId = true) :
    ((assign userId org roleId).run w).2.ledger = w.ledger := by
  unfold assign
  rw [Prog.run_mapErr, run_execute, Tables.assignRole_of_held h]
  unfold World.exec
  split <;> rfl

/-- A role that the target has already is assigned once more without effect, and without an event. -/
lemma logs_assigned {userId org roleId : Uuid} {roleCode : String} :
    Logs (fun ℓ out e => out.wasNew = true ∧ Stamped ℓ.now (fun s =>
        .organisationRoleAssigned s actor actorOrg org userId roleCode) e) (do
      let already ← (hasRole userId org roleId).mapErr AssignRoleError.repo
      (assign userId org roleId).mapErr .repo
      if already then return ⟨false⟩
      else
        record (fun s => .organisationRoleAssigned s actor actorOrg org userId roleCode)
        return ⟨true⟩ : Action AssignRoleError AssignRoleOutput) := by
  intro w
  rw [Prog.run_bind]
  cases hrun : ((hasRole userId org roleId).mapErr AssignRoleError.repo).run w with
  | mk r v =>
    cases r with
    | error e => exact Or.inl (Prog.Reads.of_run traceless_query.mapErr.mapErr hrun)
    | ok already =>
      obtain ⟨rfl, rfl, -⟩ := query_eq_ok (Prog.mapErr_eq_ok (Prog.mapErr_eq_ok hrun))
      dsimp only
      cases hheld : w.tables.hasRole userId org roleId with
      | false =>
        have hwrites : Logs (fun ℓ (out : AssignRoleOutput) e => out.wasNew = true ∧ Stamped ℓ.now
            (fun s => .organisationRoleAssigned s actor actorOrg org userId roleCode) e) (do
              (assign userId org roleId).mapErr .repo
              record (fun s => .organisationRoleAssigned s actor actorOrg org userId roleCode)
              return ⟨true⟩ : Action AssignRoleError AssignRoleOutput) :=
          .of_write (Prog.Atomic.mapErr (Prog.Atomic.mapErr atomic_execute))
            silent_execute.mapErr.mapErr (fun _ => notes_record.map) fun _ _ _ _ id => ⟨rfl, id, rfl⟩
        exact hwrites w.tick
      | true =>
        refine Or.inl ((Prog.Reads.after_bind fun _ => Prog.Reads.ret).trans ?_)
        rw [Prog.run_mapErr]
        exact ledger_assign_of_held hheld

/-- What an operator assigns is recorded if the role was new. -/
lemma logs_operatorAssigns {input : AssignRoleInput} :
    Logs (fun ℓ out e => out.wasNew = true ∧ Stamped ℓ.now (fun s => .organisationRoleAssigned s
        actor actorOrg input.organisationId input.targetUserId input.roleCode) e)
      (assignRole actor actorOrg true input) := by
  refine .bind_right traceless_query.mapErr fun target => ?_
  refine .bind_right reads_guardServiceAccount fun _ => ?_
  refine .bind_right traceless_query.mapErr.mapErr fun found => ?_
  cases found with
  | none => exact .of_traceless Prog.Reads.fail
  | some role =>
    refine .bind_right traceless_query.mapErr.mapErr fun member => ?_
    exact .bind_right reads_require fun _ => logs_assigned

/-- A role that is assigned is recorded if it was new. -/
lemma logs_assignRole {isOperator : Bool} {input : AssignRoleInput} :
    Logs (fun ℓ out e => out.wasNew = true ∧ Stamped ℓ.now (fun s => .organisationRoleAssigned s
        actor actorOrg input.organisationId input.targetUserId input.roleCode) e)
      (assignRole actor actorOrg isOperator input) := by
  cases isOperator with
  | true => exact logs_operatorAssigns
  | false =>
    refine .bind_right traceless_query.mapErr.mapErr fun member => ?_
    exact .bind_right reads_require fun _ => logs_operatorAssigns

end Membership

/-! ## Accounts and sessions -/

section Sessions
variable {actor actorOrg : Uuid}

/-- Creating a user with its role row records nothing. -/
lemma silent_createAndAddToOrg [CaseMapping] {username email hash code : String} {org : Uuid} :
    Silent (createAndAddToOrg username email hash org code) := by
  refine silent_transaction (Prog.Reads.bind silent_nowV7 fun id => ?_)
  refine Prog.Reads.bind silent_execute.mapErr fun row => ?_
  refine Prog.Reads.bind silent_query.mapErr fun found => ?_
  cases found with
  | none => exact Prog.Reads.fail
  | some roleId => exact Prog.Reads.bind silent_execute.mapErr fun _ => Prog.Reads.ret

/-- A registration is recorded with the new user, its organisation and its role. -/
lemma logs_registerUser [Argon2] [CaseMapping] {input : RegisterUserInput} :
    Logs (fun ℓ id => Stamped ℓ.now fun s => .userRegisteredSuccess s actor actorOrg id
        input.targetOrgId input.roleCode) (registerUser actor actorOrg input) := by
  refine .bind_right reads_require fun _ => .bind_right reads_require fun _ => ?_
  refine .bind_right reads_require fun _ => .bind_right reads_require fun _ => ?_
  refine .bind_right reads_hashPassword.mapErr fun hash => ?_
  exact .of_write (Prog.Atomic.mapErr atomic_transaction) silent_createAndAddToOrg.mapErr
    (fun _ => notes_record.map) fun _ _ _ _ id => ⟨id, rfl⟩

/-- A change of the password is recorded. -/
lemma logs_changePassword [Argon2] {input : ChangePasswordInput} :
    Logs (fun ℓ _ => Stamped ℓ.now fun s => .passwordChanged s actor)
      (changePassword actor input) := by
  refine .bind_right reads_require fun _ => .bind_right traceless_query.mapErr fun found => ?_
  cases found with
  | none => exact .of_traceless Prog.Reads.fail
  | some user =>
    refine .bind_right Prog.Reads.ofExcept.mapErr fun ok => .bind_right reads_require fun _ => ?_
    refine .bind_right reads_hashPassword.mapErr fun newHash => ?_
    exact .of_write (Prog.Atomic.mapErr atomic_execute) silent_execute.mapErr
      (fun _ => notes_record) fun _ _ _ _ id => ⟨id, rfl⟩

/-- A logout is recorded with the identifier of the token. -/
lemma logs_logout {jti : Uuid} {expiresAt : Timestamp} :
    Logs (fun ℓ _ => Stamped ℓ.now fun s => .logout s actor actorOrg jti)
      (logout actor actorOrg jti expiresAt) :=
  .of_write (Prog.Atomic.mapErr atomic_execute) silent_execute.mapErr (fun _ => notes_record)
    fun _ _ _ _ id => ⟨id, rfl⟩

/-- A switch of the organisation is recorded with the one before. -/
lemma logs_switchOrg [JsonWebToken] {config : JwtConfig} {target : Uuid} :
    Logs (fun ℓ _ => Stamped ℓ.now fun s => .sessionSwitchedOrg s actor actorOrg target)
      (switchOrg config actor actorOrg target) := by
  refine .bind_right traceless_query.mapErr.mapErr fun member => ?_
  refine .bind_right reads_require fun _ => ?_
  refine .bind_right reads_encodeAccessToken.mapErr fun token => ?_
  exact notes_record.map.logs fun _ id => ⟨id, rfl⟩

end Sessions

/-! ## Service accounts and keys -/

section Accounts
variable {actor actorOrg org saUserId keyId : Uuid}

/-- Creating the rows of a service account records nothing. -/
lemma silent_createServiceAccountRows [CaseMapping] {req : NewServiceAccount} :
    Silent (createServiceAccountRows req) := by
  refine silent_transaction (Prog.Reads.bind silent_nowV7 fun id => ?_)
  exact Prog.Reads.bind silent_execute.mapErr fun _ => silent_execute.mapErr

/-- A new service account is recorded with its name. -/
lemma logs_createServiceAccount [CaseMapping] {input : CreateServiceAccountInput} :
    Logs (fun ℓ sa => Stamped ℓ.now fun s => .serviceAccountCreated s input.actorUserId
        input.actorOrgId sa.userId input.organisationId input.name) (createServiceAccount input) :=
  .of_write (Prog.Atomic.mapErr atomic_transaction) silent_createServiceAccountRows.mapErr
    (fun _ => notes_record.map) fun _ _ _ _ id => ⟨id, rfl⟩

/-- A deletion that finds no service account changes nothing. -/
lemma deleteServiceAccountRows_of_false {w v : World} {removed : Bool}
    (h : (deleteServiceAccountRows org saUserId).run w = (.ok removed, v))
    (hremoved : removed = false) : v.tables = w.tables := by
  obtain ⟨found, u, hfind, hdelete⟩ := Prog.bind_eq_ok h
  obtain ⟨rfl, rfl, -⟩ := query_eq_ok hfind
  cases hsa : w.tables.serviceAccount org saUserId with
  | none =>
    rw [hsa] at hdelete
    cases hdelete
    rfl
  | some sa =>
    rw [hsa] at hdelete
    obtain ⟨tables, heffect, rfl, -⟩ := execute_eq_ok hdelete
    split at heffect
    · obtain ⟨-, hnot⟩ := return_eq_ok.mp heffect
      rw [hremoved] at hnot
      cases hnot
    · cases heffect
      rfl

/-- The deletion of a service account is recorded. -/
lemma logs_deleteServiceAccount {input : DeleteServiceAccountInput} :
    Logs (fun ℓ _ => Stamped ℓ.now fun s => .serviceAccountDeleted s input.actorUserId
        input.actorOrgId input.saUserId input.organisationId) (deleteServiceAccount input) := by
  refine .of_flagged id (Prog.Atomic.mapErr atomic_deleteServiceAccountRows)
    (Prog.Reads.mapErr ?_) (fun w removed v h hremoved => ?_) (fun _ => notes_record)
    fun _ _ _ _ id => ⟨id, rfl⟩
  · refine Prog.Reads.bind silent_query fun found => ?_
    cases found with
    | none => exact Prog.Reads.ret
    | some sa => exact silent_execute
  · exact deleteServiceAccountRows_of_false (Prog.mapErr_eq_ok h) hremoved

/-- A revocation that finds no active key changes nothing. -/
lemma revokeKey_of_false {w v : World} {revoked : Bool}
    (h : (revokeKey saUserId keyId).run w = (.ok revoked, v)) (hrevoked : revoked = false) :
    v.tables = w.tables := by
  obtain ⟨tables, heffect, rfl, -⟩ := execute_eq_ok h
  cases heffect
  have hnone := Table.any_eq_false.mp hrevoked
  show w.tables.revokeKeys _ _ = w.tables
  unfold Tables.revokeKeys
  rw [Table.updateWhere_eq_self fun k hk => eq_false_of_ne_true (hnone k hk)]

/-- The revocation of a key is recorded with its identifier. -/
lemma logs_revokeApiKey {input : RevokeApiKeyInput} :
    Logs (fun ℓ _ => Stamped ℓ.now fun s => .apiKeyRevoked s input.actorUserId input.actorOrgId
        input.saUserId input.organisationId input.keyId) (revokeApiKey input) := by
  refine .bind_right traceless_query.mapErr fun sa => .bind_right reads_require fun _ => ?_
  refine .of_flagged id (Prog.Atomic.mapErr atomic_execute) silent_execute.mapErr
    (fun w revoked v h hrevoked => ?_) (fun _ => notes_record) fun _ _ _ _ id => ⟨id, rfl⟩
  exact revokeKey_of_false (Prog.mapErr_eq_ok h) hrevoked

variable [Argon2] [Base64]

/-- The round that stores the key is recorded. -/
lemma logs_issueKey {ε : Type} {collision other : ε} {saUserId createdBy : Uuid} {name : String}
    {scopes : Option (List String)} {store : NewApiKeyRow → Action ApiKeyRepoError ApiKey}
    {event : ApiKey → Stamp → AuditEvent} {attempts : ℕ}
    (hatomic : ∀ row, Prog.Atomic World.tables (store row)) (hsilent : ∀ row, Silent (store row)) :
    Logs (fun ℓ mat => Stamped ℓ.now (event mat.key))
      (issueKey collision other saUserId name scopes createdBy store event attempts) := by
  induction attempts with
  | zero => exact .of_traceless Prog.Reads.fail
  | succ attempts ih =>
    refine .bind_right reads_freshKeyRow.mapErr fun drawn => ?_
    refine .of_attempt (hatomic _) (hsilent _) (fun _ => notes_record.map)
      (fun _ _ _ _ id => ⟨id, rfl⟩) fun e => ?_
    cases e with
    | duplicatePrefix => exact ih
    | other e => exact .of_traceless Prog.Reads.fail

/-- A new key is recorded with its identifier and its prefix. -/
lemma logs_createApiKey {input : CreateApiKeyInput} :
    Logs (fun ℓ mat => Stamped ℓ.now fun s => .apiKeyCreated s input.actorUserId input.actorOrgId
        input.saUserId input.organisationId mat.key.id mat.key.keyPrefix) (createApiKey input) :=
  .bind_right reads_require fun _ => .bind_right traceless_query.mapErr fun _ =>
    .bind_right reads_require fun _ => createApiKeyLoop_eq ▸ logs_issueKey (fun _ => atomic_createKey)
      fun _ => Prog.Reads.bind silent_query.mapErr fun _ => silent_execute.mapErr

/-- A rotation is recorded with the identifiers of both keys. -/
lemma logs_rotateApiKey {input : RotateApiKeyInput} :
    Logs (fun ℓ mat => Stamped ℓ.now fun s => .apiKeyRotated s input.actorUserId input.actorOrgId
        input.saUserId input.organisationId input.oldKeyId mat.key.id) (rotateApiKey input) := by
  refine .bind_right traceless_query.mapErr fun sa => .bind_right reads_require fun _ => ?_
  refine .bind_right traceless_query.mapErr fun found => ?_
  cases found with
  | none => exact .of_traceless Prog.Reads.fail
  | some old =>
    refine .bind_right reads_require fun _ => rotateApiKeyLoop_eq ▸ logs_issueKey
      (fun _ => atomic_transaction) fun _ => silent_transaction ?_
    exact Prog.Reads.bind silent_execute.mapErr fun _ => silent_execute.mapErr

end Accounts

/-! ## Channels and features -/

section Channels
variable {actor actorOrg org channelId : Uuid}

/-- A channel that was stored has the organisation and the name that were asked for. -/
lemma createChannelRow_names {name : String} {description : Option String} {type : ChannelType}
    {isActive : Bool} {w v : World} {ch : InboundChannel}
    (h : (createChannelRow org name description type isActive).run w = (.ok ch, v)) :
    ch.organisationId = org ∧ ch.name = name := by
  obtain ⟨id, w₁, -, h⟩ := Prog.bind_eq_ok h
  obtain ⟨apiKey, w₂, -, h⟩ := Prog.bind_eq_ok h
  obtain ⟨t, heffect, -, -⟩ := execute_eq_ok (Prog.mapErr_eq_ok h)
  obtain ⟨-, rfl⟩ := return_eq_ok.mp heffect
  exact ⟨rfl, rfl⟩

/-- A new channel is recorded with its identifier and its name. -/
lemma logs_createInboundChannel {input : CreateChannelInput} :
    Logs (fun ℓ ch => Stamped ℓ.now fun s => .channelCreated s actor actorOrg ch.id
        input.organisationId (trimWs input.name)) (createInboundChannel actor actorOrg input) := by
  refine .bind_right reads_require fun _ => .bind_right reads_require fun _ => ?_
  refine .of_write (Prog.Atomic.mapErr ?_) (Prog.Reads.mapErr ?_) (fun _ => notes_record.map)
    fun w ch v h id => ⟨id, ?_⟩
  · refine Prog.Atomic.bind_right (reads_nowV7 fun _ _ => rfl) fun id => ?_
    refine Prog.Atomic.bind_right (Prog.Reads.bind (reads_randomBytes fun _ _ => rfl)
      fun _ => Prog.Reads.ret) fun apiKey => Prog.Atomic.mapErr atomic_execute
  · refine Prog.Reads.bind silent_nowV7 fun id => ?_
    exact Prog.Reads.bind (Prog.Reads.bind silent_randomBytes fun _ => Prog.Reads.ret)
      fun apiKey => silent_execute.mapErr
  · obtain ⟨horg, hname⟩ := createChannelRow_names (Prog.mapErr_eq_ok h)
    rw [horg, hname]
    rfl

/-- A channel that was updated is the one that was asked for, under its new name. -/
lemma updateChannelRow_names {name : String} {description : Option String} {type : ChannelType}
    {isActive : Bool} {w v : World} {ch : InboundChannel}
    (h : (updateChannelRow org channelId name description type isActive).run w = (.ok ch, v)) :
    ch.id = channelId ∧ ch.organisationId = org ∧ ch.name = name := by
  obtain ⟨found, u, hupdate, h⟩ := Prog.bind_eq_ok h
  obtain ⟨t, heffect, -, -⟩ := execute_eq_ok (Prog.mapErr_eq_ok hupdate)
  cases found with
  | none => cases h
  | some ch' =>
    cases h
    unfold Tables.updateChannel at heffect
    dsimp only at heffect
    split at heffect
    · cases heffect
    · rename_i old hold
      split at heffect
      · cases heffect
      · cases heffect
        have hselected := List.find?_some hold
        obtain ⟨hid, horg⟩ := (Bool.and_eq_true _ _).mp hselected
        exact ⟨of_decide_eq_true hid, of_decide_eq_true horg, rfl⟩

/-- An update of a channel that is not found changes nothing. -/
lemma atomic_updateChannelRow {name : String} {description : Option String}
    {channelType : ChannelType} {isActive : Bool} :
    Prog.Atomic World.tables
      (updateChannelRow org channelId name description channelType isActive) := by
  intro w e v h
  unfold updateChannelRow at h
  rw [Prog.run_bind] at h
  cases hrun : ((execute fun w => w.tables.updateChannel org channelId name description channelType
      isActive w.now).mapErr (mapChannelInsertError name)).run w with
  | mk r u =>
    rw [hrun] at h
    cases r with
    | error e' =>
      cases h
      exact Prog.Atomic.mapErr atomic_execute w _ _ hrun
    | ok found =>
      cases found with
      | some ch => cases h
      | none =>
        cases h
        obtain ⟨tables, heffect, rfl, -⟩ := execute_eq_ok (Prog.mapErr_eq_ok hrun)
        rcases Tables.updateChannel_cases heffect with ⟨-, rfl⟩ | ⟨hsome, -⟩
        · rfl
        · cases hsome

/-- An update of a channel is recorded with its new name. -/
lemma logs_updateInboundChannel {input : UpdateChannelInput} :
    Logs (fun ℓ _ => Stamped ℓ.now fun s => .channelUpdated s actor actorOrg input.channelId
        input.organisationId (trimWs input.name)) (updateInboundChannel actor actorOrg input) := by
  refine .bind_right reads_require fun _ => .bind_right reads_require fun _ => ?_
  refine .of_write (Prog.Atomic.mapErr atomic_updateChannelRow) (Prog.Reads.mapErr ?_)
    (fun _ => notes_record.map) fun w ch v h id => ⟨id, ?_⟩
  · refine Prog.Reads.bind silent_execute.mapErr fun found => ?_
    cases found with
    | none => exact Prog.Reads.fail
    | some ch => exact Prog.Reads.ret
  · obtain ⟨hid, horg, hname⟩ := updateChannelRow_names (Prog.mapErr_eq_ok h)
    rw [hid, horg, hname]
    rfl

/-- A deletion that finds no channel changes nothing. -/
lemma atomic_deleteChannelRow : Prog.Atomic World.tables (deleteChannelRow org channelId) := by
  intro w e v h
  unfold deleteChannelRow at h
  rw [Prog.run_bind] at h
  cases hrun : ((execute fun w => .ok ((w.tables.inboundChannels.select (fun c : InboundChannel =>
      c.id = channelId && c.organisationId = org)).length, { w.tables with
      inboundChannels := w.tables.inboundChannels.deleteWhere (fun c : InboundChannel =>
        c.id = channelId && c.organisationId = org) })).mapErr ChannelRepoError.db).run w with
  | mk r u =>
    rw [hrun] at h
    cases r with
    | error e' =>
      cases h
      exact Prog.Atomic.mapErr atomic_execute w _ _ hrun
    | ok affected =>
      obtain ⟨tables, heffect, rfl, -⟩ := execute_eq_ok (Prog.mapErr_eq_ok hrun)
      cases heffect
      dsimp only at h
      rw [run_require] at h
      split at h
      · cases h
      · rename_i hzero
        cases h
        have hnone : w.tables.inboundChannels.select (fun c : InboundChannel =>
            c.id = channelId && c.organisationId = org) = [] := by
          simpa using hzero
        have hsame := Table.deleteWhere_eq_self fun c hc =>
          eq_false_of_ne_true (List.filter_eq_nil_iff.mp hnone c hc)
        exact congrArg (fun rows => { w.tables with inboundChannels := rows }) hsame

/-- The deletion of a channel is recorded. -/
lemma logs_deleteInboundChannel :
    Logs (fun ℓ _ => Stamped ℓ.now fun s => .channelDeleted s actor actorOrg channelId org)
      (deleteInboundChannel actor actorOrg org channelId) := by
  refine .of_write (Prog.Atomic.mapErr atomic_deleteChannelRow) (Prog.Reads.mapErr ?_)
    (fun _ => notes_record) fun _ _ _ _ id => ⟨id, rfl⟩
  exact Prog.Reads.bind silent_execute.mapErr fun affected => reads_require

end Channels

section Features

/-- The cache is emptied of a flag before the change is recorded. -/
lemma notes_invalidate_record {ε : Type} {org : Uuid} {slug : String} {event : Stamp → AuditEvent} :
    Notes event () (do
      invalidate org slug
      record event : Action ε Unit) :=
  fun _ => ⟨_, rfl, rfl⟩

/-- What the override of a flag says. -/
def Tables.overridden (t : Tables) (org : Uuid) (slug : String) : Option Value :=
  (t.override org slug).map OrgFeatureOverride.value

/-- An override that is set is recorded with the value it replaces. -/
lemma logs_setOrgFeature {input : SetOrgFeatureInput} :
    Logs (fun ℓ _ e => ∃ d, ℓ.tables.definition input.slug = some d ∧
        Stamped ℓ.now (fun s => .featureSet s input.actorUserId input.actorOrgId
          input.organisationId input.slug (ℓ.tables.overridden input.organisationId input.slug)
          input.value d.selfService) e) (setOrgFeature input) := by
  refine .bind_run reads_getDefinition.mapErr fun w found v hfound => ?_
  obtain ⟨rfl, -, -⟩ := query_eq_ok (Prog.mapErr_eq_ok (Prog.mapErr_eq_ok hfound))
  cases hdefined : w.tables.definition input.slug with
  | none => exact .of_traceless Prog.Reads.fail
  | some d =>
    refine .bind_right Prog.Reads.ofExcept.mapErr fun _ => .bind_right reads_require fun _ => ?_
    refine .of_write (Prog.Atomic.mapErr (Prog.Atomic.mapErr atomic_execute))
      silent_execute.mapErr.mapErr (fun _ => notes_invalidate_record) fun u old v h id hsame => ?_
    obtain ⟨t, heffect, -, -⟩ := execute_eq_ok (Prog.mapErr_eq_ok (Prog.mapErr_eq_ok h))
    obtain ⟨-, rfl⟩ := return_eq_ok.mp heffect
    have hd : u.tables.definition input.slug = some d :=
      (congrArg (fun ℓ : Ledger => ℓ.tables.definition input.slug) hsame).trans hdefined
    exact ⟨d, hd, id, rfl⟩

/-- An override that is cleared is recorded with its value. -/
lemma logs_clearOrgFeature {input : ClearOrgFeatureInput} :
    Logs (fun ℓ _ e => ∃ d, ℓ.tables.definition input.slug = some d ∧
        Stamped ℓ.now (fun s => .featureCleared s input.actorUserId input.actorOrgId
          input.organisationId input.slug (ℓ.tables.overridden input.organisationId input.slug)
          d.selfService) e) (clearOrgFeature input) := by
  refine .bind_run reads_getDefinition.mapErr fun w found v hfound => ?_
  obtain ⟨rfl, -, -⟩ := query_eq_ok (Prog.mapErr_eq_ok (Prog.mapErr_eq_ok hfound))
  cases hdefined : w.tables.definition input.slug with
  | none => exact .of_traceless Prog.Reads.fail
  | some d =>
    refine .bind_right reads_require fun _ => ?_
    refine .of_write (Prog.Atomic.mapErr (Prog.Atomic.mapErr atomic_execute))
      silent_execute.mapErr.mapErr (fun _ => notes_invalidate_record) fun u old v h id hsame => ?_
    obtain ⟨t, heffect, -, -⟩ := execute_eq_ok (Prog.mapErr_eq_ok (Prog.mapErr_eq_ok h))
    cases heffect
    have hd : u.tables.definition input.slug = some d :=
      (congrArg (fun ℓ : Ledger => ℓ.tables.definition input.slug) hsame).trans hdefined
    exact ⟨d, hd, id, rfl⟩

end Features

/-! ## Listings -/

section Listings
variable [CursorText]

end Listings

/-! ## Routes -/

/-- The event of a request for a guarded resource with its answer; `PUT` of a flag records before it
has an answer. -/
def ResourceAction.event (s : Stamp) (user org : Uuid) (t : Tables) (n : Names) :
    ResourceAction → Option ResourceReply → Option AuditEvent
  | createChannel req, some (.channel ch) =>
    some (.channelCreated s user org ch.id n.organisation (trimWs req.name))
  | updateChannel req, some _ =>
    some (.channelUpdated s user org n.channel n.organisation (trimWs req.name))
  | deleteChannel, some _ => some (.channelDeleted s user org n.channel n.organisation)
  | putFeature slug value, _ => (t.definition slug).map fun d =>
    .featureSet s user org n.organisation slug (t.overridden n.organisation slug) value
      d.selfService
  | deleteFeature slug, some _ => (t.definition slug).map fun d =>
    .featureCleared s user org n.organisation slug (t.overridden n.organisation slug) d.selfService
  | createServiceAccount name _, some (.serviceAccount sa) =>
    some (.serviceAccountCreated s user org sa.userId n.organisation name)
  | deleteServiceAccount, some _ =>
    some (.serviceAccountDeleted s user org n.serviceAccount org)
  | createApiKey _, some (.apiKey mat) =>
    some (.apiKeyCreated s user org n.serviceAccount org mat.key.id mat.key.keyPrefix)
  | deleteApiKey, some _ => some (.apiKeyRevoked s user org n.serviceAccount org n.key)
  | rotateApiKey _, some (.apiKey mat) =>
    some (.apiKeyRotated s user org n.serviceAccount org n.key mat.key.id)
  | listUsers _ _ _ _, some _ => some (.usersList s user org)
  | _, _ => none

/-- What a request for a guarded resource was answered. -/
def Reply.resource? : Reply → Option ResourceReply
  | resource reply => some reply
  | _ => none

/-- The event of a request of a principal with its answer. -/
def Route.event (s : Stamp) (p : Principal) (t : Tables) : Route → Option Reply → Option AuditEvent
  | createOrganisation req, some (.organisation body) =>
    some (.organisationCreated s p.user p.organisation body.id (trimWs req.name))
  | assignRole org req, some (.assigned ⟨true⟩) =>
    some (.organisationRoleAssigned s p.user p.organisation org req.userId req.roleCode)
  | addUser req, some _ =>
    some (.organisationMemberAdded s p.user p.organisation req.orgId req.userId req.roleCode)
  | removeUser req, some _ =>
    some (.organisationMemberRemoved s p.user p.organisation req.orgId req.userId)
  | register req, some (.registered id) =>
    some (.userRegisteredSuccess s p.user p.organisation id req.orgId req.roleCode)
  | logout, some _ =>
    match p.kind with
    | .user _ _ jti => some (.logout s p.user p.organisation jti)
    | .apiKey _ _ _ => none
  | changePassword _, some _ => some (.passwordChanged s p.user)
  | switchOrg target, some _ => some (.sessionSwitchedOrg s p.user p.organisation target)
  | resource n action, answer =>
    action.event s p.user p.organisation t n (answer.bind Reply.resource?)
  | _, _ => none

/-- An event is the one of a request of a principal, that found this ledger, with its answer. -/
def Route.Recorded (route : Route) (p : Principal) (ℓ : Ledger) (answer : Option Reply)
    (e : AuditEvent) : Prop :=
  Stamped ℓ.now (fun s => route.event s p ℓ.tables answer) (some e)

/-- An event tells that a user has succeeded with something, acting for an organisation if any. -/
structure AuditEvent.Tells (e : AuditEvent) (eventType : String) (user : Uuid) (org : Option Uuid) :
    Prop where
  type : e.eventType = eventType
  actor : e.actorUserId = some user
  organisation : e.actorOrganisationId = org
  outcome : e.outcome = .success

/-- The type of the event that a successful request for a guarded resource records. -/
def ResourceAction.eventType : ResourceAction → Option String
  | createChannel _ => some "channel.created"
  | updateChannel _ => some "channel.updated"
  | deleteChannel => some "channel.deleted"
  | putFeature _ _ => some "feature.set"
  | deleteFeature _ => some "feature.cleared"
  | createServiceAccount _ _ => some "service_account.created"
  | deleteServiceAccount => some "service_account.deleted"
  | createApiKey _ => some "api_key.created"
  | deleteApiKey => some "api_key.revoked"
  | rotateApiKey _ => some "api_key.rotated"
  | listUsers _ _ _ _ => some "users.list"
  | listChannels _ | getChannel | listFeatures | listServiceAccounts _ _ | getServiceAccount
  | listApiKeys => none

/-- The type of the event that a successful request records. -/
def Route.eventType : Route → Option String
  | createOrganisation _ => some "organisation.created"
  | assignRole _ _ => some "organisation.role_assigned"
  | addUser _ => some "organisation.member_added"
  | removeUser _ => some "organisation.member_removed"
  | register _ => some "user.registered"
  | logout => some "logout"
  | changePassword _ => some "password.changed"
  | switchOrg _ => some "session.switched_org"
  | resource _ action => action.eventType
  | listMyOrganisations _ | listMembers _ _ | definitions | getEcho | postEcho _ => none

/-- The organisation that the event of a route names as the actor's: that of the credential, but for
a switch of the organisation, which names the new one, and a change of the password, which names
none. -/
def Route.actingIn (org : Uuid) : Route → Option Uuid
  | switchOrg target => some target
  | changePassword _ => none
  | _ => some org

/-- The event of a request for a guarded resource has the type of the request and names who acted. -/
lemma ResourceAction.event_tells {s : Stamp} {user org : Uuid} {t : Tables} {n : Names}
    {action : ResourceAction} {answer : Option ResourceReply} {e : AuditEvent}
    (h : action.event s user org t n answer = some e) :
    ∃ eventType, action.eventType = some eventType ∧ e.Tells eventType user (some org) := by
  unfold ResourceAction.event at h
  split at h
  case h_4 | h_5 =>
    obtain ⟨d, -, rfl⟩ := Option.map_eq_some_iff.mp h
    exact ⟨_, rfl, rfl, rfl, rfl, rfl⟩
  case h_12 => cases h
  all_goals
    cases h
    exact ⟨_, rfl, rfl, rfl, rfl, rfl⟩

/-- The event of a request has the type of its route and names who acted. -/
lemma Route.event_tells {s : Stamp} {p : Principal} {t : Tables} {route : Route}
    {answer : Option Reply} {e : AuditEvent} (h : route.event s p t answer = some e) :
    ∃ eventType, route.eventType = some eventType ∧
      e.Tells eventType p.user (route.actingIn p.organisation) := by
  unfold Route.event at h
  split at h
  case h_6 =>
    split at h
    · cases h
      exact ⟨_, rfl, rfl, rfl, rfl, rfl⟩
    · cases h
  case h_9 => exact ResourceAction.event_tells h
  case h_10 => cases h
  all_goals
    cases h
    exact ⟨_, rfl, rfl, rfl, rfl, rfl⟩

/-- `PUT` of a feature flag. -/
def Route.putsFeature : Route → Bool
  | resource _ (.putFeature _ _) => true
  | _ => false

section Handlers
variable {c : AuthedCaller} {kind : Caller}

/-- What a handler checks first leaves no trace. -/
lemma Logs.check {ε α β : Type} {E : Ledger → β → AuditEvent → Prop} {r : Except ε α}
    {k : α → Action ε β} (hk : ∀ a, Logs E (k a)) : Logs E (Prog.ofExcept r >>= k) :=
  .bind_right Prog.Reads.ofExcept hk

/-- A handler finds its caller in the extensions. -/
lemma Logs.caller {α : Type} {E : Ledger → α → AuditEvent → Prop}
    {k : AuthedCaller → Action AppError α} (hk : Logs E (k c)) :
    Logs E (Prog.ofExcept (authedCaller (c.extensions kind)) >>= k) := hk

/-- A handler finds its caller in the extensions. -/
lemma offers_caller {α : Type} {H : Ledger → AuditEvent → Prop}
    {k : AuthedCaller → Action AppError α} (hk : Offers H (k c)) :
    Offers H (Prog.ofExcept (authedCaller (c.extensions kind)) >>= k) := hk

variable [Platform]

/-- A request for a guarded resource that is not the `PUT` of a flag. -/
lemma logs_serve {n : Names} {action : ResourceAction}
    (hput : ∀ slug value, action ≠ .putFeature slug value) :
    Logs (fun ℓ reply e => Stamped ℓ.now (fun s =>
        action.event s c.claims.sub c.claims.org ℓ.tables n (some reply)) (some e))
      (action.serve (c.extensions kind) n) := by
  cases action with
  | putFeature slug value => exact absurd rfl (hput slug value)
  | createChannel req =>
    refine .map (.caller (.check fun _ => .check fun _ => .check fun _ => .map (.mapErr ?_)))
    exact logs_createInboundChannel.mono fun _ _ _ h => h.some
  | updateChannel req =>
    refine .map (.caller (.check fun _ => .check fun _ => .check fun _ => .mapErr ?_))
    exact logs_updateInboundChannel.mono fun _ _ _ h => h.some
  | deleteChannel =>
    refine .map (.caller (.check fun _ => .check fun _ => .map (.mapErr ?_)))
    exact logs_deleteInboundChannel.mono fun _ _ _ h => h.some
  | deleteFeature slug =>
    refine .map (.caller (.check fun _ => .check fun _ => .map (.mapErr ?_)))
    exact logs_clearOrgFeature.mono fun _ _ _ ⟨d, hd, he⟩ => he.of_found hd
  | createServiceAccount name description =>
    refine .map (.check fun _ => .caller (.check fun _ => .check fun _ => .map (.mapErr ?_)))
    exact logs_createServiceAccount.mono fun _ _ _ h => h.some
  | deleteServiceAccount =>
    refine .map (.check fun _ => .caller (.check fun _ => .map (.mapErr ?_)))
    exact logs_deleteServiceAccount.mono fun _ _ _ h => h.some
  | createApiKey req =>
    refine .map (.check fun _ => .caller (.check fun _ => .map (.mapErr ?_)))
    exact logs_createApiKey.mono fun _ _ _ h => h.some
  | deleteApiKey =>
    refine .map (.check fun _ => .caller (.check fun _ => .map (.mapErr ?_)))
    exact logs_revokeApiKey.mono fun _ _ _ h => h.some
  | rotateApiKey req =>
    refine .map (.check fun _ => .caller (.check fun _ => .map (.mapErr ?_)))
    exact logs_rotateApiKey.mono fun _ _ _ h => h.some
  | listUsers after limit named q =>
    refine .map (.caller (.check fun _ => .bind_right reads_require fun _ => ?_))
    refine .bind_right reads_listUsers.mapErr fun out => ?_
    exact notes_record.map.logs fun _ id => ⟨id, rfl⟩
  | listChannels q =>
    refine .map (.caller (.check fun _ => .check fun _ => .map (.of_traceless ?_)))
    exact reads_listInboundChannels.mapErr
  | getChannel =>
    refine .map (.caller (.check fun _ => .check fun _ => .of_traceless (Prog.Reads.mapErr ?_)))
    refine Prog.Reads.mapErr (Prog.Reads.bind traceless_query.mapErr fun found => ?_)
    cases found with
    | none => exact Prog.Reads.fail
    | some ch => exact Prog.Reads.ret
  | listFeatures =>
    refine .map (.caller (.check fun _ => .check fun _ => .of_traceless ?_))
    exact Prog.Reads.mapErr reads_listOrgFeatures
  | listServiceAccounts limit after =>
    refine .map (.check fun _ => .caller (.check fun _ => .check fun _ => .check fun _ => .map ?_))
    exact .of_traceless reads_listServiceAccounts.mapErr
  | getServiceAccount =>
    refine .map (.check fun _ => .caller (.check fun _ => .bind_right traceless_query.mapErr ?_))
    intro found
    cases found with
    | none => exact .of_traceless Prog.Reads.fail
    | some sa => exact .of_traceless Prog.Reads.ret
  | listApiKeys =>
    refine .map (.check fun _ => .caller (.check fun _ => .map (.of_traceless ?_)))
    exact Prog.Reads.mapErr (Prog.Reads.bind traceless_query.mapErr fun sa =>
      Prog.Reads.bind reads_require fun _ => traceless_query.mapErr)

omit [Platform] in
/-- `PUT` of a flag offers the event of the change, and may fail when it lists the flags again. -/
lemma offers_putOrgFeature {n : Names} {slug : String} {value : Value} :
    Offers (fun ℓ e => Stamped ℓ.now (fun s => (ResourceAction.putFeature slug value).event s
        c.claims.sub c.claims.org ℓ.tables n none) (some e))
      (putOrgFeature (c.extensions kind) n.organisation slug value) := by
  refine offers_caller (.bind_right Prog.Reads.ofExcept fun _ => ?_)
  refine .bind_right Prog.Reads.ofExcept fun _ => .bind_left (logs_setOrgFeature.mapErr.offers ?_) ?_
  · exact fun _ _ _ ⟨d, hd, he⟩ => he.of_found hd
  · intro _
    refine Prog.Reads.bind reads_listOrgFeatures.mapErr fun features => ?_
    cases features.find? (fun f => f.slug = slug) with
    | none => exact Prog.Reads.fail
    | some evaluated => exact Prog.Reads.ret

/-- A handler leaves no trace, or it returns and has offered the event of its route; `PUT` of a flag
apart. -/
theorem logs_handler {config : JwtConfig} {route : Route} {p : Principal}
    (huser : c.claims.sub = p.user) (horg : c.claims.org = p.organisation)
    (hsession : ∀ user org jti, p.kind = .user user org jti → c.claims.jti = jti)
    (hput : route.putsFeature = false) :
    Logs (fun ℓ reply => route.Recorded p ℓ (some reply))
      (route.handler config (c.extensions p.kind)) := by
  obtain ⟨kind, user, organisation, scopes⟩ := p
  obtain rfl : c.claims.sub = user := huser
  obtain rfl : c.claims.org = organisation := horg
  cases route with
  | createOrganisation req =>
    refine .map (.caller (.check fun _ => .check fun _ => .map (.mapErr ?_)))
    exact logs_createOrganisation.mono fun _ _ _ h => h.some
  | assignRole org req =>
    refine .map (.check fun _ => .caller (.check fun _ => .map (.mapErr ?_)))
    refine logs_assignRole.mono fun _ out _ ⟨hnew, he⟩ => ?_
    rw [hnew]
    exact he.some
  | addUser req =>
    refine .map (.caller (.check fun _ => .map (.mapErr ?_)))
    exact logs_addUserToOrganisation.mono fun _ _ _ h => h.some
  | removeUser req =>
    refine .map (.caller (.check fun _ => .map (.mapErr ?_)))
    exact logs_removeUserFromOrganisation.mono fun _ _ _ h => h.some
  | register req =>
    refine .map (.check fun _ => .caller (.check fun _ => .map (.mapErr ?_)))
    exact logs_registerUser.mono fun _ _ _ h => h.some
  | logout =>
    cases kind with
    | apiKey keyId saUserId orgId => exact .map fun w => Or.inl rfl
    | user user org jti =>
      obtain rfl := hsession user org jti rfl
      refine .map (.check fun _ => .caller (.bind_right reads_utcNow fun now => .map (.mapErr ?_)))
      exact logs_logout.mono fun _ _ _ h => h.some
  | changePassword req =>
    refine .map (.check fun _ => .caller (.map (.mapErr ?_)))
    exact logs_changePassword.mono fun _ _ _ h => h.some
  | switchOrg org =>
    refine .map (.check fun _ => .caller ?_)
    apply Logs.mapErr
    exact logs_switchOrg.mono fun _ _ _ h => h.some
  | listMyOrganisations q =>
    refine .map (.caller (.map (.of_traceless ?_)))
    exact reads_listMyOrganisations.mapErr
  | listMembers org q =>
    refine .map (.check fun _ => .caller (.map (.of_traceless ?_)))
    exact reads_listOrganisationMembers.mapErr
  | definitions => exact .map (.check fun _ => .of_traceless traceless_query.mapErr.mapErr)
  | resource n action =>
    refine .map (logs_serve fun slug value h => ?_)
    rw [h] at hput
    cases hput
  | getEcho | postEcho _ =>
    exact .map (.check fun _ => .check fun _ => .of_traceless
      (Prog.Reads.bind reads_utcNow fun _ => Prog.Reads.ret))

/-- A handler leaves no trace, or it has offered the event of its route and returns; `PUT` of a flag
may fail after the event. -/
theorem accounted_handler {config : JwtConfig} {route : Route} {p : Principal} {u v : World}
    {t : Tables} {answer : Except AppError Reply} (hc : c.Represents p t)
    (h : (route.handler config (c.extensions p.kind)).run u = (answer, v)) :
    v.ledger = u.ledger ∨ Offered (route.Recorded p u.ledger answer.toOption) u v ∧
      ((∃ reply, answer = .ok reply) ∨ route.putsFeature = true) := by
  cases hput : route.putsFeature with
  | false =>
    have hlogs : Logs (fun ℓ reply => route.Recorded p ℓ (some reply))
        (route.handler config (c.extensions p.kind)) :=
      logs_handler hc.user hc.organisation (fun _ _ _ hkind => hc.session _ _ _ hkind) hput
    have hlogs := hlogs u
    rw [h] at hlogs
    refine hlogs.imp_right ?_
    rintro ⟨reply, rfl, hoffered⟩
    exact ⟨hoffered, Or.inl ⟨reply, rfl⟩⟩
  | true =>
    obtain ⟨n, slug, value, rfl⟩ : ∃ n slug value, route = .resource n (.putFeature slug value) := by
      unfold Route.putsFeature at hput
      split at hput
      · exact ⟨_, _, _, rfl⟩
      · cases hput
    have hoffers : Offers (fun ℓ e => Stamped ℓ.now (fun s =>
        (ResourceAction.putFeature slug value).event s c.claims.sub c.claims.org ℓ.tables n none)
        (some e)) (Route.handler config (c.extensions p.kind)
          (.resource n (.putFeature slug value))) :=
      Offers.bind_left (.bind_left offers_putOrgFeature fun _ => Prog.Reads.ret) fun _ =>
        Prog.Reads.ret
    have hu := hoffers u
    rw [h, hc.user, hc.organisation] at hu
    exact hu.imp_right fun hoffered => ⟨hoffered, Or.inr rfl⟩

/-- What a protected request leaves behind: nothing, or one event of a principal for whom its handler
has run. -/
lemma respond_told {config : JwtConfig} {headers : Headers} {route : Route} {w v : World}
    {r : Except Rejection Reply} (h : (respond config headers route).run w = (r, v)) :
    v.ledger = w.ledger ∨ ∃ p c, Principal.Presented config headers w p ∧
      AuthedCaller.Represents c p w.tables ∧ route.gate.Admits c p.kind ∧
      Offered (route.Recorded p w.ledger r.toOption) w v ∧
      ((∃ reply, r = .ok reply) ∨ route.putsFeature = true) := by
  obtain ⟨-, hledger⟩ | ⟨p, c, u, answer, hpresented, hc, hu, hrun, rfl⟩ := respond_cases h
  · exact Or.inl hledger
  · by_cases hadmits : route.gate.Admits c p.kind
    · rcases accounted_handler hc hrun with hsame | ⟨⟨e, he, haudit⟩, hreturns⟩
      · exact Or.inl (hsame.trans hu)
      · have hsame : u.audit = w.audit := congrArg Ledger.audit hu
        rw [hu] at he
        rw [hsame] at haudit
        refine Or.inr ⟨p, c, hpresented, hc, hadmits, ⟨e, ?_, haudit⟩, hreturns.imp_left ?_⟩
        · cases answer <;> exact he
        · rintro ⟨reply, rfl⟩
          exact ⟨reply, rfl⟩
    · have hguarded : GuardedBy (route.gate.Admits c p.kind)
          (route.handler config (c.extensions p.kind)) := guarded_handler
      obtain ⟨e, -, hrefused⟩ := hguarded hadmits u
      rw [hrun] at hrefused
      obtain ⟨-, rfl⟩ := Prod.mk.inj hrefused
      exact Or.inl hu

/-- A protected request leaves no trace in the tables and in the audit channel, or it offers the
channel exactly one event: the one of the request of the principal behind it with its answer, which
has the type of the route and names this principal; and the principal passes the gate of the route. In
the second case the request is answered with success, unless it is the `PUT` of a flag. -/
theorem respond_accounted {config : JwtConfig} {headers : Headers} {route : Route} {w : World} :
    ((respond config headers route).run w).2.ledger = w.ledger ∨
    ((∃ reply, ((respond config headers route).run w).1 = .ok reply) ∨ route.putsFeature = true) ∧
    ∃ p, Principal.Presented config headers w p ∧ route.gate.Passes p w.tables ∧
      Offered (fun e =>
        route.Recorded p w.ledger ((respond config headers route).run w).1.toOption e ∧
        ∃ eventType, route.eventType = some eventType ∧
          e.Tells eventType p.user (route.actingIn p.organisation))
        w ((respond config headers route).run w).2 := by
  cases hrespond : (respond config headers route).run w with
  | mk r v =>
    obtain hsame | ⟨p, c, hpresented, hc, hadmits, ⟨e, he, haudit⟩, hreturns⟩ := respond_told hrespond
    · exact Or.inl hsame
    · obtain ⟨id, hevent⟩ := id he
      exact Or.inr ⟨hreturns, p, hpresented, hadmits.passes hc, e,
        ⟨he, Route.event_tells hevent⟩, haudit⟩

end Handlers
end Egras
