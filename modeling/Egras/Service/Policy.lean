import Egras.Service.Effects
import Egras.Service.Gateway

/-!
# What each operation is permitted

The policy of the service: for every route, and for every operation that needs no caller, the
effects that it may have (`Route.Permits`, `Operation.Permits`), tied to what the request names, to
its caller and to what the tables say. `follows_handler` and `serve_follows` say that the handlers
and the operations keep to it.
-/

namespace Egras
open Lib Relation

/-! ## The policy -/

/-- A user goes by a name: it is its username or its email. -/
def User.Named (u : User) (name : String) : Prop := u.username = name ∨ u.email = name

/-- The service account that a request names is one of the organisation of its caller. -/
def AuthedCaller.Homes (c : AuthedCaller) (t : Tables) (saUserId : Uuid) : Prop :=
  (t.serviceAccount c.claims.org saUserId).isSome = true

section Permits
variable [Argon2] [CaseMapping]

/-- The effects that a request for a guarded resource may have, when it found the tables `t₀`. -/
def ResourceAction.Permits (c : AuthedCaller) (n : Names) (t₀ : Tables) :
    ResourceAction → Effect → Prop
  | createChannel req, .addChannel ch =>
    ch.organisationId = n.organisation ∧ ch.name = trimWs req.name ∧
      ch.description = req.description ∧ ch.channelType = req.channelType ∧
      ch.isActive = req.isActive
  | updateChannel req, .updateChannel org ch name description channelType isActive _ =>
    org = n.organisation ∧ ch = n.channel ∧ name = trimWs req.name ∧
      description = req.description ∧ channelType = req.channelType ∧ isActive = req.isActive
  | deleteChannel, .deleteChannel org ch => org = n.organisation ∧ ch = n.channel
  | putFeature slug value, .setFlag f =>
    f.organisationId = n.organisation ∧ f.slug = slug ∧ f.value = value ∧
      f.updatedBy = c.claims.sub ∧ t₀.MaySet c.permissions.isOperatorOverTenants slug
  | deleteFeature slug, .clearFlag org s =>
    org = n.organisation ∧ s = slug ∧ t₀.MaySet c.permissions.isOperatorOverTenants slug
  | createServiceAccount _ _, .addUser u =>
    u.kind = .serviceAccount ∧ u.passwordHash = "!" ∧ u.username = "sa_" ++ uuidToString u.id ∧
      u.email = u.username ++ "@service-account.invalid"
  | createServiceAccount name description, .addServiceAccount sa =>
    sa.organisationId = n.organisation ∧ sa.name = name ∧ sa.description = description ∧
      sa.createdBy = c.claims.sub ∧ t₀.hasUser sa.userId = false
  | deleteServiceAccount, .deleteUser u =>
    u = n.serviceAccount ∧ c.Homes t₀ n.serviceAccount ∧
      ∃ user ∈ t₀.users, user.id = u ∧ user.kind = .serviceAccount
  | createApiKey req, .addKey k =>
    c.Homes t₀ n.serviceAccount ∧ NewKey n.serviceAccount c.claims.sub k ∧
      (∃ secret, HashOf secret k.secretHash) ∧ k.name = req.name ∧ k.scopes = req.scopes
  | rotateApiKey req, .addKey k =>
    c.Homes t₀ n.serviceAccount ∧ NewKey n.serviceAccount c.claims.sub k ∧
      (∃ secret, HashOf secret k.secretHash) ∧
      ∃ old ∈ t₀.apiKeys, old.id = n.key ∧ old.serviceAccountUserId = n.serviceAccount ∧
        k.name = req.name.getD old.name ∧ k.scopes = (req.scopes.map some).getD old.scopes
  | rotateApiKey _, .revokeKey id none _ =>
    id = n.key ∧ c.Homes t₀ n.serviceAccount ∧ t₀.HoldsKey n.serviceAccount n.key
  | deleteApiKey, .revokeKey id (some owner) _ =>
    id = n.key ∧ owner = n.serviceAccount ∧ c.Homes t₀ n.serviceAccount
  | _, _ => False

/-- The effects that a request of a caller may have on the tables `t`, when it found the tables `t₀` at
the time `now`. -/
def Route.Permits (c : AuthedCaller) (t₀ : Tables) (now : Timestamp) (t : Tables) :
    Route → Effect → Prop
  | createOrganisation req, .addOrganisation o =>
    o.name = trimWs req.name ∧ o.business = trimWs req.business ∧ o.isOperator = false
  | createOrganisation _, .addRole r =>
    r.userId = c.claims.sub ∧ t₀.hasOrganisation r.organisationId = false ∧
      t.Codes "org_owner" r.roleId
  | addUser req, .addRole r =>
    r.userId = req.userId ∧ r.organisationId = req.orgId ∧ t.Codes req.roleCode r.roleId
  | assignRole orgId req, .addRole r =>
    r.userId = req.userId ∧ r.organisationId = orgId ∧ t.Codes req.roleCode r.roleId ∧
      t₀.isMember req.userId orgId = true ∧
      (c.permissions.isOperatorOverTenants = false → t₀.isMember c.claims.sub orgId = true)
  | removeUser req, .removeMember u o => u = req.userId ∧ o = req.orgId
  | register req, .addUser u =>
    u.username = trimWs req.username ∧ u.email = CaseMapping.toLowercase (trimWs req.email) ∧
      u.kind = .human ∧ HashOf req.password u.passwordHash
  | register req, .addRole r =>
    r.organisationId = req.orgId ∧ t₀.hasUser r.userId = false ∧ t.Codes req.roleCode r.roleId
  | logout, .revokeToken r =>
    r.jti = c.claims.jti ∧ r.userId = c.claims.sub ∧
      r.expiresAt = (fromTimestamp c.claims.exp).getD now
  | changePassword req, .setPassword u hash _ =>
    u = c.claims.sub ∧ HashOf req.newPassword hash ∧
      ∃ user ∈ t₀.users, user.id = u ∧
        Argon2.verifyPassword req.currentPassword user.passwordHash = some true
  | resource n action, e => action.Permits c n t₀ e
  | _, _ => False

/-- The route of a request; the audit log has none. -/
def Request.route : Request → Option Route
  | createOrganisation req => some (.createOrganisation req)
  | addUser req => some (.addUser req)
  | assignRole orgId req => some (.assignRole orgId req)
  | removeUser req => some (.removeUser req)
  | register req => some (.register req)
  | resource n action => some (.resource n action)
  | listMyOrganisations q => some (.listMyOrganisations q)
  | listMembers orgId q => some (.listMembers orgId q)
  | listDefinitions => some .definitions
  | listAuditEvents _ => none
  | changePassword req => some (.changePassword req)
  | switchOrg orgId => some (.switchOrg orgId)
  | logout => some .logout

variable [Sha256]

/-- The effects that an operation which starts in the world `w` may have on the tables `t`. -/
def Operation.Permits (w : World) (t : Tables) : Operation → Effect → Prop
  | request c kind req, e =>
    ∃ route, req.route = some route ∧ route.gate.Admits c kind ∧ route.Permits c w.tables w.now t e
  | login req, .setPassword u hash _ =>
    HashOf req.password hash ∧ ∃ user ∈ w.tables.users, user.id = u ∧
      user.Named req.usernameOrEmail ∧
      Argon2.verifyPassword req.password user.passwordHash = some true
  | passwordResetRequest _ req, .dropOldestPending u _ =>
    ∃ user ∈ w.tables.users, user.id = u ∧ user.Named req.email
  | passwordResetRequest ttlSecs req, .addResetToken p =>
    p.usedAt = none ∧ p.tokenHash = tokenHashOf (w.nextBytes 32) ∧
      p.expiresAt = w.now + ttlSecs * 1000000 ∧
      ∃ user ∈ w.tables.users, user.id = p.userId ∧ user.Named req.email
  | passwordResetConfirm req, .setPassword u hash _ =>
    HashOf req.newPassword hash ∧ ∃ p ∈ w.tables.passwordResetTokens, p.userId = u ∧
      presentedHash req.rawToken = some p.tokenHash ∧ p.usedAt = none ∧ w.now < p.expiresAt
  | passwordResetConfirm req, .consumeToken id _ =>
    ∃ p ∈ w.tables.passwordResetTokens, p.id = id ∧ presentedHash req.rawToken = some p.tokenHash
  | touchLastUsed task, .touchKey keyId _ => keyId = task.keyId
  | touchLastUsed task, .touchServiceAccount saUserId _ => saUserId = task.saUserId
  | insertAuditEvent event, .addEvent e => e = event
  | bootstrapSeedAdmin input, .addUser u =>
    u.username = input.username ∧ u.email = input.email ∧ u.kind = .human ∧
      HashOf input.password u.passwordHash
  | bootstrapSeedAdmin input, .addRole r =>
    w.tables.hasUser r.userId = false ∧ t.Codes input.roleCode r.roleId ∧
      ∃ org ∈ w.tables.organisations, org.name = input.operatorOrgName ∧ org.id = r.organisationId
  | bootstrapSeedAdmin input, .addEvent e =>
    ∃ user ∈ t.users, ∃ org ∈ w.tables.organisations, w.tables.hasUser user.id = false ∧
      user.username = input.username ∧ user.email = input.email ∧
      org.name = input.operatorOrgName ∧
      Stamped w.now (.adminSeeded · user.id org.id input.roleCode) e
  | _, _ => False

end Permits

/-! ## The handlers keep to it -/

section Handlers
variable [Platform] {c : AuthedCaller} {kind : Caller} {w : World}

/-- What is behind a gate needs to be right for those only that it admits. -/
lemma follows_gated {α : Type} {P : Prop} {A : Tables → Effect → Prop} {p : Action AppError α}
    (hguarded : GuardedBy P p) (hp : P → Prog.Follows World.tables (Effect.Step A) w p) :
    Prog.Follows World.tables (Effect.Step A) w p := by
  by_cases h : P
  · exact hp h
  · obtain ⟨e, -, hrun⟩ := hguarded h w
    exact .of_eq (by rw [hrun])

/-- The caller of the request is the one that is known. -/
lemma follows_caller {α : Type} {A : Tables → Effect → Prop} {k : AuthedCaller → Action AppError α}
    (hk : Prog.Follows World.tables (Effect.Step A) w (k c)) :
    Prog.Follows World.tables (Effect.Step A) w
      (Prog.ofExcept (authedCaller (c.extensions kind)) >>= k) := hk

/-- A handler that checks something first. -/
lemma follows_check {α β : Type} {A : Tables → Effect → Prop} {r : Except AppError α}
    {k : α → Action AppError β}
    (hk : ∀ a, Prog.Follows World.tables (Effect.Step A) w (k a)) :
    Prog.Follows World.tables (Effect.Step A) w (Prog.ofExcept r >>= k) :=
  .ofExcept_bind fun a _ => hk a

/-- A handler that answers when the use case has returned. -/
lemma follows_answer {α β : Type} {A : Tables → Effect → Prop} {p : Action AppError α}
    {f : α → β} (hp : Prog.Follows World.tables (Effect.Step A) w p) :
    Prog.Follows World.tables (Effect.Step A) w (p >>= fun a => Prog.ret (f a)) :=
  .then_reads hp fun _ => Prog.Reads.ret

/-- A request for a guarded resource has permitted effects only. -/
lemma follows_serve {n : Names} {action : ResourceAction} :
    Prog.Follows World.tables (Effect.Step fun _ => action.Permits c n w.tables) w
      (action.serve (c.extensions kind) n) := by
  cases action with
  | createChannel req =>
    refine follows_answer (follows_caller (follows_check fun _ => follows_check fun _ =>
      follows_check fun _ => follows_answer (.mapErr ?_)))
    exact follows_createInboundChannel fun ch horg hname hdescription htype hactive =>
      ⟨horg, hname, hdescription, htype, hactive⟩
  | updateChannel req =>
    refine follows_answer (follows_caller (follows_check fun _ => follows_check fun _ =>
      follows_check fun _ => .mapErr ?_))
    exact follows_updateInboundChannel ⟨rfl, rfl, rfl, rfl, rfl, rfl⟩
  | deleteChannel =>
    refine follows_answer (follows_caller (follows_check fun _ => follows_check fun _ =>
      follows_answer (.mapErr ?_)))
    exact follows_deleteInboundChannel ⟨rfl, rfl⟩
  | putFeature slug value =>
    refine follows_answer (follows_caller (follows_check fun _ => follows_check fun _ =>
      .then_reads (.mapErr ?_) fun _ => ?_))
    · exact follows_setOrgFeature fun f horg hslug hvalue hby hmay => ⟨horg, hslug, hvalue, hby, hmay⟩
    · refine Prog.Reads.bind reads_listOrgFeatures.mapErr fun features => ?_
      cases features.find? (fun f => f.slug = slug) with
      | none => exact Prog.Reads.fail
      | some evaluated => exact Prog.Reads.ret
  | deleteFeature slug =>
    refine follows_answer (follows_caller (follows_check fun _ => follows_check fun _ =>
      follows_answer (.mapErr ?_)))
    exact follows_clearOrgFeature fun hmay => ⟨rfl, rfl, hmay⟩
  | createServiceAccount name description =>
    refine follows_answer (follows_check fun _ => follows_caller (follows_check fun _ =>
      follows_check fun _ => follows_answer (.mapErr ?_)))
    exact follows_createServiceAccount
      (fun u hname hemail hkind hhash => ⟨hkind, hhash, hname, hemail⟩)
      fun t sa horg hname hdescription hby hfresh => ⟨horg, hname, hdescription, hby, hfresh⟩
  | deleteServiceAccount =>
    refine follows_answer (follows_check fun _ => follows_caller (follows_check fun _ =>
      follows_answer (.mapErr ?_)))
    exact follows_deleteServiceAccount fun hhomed haccount => ⟨rfl, hhomed, haccount⟩
  | createApiKey req =>
    refine follows_answer (follows_check fun _ => follows_caller (follows_check fun _ =>
      follows_answer (.mapErr ?_)))
    exact follows_createApiKey fun k hhomed hnew hname hscopes hhash =>
      ⟨hhomed, hnew, hhash, hname, hscopes⟩
  | rotateApiKey req =>
    refine follows_answer (follows_check fun _ => follows_caller (follows_check fun _ =>
      follows_answer (.mapErr ?_)))
    exact follows_rotateApiKey (fun hhomed hheld _ => ⟨rfl, hhomed, hheld⟩)
      fun t k old hhomed hmem hid haccount hnew hname hscopes hhash =>
        ⟨hhomed, hnew, hhash, old, hmem, hid, haccount, hname, hscopes⟩
  | deleteApiKey =>
    refine follows_answer (follows_check fun _ => follows_caller (follows_check fun _ =>
      follows_answer (.mapErr ?_)))
    exact follows_revokeApiKey fun hhomed _ => ⟨rfl, rfl, hhomed⟩
  | listChannels q =>
    exact follows_answer (follows_caller (follows_check fun _ => follows_check fun _ =>
      follows_answer (.of_reads reads_listInboundChannels.mapErr)))
  | getChannel =>
    exact follows_answer (follows_caller (follows_check fun _ => follows_check fun _ =>
      .of_reads reads_getInboundChannel.mapErr))
  | listFeatures =>
    exact follows_answer (follows_caller (follows_check fun _ => follows_check fun _ =>
      .of_reads reads_listOrgFeatures.mapErr))
  | listServiceAccounts limit after =>
    refine follows_answer (follows_check fun _ => follows_caller (follows_check fun _ =>
      follows_check fun _ => follows_check fun _ => follows_answer ?_))
    exact .of_reads reads_listServiceAccounts.mapErr
  | getServiceAccount =>
    refine follows_answer (follows_check fun _ => follows_caller (follows_check fun _ =>
      .of_reads (Prog.Reads.bind (reads_query fun _ => rfl).mapErr fun found => ?_)))
    cases found with
    | none => exact Prog.Reads.fail
    | some sa => exact Prog.Reads.ret
  | listApiKeys =>
    exact follows_answer (follows_check fun _ => follows_caller (follows_check fun _ =>
      follows_answer (.of_reads reads_listApiKeys.mapErr)))
  | listUsers after limit named q => exact follows_answer (.of_reads reads_getListUsers)

/-- A handler has permitted effects only, for callers that its gate admits. -/
theorem follows_handler {config : JwtConfig} {route : Route} :
    Prog.Follows World.tables
      (Effect.Step fun t e => route.gate.Admits c kind ∧ route.Permits c w.tables w.now t e) w
      (route.handler config (c.extensions kind)) := by
  refine follows_gated guarded_handler fun hadmits => ?_
  cases route with
  | createOrganisation req =>
    refine follows_answer (follows_caller (follows_check fun _ => follows_check fun _ =>
      follows_answer (.mapErr ?_)))
    exact follows_createOrganisation (fun o hname hbusiness hop => ⟨hadmits, hname, hbusiness, hop⟩)
      fun t r huser hnew hcode => ⟨hadmits, huser, hnew, hcode⟩
  | assignRole org req =>
    refine follows_answer (follows_check fun _ => follows_caller (follows_check fun _ =>
      follows_answer (.mapErr ?_)))
    exact follows_assignRole fun r huser horg hcode hmember hactor =>
      ⟨hadmits, huser, horg, hcode, hmember, hactor⟩
  | addUser req =>
    refine follows_answer (follows_caller (follows_check fun _ => follows_answer (.mapErr ?_)))
    exact follows_addUserToOrganisation fun r huser horg hcode => ⟨hadmits, huser, horg, hcode⟩
  | removeUser req =>
    refine follows_answer (follows_caller (follows_check fun _ => follows_answer (.mapErr ?_)))
    exact follows_removeUserFromOrganisation ⟨hadmits, rfl, rfl⟩
  | register req =>
    refine follows_answer (follows_check fun _ => follows_caller (follows_check fun _ =>
      follows_answer (.mapErr ?_)))
    exact follows_registerUser
      (fun u hname hemail hkind hhash => ⟨hadmits, hname, hemail, hkind, hhash⟩)
      fun t r horg hnew hcode => ⟨hadmits, horg, hnew, hcode⟩
  | logout =>
    refine follows_answer (follows_check fun _ => follows_caller
      (.bind_reads reads_utcNow fun now t hnow _ => follows_answer (.mapErr ?_)))
    cases hnow
    exact follows_logout ⟨hadmits, rfl, rfl, rfl⟩
  | changePassword req =>
    refine follows_answer (follows_check fun _ => follows_caller (follows_answer (.mapErr ?_)))
    exact follows_changePassword fun hash now user hmem hid hverified hhash =>
      ⟨hadmits, rfl, hhash, user, hmem, hid, hverified⟩
  | switchOrg org => exact follows_answer (.of_reads reads_postSwitchOrg)
  | listMyOrganisations q => exact follows_answer (.of_reads reads_getListMyOrganisations)
  | listMembers org q => exact follows_answer (.of_reads reads_getListMembers)
  | definitions =>
    exact follows_answer (follows_check fun _ => .of_reads (reads_query fun _ => rfl).mapErr.mapErr)
  | resource n action => exact follows_answer (follows_serve.mono fun _ _ ⟨e, he, happly⟩ =>
      ⟨e, ⟨hadmits, he⟩, happly⟩)
  | getEcho | postEcho _ =>
    exact follows_answer (follows_check fun _ => follows_check fun _ =>
      .of_reads (Prog.Reads.bind reads_utcNow fun _ => Prog.Reads.ret))

end Handlers

/-! ## The operations keep to it -/

namespace OperationCall
variable [Platform] [Sha256] [AuditCursorText] {config : JwtConfig}

/-- The effects that an operation is permitted. -/
def Permits (x : OperationCall) (t : Tables) (e : Effect) : Prop := x.operation.Permits x.world t e

/-- What a request does to the tables is what its handler does. -/
lemma follows_request {w : World} {c : AuthedCaller} {kind : Caller} {req : Request} {route : Route}
    (hroute : req.route = some route)
    (hsame : (serve config ⟨w, .request c kind req⟩).tables =
      ((route.handler config (c.extensions kind)).run w).2.tables) :
    ReflTransGen (Effect.Step (Permits ⟨w, .request c kind req⟩)) w.tables
      (serve config ⟨w, .request c kind req⟩).tables := by
  rw [hsame]
  refine follows_handler.mono fun _ _ ⟨e, ⟨hadmits, he⟩, happly⟩ => ?_
  exact ⟨e, ⟨route, hroute, hadmits, he⟩, happly⟩

/-- An operation has permitted effects only. -/
theorem serve_follows {x : OperationCall} :
    ReflTransGen (Effect.Step x.Permits) x.world.tables (x.serve config).tables := by
  obtain ⟨w, operation⟩ := x
  have hanswer : ∀ {α : Type} {p : Action AppError α} {reply : α → Reply},
      (p.run w).2.tables = ((replying p reply).run w).2.tables :=
    (Prog.Reads.after_bind fun _ => Prog.Reads.ret).symm
  cases operation with
  | request c kind req =>
    cases req with
    | createOrganisation req => exact follows_request rfl hanswer
    | addUser req => exact follows_request rfl hanswer
    | assignRole orgId req => exact follows_request rfl hanswer
    | removeUser req => exact follows_request rfl hanswer
    | register req => exact follows_request rfl hanswer
    | resource n action => exact follows_request rfl hanswer
    | listMyOrganisations q => exact follows_request rfl hanswer
    | listMembers orgId q => exact follows_request rfl hanswer
    | listDefinitions =>
      exact Prog.Follows.of_reads (p := listDefinitions) (reads_query fun _ => rfl).mapErr
    | listAuditEvents req =>
      exact Prog.Follows.of_reads (p := listAuditEvents req _ _) reads_listAuditEvents
    | changePassword req => exact follows_request rfl hanswer
    | switchOrg orgId => exact follows_request rfl hanswer
    | logout => exact follows_request rfl hanswer
  | call headers => exact Prog.Follows.of_reads (p := Egras.call config headers) reads_call
  | login req =>
    have hlogin : Prog.Follows World.tables (Effect.Step (Permits ⟨w, .login req⟩)) w
        (login config req) := follows_login fun hash now user hmem hnamed hverified hhash =>
      ⟨hhash, user, hmem, rfl, hnamed, hverified⟩
    exact hlogin.mapErr
  | passwordResetRequest ttlSecs req =>
    refine follows_answer (follows_passwordResetRequest (fun user hmem hnamed now => ?_)
      fun t p user hmem hnamed huser hhash hexpires hused => ?_).mapErr
    · exact ⟨user, hmem, rfl, hnamed⟩
    · exact ⟨hused, hhash, hexpires, user, hmem, huser.symm, hnamed⟩
  | passwordResetConfirm req =>
    refine follows_answer (follows_passwordResetConfirm
      (fun hash now p hmem hpresented hused hlive hhash => ?_) fun t now p hmem hpresented => ?_).mapErr
    · exact ⟨hhash, p, hmem, rfl, hpresented, hused, hlive⟩
    · exact ⟨p, hmem, rfl, hpresented⟩
  | touchLastUsed task => exact follows_touchLastUsed (fun _ _ => rfl) fun _ _ => rfl
  | insertAuditEvent event => exact follows_returning (e := .addEvent event) rfl rfl
  | bootstrapSeedAdmin input =>
    refine follows_bootstrapSeedAdmin (fun u hname hemail hkind hhash => ?_)
      (fun t r hnew horg hcode => ?_)
      fun t user org e huser hfresh hname hemail horg hoperator he => ?_
    · exact ⟨hname, hemail, hkind, hhash⟩
    · exact ⟨hnew, hcode, horg⟩
    · exact ⟨user, huser, org, horg, hfresh, hname, hemail, hoperator, he⟩

end OperationCall
end Egras
