import Egras.Audit.Listing
import Egras.Auth.Soundness
import Egras.Resources.Outcome
import Egras.Security.Bootstrap
import Egras.Security.Passwords
import Egras.Security.Revocation
import Egras.Tenants.Listings

/-!
# Everything the service does on its database

The requests of an authenticated caller, the requests that need no caller, authentication itself,
the task that an API key starts, the audit writer and the bootstrap as one family (`Operation`), each
in a world of its own (`OperationCall`), with one step over the tables and the clock
(`OperationCall.Step`). The operations that only read are shown to.
-/

namespace Egras
open Lib

/-! ## Operations that only read -/

section Reading
variable {τ : Type} {V : World → τ} [Blind V]

/-- Listing events leaves blind views alone. -/
lemma reads_listAuditEvents [AuditCursorText] {req : ListAuditEventsRequest} {org : Uuid}
    {perms : PermissionSet} : Prog.Reads V (listAuditEvents req org perms) := by
  refine Prog.Reads.bind Prog.Reads.ofExcept fun org => Prog.Reads.bind Prog.Reads.ofExcept ?_
  intro cursor
  refine Prog.Reads.bind (Prog.Reads.mapErr ?_) fun page => Prog.Reads.ret
  exact Prog.Reads.bind (reads_query Blind.tick) fun rows => Prog.Reads.ret

section Listings
variable [CursorText] {ext : Extensions}

/-- Listing organisations leaves blind views alone. -/
lemma reads_listMyOrganisations {caller : Uuid} {input : ListMyOrganisationsInput} :
    Prog.Reads V (listMyOrganisations caller input) := by
  refine Prog.Reads.bind Prog.Reads.ofExcept fun cursor => ?_
  refine Prog.Reads.bind (reads_query Blind.tick).mapErr.mapErr fun rows => ?_
  split <;> exact Prog.Reads.ret

/-- The handler of the organisation listing leaves blind views alone. -/
lemma reads_getListMyOrganisations {q : ListQuery} :
    Prog.Reads V (getListMyOrganisations ext q) :=
  Prog.Reads.bind Prog.Reads.ofExcept fun _ =>
    Prog.Reads.bind reads_listMyOrganisations.mapErr fun _ => Prog.Reads.ret

/-- Listing members leaves blind views alone. -/
lemma reads_listOrganisationMembers {caller : Uuid} {isOperator : Bool} {input : ListMembersInput} :
    Prog.Reads V (listOrganisationMembers caller isOperator input) := by
  refine Prog.Reads.bind Prog.Reads.ofExcept fun cursor => ?_
  have hrows : ∀ limit : ℕ, Prog.Reads V (do
      let rows ← (listMembers input.organisationId cursor (limit + 1)).mapErr ListMembersError.repo
      if limit < rows.length then
        let rows := rows.take limit
        return ⟨rows.map MemberSummary.toDto,
          rows.getLast?.map (fun last => CursorText.encodeUserCursor ⟨last.joinedAt, last.userId⟩)⟩
      else return ⟨rows.map MemberSummary.toDto, none⟩ :
        Action ListMembersError ListMembersOutput) := by
    intro limit
    refine Prog.Reads.bind (reads_query Blind.tick).mapErr.mapErr fun rows => ?_
    split <;> exact Prog.Reads.ret
  cases isOperator with
  | true => exact hrows _
  | false =>
    refine Prog.Reads.bind (reads_query Blind.tick).mapErr.mapErr fun member => ?_
    exact Prog.Reads.bind reads_require fun _ => hrows _

/-- The handler of the member listing leaves blind views alone. -/
lemma reads_getListMembers {orgId : Uuid} {q : ListQuery} :
    Prog.Reads V (getListMembers ext orgId q) :=
  Prog.Reads.bind Prog.Reads.ofExcept fun _ => Prog.Reads.bind Prog.Reads.ofExcept fun _ =>
    Prog.Reads.bind reads_listOrganisationMembers.mapErr fun _ => Prog.Reads.ret

end Listings

/-- Authentication leaves blind views alone. -/
lemma reads_call [Argon2] [JsonWebToken] {config : JwtConfig} {headers : Headers} :
    Prog.Reads V (call config headers) := by
  obtain ⟨_, _, h⟩ | ⟨_, _, _, _, _, h⟩ | ⟨_, _, _, h⟩ := call_cases config headers
  · rw [h]
    exact Prog.Reads.fail
  · rw [h]
    exact reads_handleApiKey
  · rw [h]
    exact reads_handleJwt

end Reading

/-! ## Logout -/

/-- The row that a logout at an instant stores for an access token. -/
def Claims.revocation (claims : Claims) (now : Timestamp) : RevokedToken :=
  ⟨claims.jti, claims.sub, (fromTimestamp claims.exp).getD now⟩

section Logout
variable {c : AuthedCaller} {kind : Caller} {w v : World} {code : ℕ}

/-- What a logout that returns tells. -/
lemma postLogout_eq_ok (h : (postLogout (c.extensions kind)).run w = (.ok code, v)) :
    w.tables.insertRevokedToken (c.claims.revocation w.now) = .ok v.tables ∧ v.now = w.now := by
  unfold postLogout at h
  rw [run_requireHumanCaller_bind] at h
  split at h
  · rw [run_authedCaller_bind] at h
    obtain ⟨now, w₁, hnow, h₁⟩ := Prog.bind_eq_ok h
    cases hnow
    obtain ⟨_, w₂, hlogout, hreturn⟩ := Prog.bind_eq_ok h₁
    cases hreturn
    obtain ⟨_, w₃, hrevoke, hrecord⟩ := Prog.bind_eq_ok (Prog.mapErr_eq_ok hlogout)
    obtain ⟨t, heffect, rfl, -⟩ := execute_eq_ok (Prog.mapErr_eq_ok hrevoke)
    cases hrecord
    exact ⟨(return_eq_ok.mp heffect).1, rfl⟩
  · cases h

/-- A logout that fails revokes nothing. -/
lemma atomic_postLogout : Prog.Atomic World.tables (postLogout (c.extensions kind)) := by
  refine Prog.Atomic.bind_right Prog.Reads.ofExcept fun _ => ?_
  refine Prog.Atomic.bind_right Prog.Reads.ofExcept fun caller => ?_
  refine Prog.Atomic.bind_right reads_utcNow fun now => ?_
  refine Prog.Atomic.bind_left (Prog.Atomic.mapErr ?_) fun _ => Prog.FailsIn.ret
  exact Prog.Atomic.bind_left (Prog.Atomic.mapErr atomic_execute) fun _ => record_failsIn

end Logout

/-! ## Operations -/

/-- A request of an authenticated caller. -/
inductive Request
  | createOrganisation (req : CreateOrganisationRequest)
  | addUser (req : AddUserToOrganisationRequest)
  | assignRole (orgId : Uuid) (req : AssignRoleRequest)
  | removeUser (req : RemoveUserFromOrganisationRequest)
  | register (req : RegisterRequest)
  | resource (n : Names) (action : ResourceAction)
  | listMyOrganisations (q : ListQuery)
  | listMembers (orgId : Uuid) (q : ListQuery)
  | listDefinitions
  | listAuditEvents (req : ListAuditEventsRequest)
  | changePassword (req : ChangePasswordInput)
  | switchOrg (orgId : Uuid)
  | logout

/-- What the service does on its database. -/
inductive Operation
  | request (caller : AuthedCaller) (kind : Caller) (req : Request)
  | call (headers : Headers)
  | login (req : LoginInput)
  | passwordResetRequest (ttlSecs : Int) (req : PasswordResetRequestInput)
  | passwordResetConfirm (req : PasswordResetConfirmInput)
  | touchLastUsed (task : TouchTask)
  | insertAuditEvent (event : AuditEvent)
  | bootstrapSeedAdmin (input : SeedAdminInput)

/-- The tables at an instant. -/
structure Instant where
  tables : Tables
  now : Timestamp

/-- An operation with the world that it runs in. -/
structure OperationCall where
  world : World
  operation : Operation

namespace OperationCall
variable {x : OperationCall} {u : Uuid}

/-- The operation deletes the service account of a user. -/
def Deletes (x : OperationCall) (u : Uuid) : Prop :=
  match x.operation with
  | .request c kind (.resource n .deleteServiceAccount) =>
    RosterCall.Deletes ⟨x.world, c, kind, .deleteServiceAccount n.serviceAccount⟩ u
  | _ => False

section Serve
variable [Platform] [Sha256] [AuditCursorText]

/-- The world after an operation. -/
def serve (config : JwtConfig) (x : OperationCall) : World :=
  match x.operation with
  | .request c kind (.createOrganisation req) =>
    ((postCreateOrganisation (c.extensions kind) req).run x.world).2
  | .request c kind (.addUser req) =>
    ((postAddUserToOrganisation (c.extensions kind) req).run x.world).2
  | .request c kind (.assignRole orgId req) =>
    ((postAssignRole (c.extensions kind) orgId req).run x.world).2
  | .request c kind (.removeUser req) =>
    ((postRemoveUserFromOrganisation (c.extensions kind) req).run x.world).2
  | .request c kind (.register req) => ((postRegister (c.extensions kind) req).run x.world).2
  | .request c kind (.resource n action) =>
    ((action.serve (c.extensions kind) n).run x.world).2
  | .request c kind (.listMyOrganisations q) =>
    ((getListMyOrganisations (c.extensions kind) q).run x.world).2
  | .request c kind (.listMembers orgId q) =>
    ((getListMembers (c.extensions kind) orgId q).run x.world).2
  | .request _ _ .listDefinitions => (listDefinitions.run x.world).2
  | .request c _ (.listAuditEvents req) =>
    ((listAuditEvents req c.claims.org c.permissions).run x.world).2
  | .request c kind (.changePassword req) =>
    ((postChangePassword (c.extensions kind) req).run x.world).2
  | .request c kind (.switchOrg orgId) =>
    ((postSwitchOrg config (c.extensions kind) orgId).run x.world).2
  | .request c kind .logout => ((postLogout (c.extensions kind)).run x.world).2
  | .call headers => ((Egras.call config headers).run x.world).2
  | .login req => ((postLogin config req).run x.world).2
  | .passwordResetRequest ttlSecs req =>
    ((postPasswordResetRequest ttlSecs req).run x.world).2
  | .passwordResetConfirm req => ((postPasswordResetConfirm req).run x.world).2
  | .touchLastUsed task => ((Egras.touchLastUsed task).run x.world).2
  | .insertAuditEvent event => ((Egras.insertAuditEvent event).run x.world).2
  | .bootstrapSeedAdmin input => ((Egras.bootstrapSeedAdmin input).run x.world).2

/-- An operation at an instant that is no earlier than the one before; the rest of its world is
supplied anew. -/
structure Step (config : JwtConfig) (i : Instant) (x : OperationCall) (j : Instant) : Prop where
  pre : x.world.tables = i.tables
  later : i.now ≤ x.world.now
  post : (x.serve config).tables = j.tables
  now : j.now = x.world.now

end Serve

end OperationCall
end Egras
