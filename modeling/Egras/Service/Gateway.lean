import Egras.Security.Sentinel
import Egras.Service.Ledger

/-!
# The protected routes

Every route that `build_app` puts behind `AuthLayer`, from the headers of a request to its answer:
`call` decides about the credential, and the handler of the route runs with the extensions that it
returns (`respond`). The matching of paths and the parsing of bodies, queries and path parameters
are axum's; a `Route` carries what they yield.

`Route.gate` lists what each route asks of its caller. `respond_authorised` says that a request that
is answered with success, changes the tables or reaches the audit channel was made by somebody who
passes the gate: with a valid credential, and with the permissions that the roles of that user grant
in the tables at that moment, within the scopes of the key.
-/

namespace Egras
open Lib

/-! ## Routes and their handlers -/

/-- A protected route with what the request hands to its handler. -/
inductive Route
  | createOrganisation (req : CreateOrganisationRequest)
  | listMyOrganisations (q : ListQuery)
  | listMembers (orgId : Uuid) (q : ListQuery)
  | assignRole (orgId : Uuid) (req : AssignRoleRequest)
  | addUser (req : AddUserToOrganisationRequest)
  | removeUser (req : RemoveUserFromOrganisationRequest)
  | register (req : RegisterRequest)
  | logout
  | changePassword (req : ChangePasswordInput)
  | switchOrg (orgId : Uuid)
  | definitions
  | resource (n : Names) (action : ResourceAction)
  | getEcho
  | postEcho (body : Option Value)

/-- The answers of the protected routes. -/
inductive Reply
  | organisation (body : OrganisationBody)
  | organisations (body : PagedOrganisations)
  | members (body : PagedMembers)
  | assigned (body : AssignRoleResponseBody)
  | registered (userId : Uuid)
  | token (token : String)
  | definitions (body : List FeatureDefinition)
  | resource (body : ResourceReply)
  | echo (body : EchoResponse)
  | status (code : ℕ)
deriving DecidableEq

/-- A handler with its answer as one of the answers. -/
def replying {α : Type} (p : Action AppError α) (reply : α → Reply) : Action AppError Reply := do
  let a ← p
  return reply a

section Handler
variable [Platform]

/-- The handler of a route. -/
def Route.handler (config : JwtConfig) (ext : Extensions) : Route → Action AppError Reply
  | createOrganisation req => replying (postCreateOrganisation ext req) (.organisation ·.2)
  | listMyOrganisations q => replying (getListMyOrganisations ext q) .organisations
  | listMembers orgId q => replying (getListMembers ext orgId q) .members
  | assignRole orgId req => replying (postAssignRole ext orgId req) (.assigned ·.2)
  | addUser req => replying (postAddUserToOrganisation ext req) .status
  | removeUser req => replying (postRemoveUserFromOrganisation ext req) .status
  | register req => replying (postRegister ext req) (.registered ·.2)
  | logout => replying (postLogout ext) .status
  | changePassword req => replying (postChangePassword ext req) .status
  | switchOrg orgId => replying (postSwitchOrg config ext orgId) .token
  | definitions => replying (getDefinitions ext) .definitions
  | resource n action => replying (action.serve ext n) .resource
  | getEcho => replying (Egras.getEcho ext) .echo
  | postEcho body => replying (Egras.postEcho ext body) .echo

/-- A protected request, from its headers to its answer. -/
def respond (config : JwtConfig) (headers : Headers) (route : Route) : Action Rejection Reply := do
  let ext ← call config headers
  (route.handler config ext).mapErr .app

end Handler

/-! ## Gates -/

/-- What a route asks of its caller: to be human, to hold one of some permissions, and to belong to
the organisation of the request unless it operates on all tenants. -/
structure Gate where
  human : Bool
  anyOf : Option (List String)
  organisation : Option Uuid
deriving DecidableEq

/-- The gate of a request for a guarded resource. -/
def ResourceAction.gate (n : Names) : ResourceAction → Gate
  | createChannel _ | listChannels _ | getChannel | updateChannel _ | deleteChannel =>
    ⟨false, some ["channels.manage", "tenants.manage_all"], some n.organisation⟩
  | listFeatures => ⟨false, some ["features.read", "tenants.manage_all"], some n.organisation⟩
  | putFeature _ _ | deleteFeature _ =>
    ⟨false, some ["features.manage", "tenants.manage_all"], some n.organisation⟩
  | createServiceAccount _ _ =>
    ⟨true, some ["service_accounts.manage", "tenants.manage_all"], some n.organisation⟩
  | listServiceAccounts _ _ =>
    ⟨true, some ["service_accounts.read", "service_accounts.manage", "tenants.manage_all"],
      some n.organisation⟩
  | getServiceAccount | listApiKeys =>
    ⟨true, some ["service_accounts.read", "service_accounts.manage", "tenants.manage_all"], none⟩
  | deleteServiceAccount | createApiKey _ | deleteApiKey | rotateApiKey _ =>
    ⟨true, some ["service_accounts.manage", "tenants.manage_all"], none⟩
  | listUsers _ _ _ _ => ⟨false, some ["tenants.members.list", "users.manage_all"], none⟩

/-- The gate of a route. -/
def Route.gate : Route → Gate
  | createOrganisation _ => ⟨false, some ["tenants.create"], none⟩
  | listMyOrganisations _ => ⟨false, none, none⟩
  | listMembers _ _ => ⟨false, some ["tenants.members.list", "tenants.manage_all"], none⟩
  | assignRole _ _ => ⟨false, some ["tenants.roles.assign", "tenants.manage_all"], none⟩
  | addUser _ => ⟨false, some ["tenants.members.add", "tenants.manage_all"], none⟩
  | removeUser _ => ⟨false, some ["tenants.members.remove", "tenants.manage_all"], none⟩
  | register _ => ⟨true, some ["tenants.members.add", "tenants.manage_all"], none⟩
  | logout | changePassword _ | switchOrg _ => ⟨true, none, none⟩
  | definitions => ⟨false, some ["tenants.manage_all"], none⟩
  | resource n action => action.gate n
  | getEcho | postEcho _ => ⟨false, some ["echo:invoke"], none⟩

/-- A caller passes a gate with the permissions that its request carries. -/
structure Gate.Admits (g : Gate) (c : AuthedCaller) (kind : Caller) : Prop where
  human : g.human = true → kind.isHuman = true
  permitted : ∀ codes, g.anyOf = some codes → ∃ code ∈ codes, code ∈ c.permissions.codes
  own : ∀ org, g.organisation = some org →
    org = c.claims.org ∨ "tenants.manage_all" ∈ c.permissions.codes

/-- How a gate turns a caller away. -/
def AppError.IsRefusal (e : AppError) : Prop := e.httpStatus = 403 ∨ e = .notFound "organisation"

/-- Unless `P` holds, `p` refuses the caller before it does anything. -/
def GuardedBy {α : Type} (P : Prop) (p : Action AppError α) : Prop :=
  ¬ P → ∀ w, ∃ e, AppError.IsRefusal e ∧ p.run w = (.error e, w)

section GuardedBy
variable {α : Type} {c : AuthedCaller} {kind : Caller} {P : Prop}

/-- What holds guards everything. -/
lemma guarded_of (h : P) {p : Action AppError α} : GuardedBy P p := fun hnot => absurd h hnot

/-- Behind the gate for humans the caller is one. -/
lemma guarded_human {k : Unit → Action AppError α}
    (hk : kind.isHuman = true → GuardedBy P (k ())) :
    GuardedBy P (Prog.ofExcept (requireHumanCaller (c.extensions kind)) >>= k) := by
  intro hP w
  rw [run_requireHumanCaller_bind]
  split
  · exact hk ‹_› hP w
  · exact ⟨_, Or.inl rfl, rfl⟩

/-- The caller of the request is the one that is known. -/
lemma guarded_caller {k : AuthedCaller → Action AppError α} (hk : GuardedBy P (k c)) :
    GuardedBy P (Prog.ofExcept (authedCaller (c.extensions kind)) >>= k) := hk

/-- Behind the gate of a permission the caller has it. -/
lemma guarded_perm {p : Permission} {k : Unit → Action AppError α}
    (hk : p.accepts c.permissions = true → GuardedBy P (k ())) :
    GuardedBy P (Prog.ofExcept (perm p (c.extensions kind)) >>= k) := by
  intro hP w
  rw [run_perm_bind]
  split
  · exact hk ‹_› hP w
  · exact ⟨_, Or.inl rfl, rfl⟩

/-- Behind the gate of the own organisation the caller may name it. -/
lemma guarded_own {orgId : Uuid} {k : Unit → Action AppError α}
    (hk : c.mayName orgId = true → GuardedBy P (k ())) :
    GuardedBy P (Prog.ofExcept (requireOwnOrganisation c orgId) >>= k) := by
  intro hP w
  rw [run_requireOwnOrganisation_bind]
  split
  · exact hk ‹_› hP w
  · exact ⟨_, Or.inr rfl, rfl⟩

/-- What is made of the answer does not matter. -/
lemma GuardedBy.bind {β : Type} {p : Action AppError α} {k : α → Action AppError β}
    (hp : GuardedBy P p) : GuardedBy P (p >>= k) := by
  intro hP w
  obtain ⟨e, he, hrun⟩ := hp hP w
  exact ⟨e, he, by rw [Prog.run_bind, hrun]⟩

end GuardedBy

section Accepts
variable {s : PermissionSet} {code : String}

/-- A direct permission is one code. -/
lemma accepts_direct (h : (Permission.direct code).accepts s = true) :
    ∃ c ∈ [code], c ∈ s.codes := ⟨code, by simp, PermissionSet.has_iff.mp h⟩

/-- A permission that operators have too is one of two codes. -/
lemma accepts_orOperator (h : (Permission.orOperator code).accepts s = true) :
    ∃ c ∈ [code, "tenants.manage_all"], c ∈ s.codes := by
  rcases (Bool.or_eq_true _ _).mp h with h | h
  · exact ⟨code, by simp, PermissionSet.has_iff.mp h⟩
  · exact ⟨_, by simp, PermissionSet.has_iff.mp h⟩

/-- Service accounts are read with one of three codes. -/
lemma accepts_serviceAccountsRead (h : Permission.serviceAccountsRead.accepts s = true) :
    ∃ c ∈ ["service_accounts.read", "service_accounts.manage", "tenants.manage_all"],
      c ∈ s.codes := by
  rcases (Bool.or_eq_true _ _).mp h with h | h
  · rcases (Bool.or_eq_true _ _).mp h with h | h
    · exact ⟨_, by simp, PermissionSet.has_iff.mp h⟩
    · exact ⟨_, by simp, PermissionSet.has_iff.mp h⟩
  · exact ⟨_, by simp, PermissionSet.has_iff.mp h⟩

/-- Users are read with one of two codes. -/
lemma accepts_usersRead (h : Permission.usersRead.accepts s = true) :
    ∃ c ∈ ["tenants.members.list", "users.manage_all"], c ∈ s.codes := by
  rcases (Bool.or_eq_true _ _).mp h with h | h
  · exact ⟨_, by simp, PermissionSet.has_iff.mp h⟩
  · exact ⟨_, by simp, PermissionSet.has_iff.mp h⟩

/-- Whoever may name an organisation is of it or an operator. -/
lemma own_of_mayName {c : AuthedCaller} {orgId : Uuid} (h : c.mayName orgId = true) :
    orgId = c.claims.org ∨ "tenants.manage_all" ∈ c.permissions.codes := by
  rcases (Bool.or_eq_true _ _).mp h with h | h
  · exact Or.inr (PermissionSet.has_iff.mp h)
  · exact Or.inl (of_decide_eq_true h).symm

/-- A gate that asks for permissions only. -/
lemma admits_permitted {c : AuthedCaller} {kind : Caller} {codes : List String}
    (h : ∃ code ∈ codes, code ∈ c.permissions.codes) :
    (⟨false, some codes, none⟩ : Gate).Admits c kind :=
  ⟨fun hfalse => (by cases hfalse), fun _ hcodes => by cases hcodes; exact h, fun _ h => by cases h⟩

/-- A gate for human callers with permissions. -/
lemma admits_human {c : AuthedCaller} {kind : Caller} {codes : List String}
    (hhuman : kind.isHuman = true) (h : ∃ code ∈ codes, code ∈ c.permissions.codes) :
    (⟨true, some codes, none⟩ : Gate).Admits c kind :=
  ⟨fun _ => hhuman, fun _ hcodes => by cases hcodes; exact h, fun _ h => by cases h⟩

/-- A gate for the callers of an organisation. -/
lemma Gate.Admits.of_own {c : AuthedCaller} {kind : Caller} {human : Bool}
    {anyOf : Option (List String)} {orgId : Uuid}
    (h : (⟨human, anyOf, none⟩ : Gate).Admits c kind) (hmay : c.mayName orgId = true) :
    (⟨human, anyOf, some orgId⟩ : Gate).Admits c kind :=
  ⟨h.human, h.permitted, fun _ horg => by cases horg; exact own_of_mayName hmay⟩

end Accepts

section Handlers
variable [Platform] {c : AuthedCaller} {kind : Caller}

/-- A request for a guarded resource is refused by its gate. -/
lemma guarded_serve {n : Names} {action : ResourceAction} :
    GuardedBy ((action.gate n).Admits c kind) (action.serve (c.extensions kind) n) := by
  cases action with
  | createChannel _ | listChannels _ | getChannel | updateChannel _ | deleteChannel =>
    refine .bind (guarded_caller (guarded_perm fun hperm => guarded_own fun hmay => guarded_of ?_))
    exact (admits_permitted (accepts_orOperator hperm)).of_own hmay
  | listFeatures | putFeature _ _ | deleteFeature _ =>
    refine .bind (guarded_caller (guarded_perm fun hperm => guarded_own fun hmay => guarded_of ?_))
    exact (admits_permitted (accepts_orOperator hperm)).of_own hmay
  | createServiceAccount _ _ =>
    refine .bind (guarded_human fun hhuman => guarded_caller (guarded_perm fun hperm =>
      guarded_own fun hmay => guarded_of ?_))
    exact (admits_human hhuman (accepts_orOperator hperm)).of_own hmay
  | listServiceAccounts _ _ =>
    refine .bind (guarded_human fun hhuman => guarded_caller (guarded_perm fun hperm =>
      guarded_own fun hmay => guarded_of ?_))
    exact (admits_human hhuman (accepts_serviceAccountsRead hperm)).of_own hmay
  | getServiceAccount | listApiKeys =>
    refine .bind (guarded_human fun hhuman => guarded_caller (guarded_perm fun hperm =>
      guarded_of ?_))
    exact admits_human hhuman (accepts_serviceAccountsRead hperm)
  | deleteServiceAccount | createApiKey _ | deleteApiKey | rotateApiKey _ =>
    refine .bind (guarded_human fun hhuman => guarded_caller (guarded_perm fun hperm =>
      guarded_of ?_))
    exact admits_human hhuman (accepts_orOperator hperm)
  | listUsers _ _ _ _ =>
    refine .bind (guarded_caller (guarded_perm fun hperm => guarded_of ?_))
    exact admits_permitted (accepts_usersRead hperm)

/-- A handler refuses the callers that its gate does not admit, before it does anything. -/
theorem guarded_handler {config : JwtConfig} {route : Route} :
    GuardedBy (route.gate.Admits c kind) (route.handler config (c.extensions kind)) := by
  cases route with
  | createOrganisation _ =>
    refine .bind (guarded_caller (guarded_perm fun hperm => guarded_of ?_))
    exact admits_permitted (accepts_direct hperm)
  | listMyOrganisations _ => exact guarded_of (by constructor <;> simp [Route.gate])
  | addUser _ | removeUser _ =>
    refine .bind (guarded_caller (guarded_perm fun hperm => guarded_of ?_))
    exact admits_permitted (accepts_orOperator hperm)
  | listMembers _ _ | assignRole _ _ =>
    refine .bind (guarded_perm fun hperm => guarded_of ?_)
    exact admits_permitted (accepts_orOperator hperm)
  | register _ =>
    refine .bind (guarded_human fun hhuman => guarded_caller (guarded_perm fun hperm =>
      guarded_of ?_))
    exact admits_human hhuman (accepts_orOperator hperm)
  | logout | changePassword _ | switchOrg _ =>
    refine .bind (guarded_human fun hhuman => guarded_of ?_)
    exact ⟨fun _ => hhuman, by simp [Route.gate], by simp [Route.gate]⟩
  | definitions =>
    refine .bind (guarded_perm fun hperm => guarded_of ?_)
    exact admits_permitted (accepts_direct hperm)
  | resource n action => exact .bind guarded_serve
  | getEcho | postEcho _ =>
    refine .bind (guarded_perm fun hperm => guarded_of ?_)
    exact admits_permitted (accepts_direct hperm)

end Handlers

/-! ## Who is behind a request -/

/-- The user behind a credential, in the organisation that the credential is for. -/
structure Principal where
  kind : Caller
  user : Uuid
  organisation : Uuid
  scopes : Option (List String)

/-- A permission that the roles of a principal grant and the scopes of its key, if it uses one, let
through. -/
def Principal.Entitled (p : Principal) (t : Tables) (code : String) : Prop :=
  t.Holds p.user p.organisation code ∧ ∀ scopes, p.scopes = some scopes → code ∈ scopes

/-- A request carries a valid credential of a principal: a token that is no key, decodes and is not
revoked, or a stored key that is active, in a header that the organisation of its service account allows. -/
inductive Principal.Presented [Argon2] [JsonWebToken] (config : JwtConfig) (headers : Headers)
    (w : World) : Principal → Prop
  | token {token : String} {claims : Claims}
      (carried : headers.credential = some (token, .authorizationBearer))
      (noKey : ParsedKey.parse token = none)
      (decoded : decodeAccessToken config.secret config.issuer token w.now = some claims)
      (notRevoked : w.tables.revoked claims.jti w.now = false) :
      Presented config headers w
        ⟨.user claims.sub claims.org claims.jti, claims.sub, claims.org, none⟩
  | key {plaintext : String} {source : HeaderSource} {parsed : ParsedKey} {k : ApiKeyRecord}
      {sa : ServiceAccount} {entries : List Value}
      (carried : headers.credential = some (plaintext, source))
      (parses : ParsedKey.parse plaintext = some parsed)
      (stored : k ∈ w.tables.apiKeys)
      (found : k.keyPrefix = parsed.keyPrefix)
      (active : k.revokedAt = none)
      (verified : Argon2.verifyPassword parsed.secret k.secretHash = some true)
      (account : sa ∈ w.tables.serviceAccounts)
      (owner : k.serviceAccountUserId = sa.userId)
      (allows : w.evaluated sa.organisationId "auth.api_key_headers" = some (.array entries))
      (allowed : .string source.slug ∈ entries) :
      Presented config headers w
        ⟨.apiKey k.id sa.userId sa.organisationId, sa.userId, sa.organisationId, k.scopes⟩

/-- What the extensions of a request say about its caller is true of a principal. -/
structure AuthedCaller.Represents (c : AuthedCaller) (p : Principal) (t : Tables) : Prop where
  user : c.claims.sub = p.user
  organisation : c.claims.org = p.organisation
  session : ∀ userId organisationId jti, p.kind = .user userId organisationId jti → c.claims.jti = jti
  permissions : ∀ code, code ∈ c.permissions.codes ↔ p.Entitled t code

/-- A principal passes a gate with what it is entitled to. -/
structure Gate.Passes (g : Gate) (p : Principal) (t : Tables) : Prop where
  human : g.human = true → p.kind.isHuman = true
  permitted : ∀ codes, g.anyOf = some codes → ∃ code ∈ codes, p.Entitled t code
  own : ∀ org, g.organisation = some org →
    org = p.organisation ∨ p.Entitled t "tenants.manage_all"

/-- A gate that admits a caller lets its principal pass. -/
lemma Gate.Admits.passes {g : Gate} {c : AuthedCaller} {p : Principal} {t : Tables}
    (hc : c.Represents p t) (h : g.Admits c p.kind) : g.Passes p t where
  human := h.human
  permitted codes hcodes := by
    obtain ⟨code, hmem, hcode⟩ := h.permitted codes hcodes
    exact ⟨code, hmem, (hc.permissions code).mp hcode⟩
  own org horg := by
    refine (h.own org horg).imp (fun he => he.trans hc.organisation) fun hall => ?_
    exact (hc.permissions _).mp hall

section Respond
variable [Platform] {config : JwtConfig} {headers : Headers} {w v : World}

/-- A request that is admitted carries a valid credential, and its extensions are those of the
principal behind it. -/
lemma call_presents {ext : Extensions} (h : (call config headers).run w = (.ok ext, v)) :
    ∃ p c, Principal.Presented config headers w p ∧ AuthedCaller.Represents c p w.tables ∧
      ext = c.extensions p.kind := by
  obtain ⟨r, -, hcall⟩ | ⟨plaintext, source, parsed, hcarried, hparses, hcall⟩ |
    ⟨token, hcarried, hnoKey, hcall⟩ := call_cases config headers
  · rw [hcall] at h
    cases h
  · rw [hcall] at h
    obtain ⟨k, sa, hadmits, -⟩ := handleApiKey_eq_ok h
    obtain ⟨perms, hperms, hcodes⟩ := hadmits.permissions_eq
    obtain ⟨claims, hclaims, hsub, horg, -⟩ := hadmits.claims_eq
    obtain ⟨entries, hallows, hallowed⟩ := hadmits.allowed
    refine ⟨_, ⟨claims, perms⟩, .key hcarried hparses hadmits.stored hadmits.prefix_eq
      hadmits.active hadmits.verified hadmits.account hadmits.owner hallows hallowed,
      ⟨hsub, horg, fun _ _ _ hkind => (by cases hkind), hcodes⟩, ?_⟩
    cases ext
    simp only [AuthedCaller.extensions, Extensions.mk.injEq]
    exact ⟨hclaims, hperms, hadmits.caller_eq⟩
  · rw [hcall] at h
    obtain ⟨claims, hadmits, -⟩ := handleJwt_eq_ok h
    obtain ⟨perms, hperms, hcodes⟩ := hadmits.permissions_eq
    refine ⟨_, ⟨claims, perms⟩, .token hcarried hnoKey hadmits.decoded hadmits.notRevoked,
      ⟨rfl, rfl, fun _ _ _ hkind => (by cases hkind; rfl), fun code => ?_⟩, ?_⟩
    · rw [hcodes]
      exact (and_iff_left fun _ he => by cases he).symm
    · cases ext
      simp only [AuthedCaller.extensions, Extensions.mk.injEq]
      exact ⟨hadmits.claims_eq, hperms, hadmits.caller_eq⟩

/-- A protected request is rejected, which leaves no trace, or its handler runs for the principal
behind it. -/
lemma respond_cases {route : Route} {r : Except Rejection Reply}
    (h : (respond config headers route).run w = (r, v)) :
    ((∃ e, r = .error e) ∧ v.ledger = w.ledger) ∨
    ∃ p c u answer, Principal.Presented config headers w p ∧
      AuthedCaller.Represents c p w.tables ∧ u.ledger = w.ledger ∧
      (route.handler config (c.extensions p.kind)).run u = (answer, v) ∧
      r = answer.mapError .app := by
  unfold respond at h
  rw [Prog.run_bind] at h
  cases hcall : (call config headers).run w with
  | mk outcome u =>
    have hu : u.ledger = w.ledger := reads_call.of_run hcall
    rw [hcall] at h
    cases outcome with
    | error e =>
      cases h
      exact Or.inl ⟨⟨e, rfl⟩, hu⟩
    | ok ext =>
      obtain ⟨p, c, hpresented, hc, rfl⟩ := call_presents hcall
      have hrun : ((route.handler config (c.extensions p.kind)).mapErr Rejection.app).run u =
        (r, v) := h
      rw [Prog.run_mapErr] at hrun
      obtain ⟨rfl, rfl⟩ := Prod.mk.inj hrun
      exact Or.inr ⟨p, c, u, _, hpresented, hc, hu, rfl, rfl⟩

/-- A protected request that is answered with success is one of a principal, for whom the handler has
given the answer. -/
lemma respond_eq_ok {route : Route} {reply : Reply}
    (h : (respond config headers route).run w = (.ok reply, v)) :
    ∃ p c u, Principal.Presented config headers w p ∧ AuthedCaller.Represents c p w.tables ∧
      u.now = w.now ∧ (route.handler config (c.extensions p.kind)).run u = (.ok reply, v) := by
  obtain ⟨ext, u, hcall, hhandler⟩ := Prog.bind_eq_ok h
  obtain ⟨p, c, hpresented, hc, rfl⟩ := call_presents hcall
  have hnow : u.now = w.now := reads_call.of_run hcall
  exact ⟨p, c, u, hpresented, hc, hnow, Prog.mapErr_eq_ok hhandler⟩

/-- A request that is answered with success, that changes the tables or that reaches the audit
channel was made with a valid credential of a principal that passes the gate of the route, by what
the tables say when the request arrives. -/
theorem respond_authorised {route : Route} {r : Except Rejection Reply}
    (h : (respond config headers route).run w = (r, v))
    (did : (∃ reply, r = .ok reply) ∨ v.tables ≠ w.tables ∨ v.audit ≠ w.audit) :
    ∃ p, Principal.Presented config headers w p ∧ route.gate.Passes p w.tables := by
  -- a request that fails without trace has done nothing
  have hnothing : (∃ e, r = .error e) → v.ledger = w.ledger → False := by
    rintro ⟨e, rfl⟩ hledger
    rcases did with ⟨_, hok⟩ | htables | haudit
    · cases hok
    · exact htables (congrArg Ledger.tables hledger)
    · exact haudit (congrArg Ledger.audit hledger)
  obtain ⟨herror, hledger⟩ | ⟨p, c, u, answer, hpresented, hc, hu, hrun, rfl⟩ := respond_cases h
  · exact (hnothing herror hledger).elim
  · refine ⟨p, hpresented, Gate.Admits.passes hc ?_⟩
    by_contra hnot
    have hguarded : GuardedBy (route.gate.Admits c p.kind)
        (route.handler config (c.extensions p.kind)) := guarded_handler
    obtain ⟨e, -, hrefused⟩ := hguarded hnot u
    rw [hrun] at hrefused
    obtain ⟨rfl, rfl⟩ := Prod.mk.inj hrefused
    exact hnothing ⟨_, rfl⟩ hu

end Respond

/-- The headers of a request in the owner's session. -/
def ownerHeaders : Headers := [("authorization", "Bearer session".toUTF8.toList)]

/-- The owner of a tenant asks for an echo, which takes the permission `echo:invoke`. -/
theorem respond_authorised_echo :
    ∃ p, @Principal.Presented (signingPlatform ownerSession).toArgon2
        (signingPlatform ownerSession).toJsonWebToken runConfig ownerHeaders
        (.calm ownerTables 0) p ∧
      Route.getEcho.gate.Passes p ownerTables := by
  let _ : Platform := signingPlatform ownerSession
  have hanswer : ((respond runConfig ownerHeaders .getEcho).run (.calm ownerTables 0)).1 =
      .ok (.echo ⟨"GET", none, 0xa, none, 0x11, 0⟩) := by decide +kernel
  exact respond_authorised (w := .calm ownerTables 0) rfl (Or.inl ⟨_, hanswer⟩)

end Egras
