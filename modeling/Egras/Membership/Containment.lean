import Egras.Membership.Assignment
import Egras.Service.Effects

/-!
# Runs of requests without operators

The system of the requests that write or switch memberships, each made by a caller that does not
operate on all tenants at that moment (`Exchange.Step`), over the tables; the rest of the world is
supplied anew at each request. `Operates` says that the permissions loaded for a user in an
organisation hold `tenants.manage_all`. `outcome` says once what a request does to the role rows: none
of an operator is new, or there is one more row, of a role with the code that the request names. What
the creation of an organisation and a login do is read off their effects.

Nothing keeps the code from being `operator_admin`. So no privileges are created exactly in the runs
in which no request gives this role to a pair that lacked it (`contained_iff`).
-/

namespace Egras
open Lib

namespace Tables
variable {t t' : Tables} {u o : Uuid}

/-- The permissions loaded for a user in an organisation operate on all tenants. -/
def Operates (t : Tables) (u o : Uuid) : Prop := "tenants.manage_all" ∈ (t.granted u o).codes

/-- Roles, permissions and what the roles grant. -/
def rbac (t : Tables) :
    Table Role Role.id × Table PermissionRow PermissionRow.id ×
      Table RolePermission RolePermission.key :=
  (t.roles, t.permissions, t.rolePermissions)

/-- The same catalogue has the same seeds. -/
lemma Seeded.of_rbac (h : t.Seeded) (e : t'.rbac = t.rbac) : t'.Seeded := by
  obtain ⟨e₁, e₂, e₃⟩ : t'.roles = t.roles ∧ t'.permissions = t.permissions ∧
      t'.rolePermissions = t.rolePermissions := by
    simpa [rbac] using e
  exact ⟨e₁ ▸ h.roles, e₂ ▸ h.permissions, e₃ ▸ h.rolePermissions⟩

/-- A user operates on all tenants through the role `operator_admin` only. -/
lemma Seeded.operates_iff (h : t.Seeded) :
    t.Operates u o ↔
      ∃ r ∈ t.userOrganisationRoles, r.userId = u ∧ r.organisationId = o ∧ r.roleId = 0x101 := by
  unfold Operates
  rw [mem_granted]
  simp only [Holds, h.manage_all_iff]

/-- The tables differ by one new role row. -/
structure Gains (t t' : Tables) (r : UserOrganisationRole) : Prop where
  rbac : t'.rbac = t.rbac
  rows : ∀ q, q ∈ t'.userOrganisationRoles ↔ q ∈ t.userOrganisationRoles ∨ q = r

/-- No role row of an operator is new. -/
structure GainsNoOperator (t t' : Tables) : Prop where
  rbac : t'.rbac = t.rbac
  rows : ∀ q ∈ t'.userOrganisationRoles, q ∈ t.userOrganisationRoles ∨
    ∃ role ∈ t.roles, q.roleId = role.id ∧ role.code ≠ "operator_admin"

/-- Tables without a new role row. -/
lemma GainsNoOperator.of_rows (hrbac : t'.rbac = t.rbac)
    (hrows : ∀ q ∈ t'.userOrganisationRoles, q ∈ t.userOrganisationRoles) : t.GainsNoOperator t' :=
  ⟨hrbac, fun q hq => Or.inl (hrows q hq)⟩

/-- Nothing has changed. -/
lemma gainsNoOperator_refl : t.GainsNoOperator t := .of_rows rfl fun _ => id

/-- One change after the other. -/
lemma GainsNoOperator.trans {t'' : Tables} (h : t.GainsNoOperator t') (h' : t'.GainsNoOperator t'') :
    t.GainsNoOperator t'' := by
  refine ⟨h'.rbac.trans h.rbac, fun q hq => ?_⟩
  have hroles : t'.roles = t.roles := congrArg Prod.fst h.rbac
  rcases h'.rows q hq with hold | hnew
  · exact h.rows q hold
  · exact Or.inr (hroles ▸ hnew)

/-- A new role row is the only one. -/
lemma gains_addRole {r : UserOrganisationRole} (h : t.Addable r) : t.Gains (t.addRole r) r := by
  refine ⟨?_, fun q => mem_addRole h⟩
  unfold addRole
  split <;> rfl

/-- A new user leaves the catalogue alone. -/
lemma addUser_rbac {new : User} : (t.addUser new).rbac = t.rbac := by
  unfold addUser
  split <;> rfl

/-- A new organisation leaves the catalogue alone. -/
lemma addOrganisation_rbac {new : Organisation} : (t.addOrganisation new).rbac = t.rbac := by
  unfold addOrganisation
  split <;> rfl

/-- A role that is found has the code. -/
lemma roleByCode_eq_some {code : String} {role : Role} (h : t.roleByCode code = some role) :
    role ∈ t.roles ∧ role.code = code :=
  ⟨List.mem_of_find?_eq_some h, by simpa using List.find?_some h⟩

end Tables

/-! ## Effects that make no operator -/

/-- The effects of the creation of an organisation and of a login. -/
def Effect.MakesNoOperator (t : Tables) : Effect → Prop
  | addOrganisation _ | setPassword _ _ _ => True
  | addRole r => ∃ role ∈ t.roles, r.roleId = role.id ∧ role.code ≠ "operator_admin"
  | _ => False

/-- They bring no role row of an operator. -/
lemma Effect.gainsNoOperator [CaseMapping] {t t' : Tables} {e : Effect} (he : e.MakesNoOperator t)
    (h : Effect.apply t e = .ok t') : t.GainsNoOperator t' := by
  cases e with
  | addOrganisation o =>
    obtain ⟨-, rfl⟩ := Tables.insertOrganisation_eq_ok h
    refine .of_rows Tables.addOrganisation_rbac fun q hq => ?_
    exact Tables.addOrganisation_userOrganisationRoles ▸ hq
  | setPassword u hash now =>
    cases h
    exact .of_rows rfl fun _ => id
  | addRole r =>
    by_cases hadd : t.Addable r
    · have hrow : t.addRole r = t' :=
        Except.ok.inj ((Tables.assignRole_of_addable hadd).symm.trans h)
      obtain ⟨hrbac, hrows⟩ := Tables.gains_addRole hadd
      refine hrow ▸ ⟨hrbac, fun q hq => ?_⟩
      rcases (hrows q).mp hq with hold | rfl
      · exact Or.inl hold
      · exact Or.inr he
    · exact Tables.assignRole_eq_ok h hadd ▸ Tables.gainsNoOperator_refl
  | _ => exact False.elim he

/-- Nor do they one after the other. -/
lemma Effect.gainsNoOperator_of_follows [CaseMapping] {t t' : Tables}
    (h : Relation.ReflTransGen (Effect.Step fun s e => e.MakesNoOperator s) t t') :
    t.GainsNoOperator t' :=
  Effect.invariant (fun _ _ _ he happly hs => hs.trans (Effect.gainsNoOperator he happly)) h
    Tables.gainsNoOperator_refl

section Requests
variable {w : World} {c : AuthedCaller} {kind : Caller}

/-- Creating an organisation gives its creator the role `org_owner` at most. -/
lemma follows_postCreateOrganisation [CaseMapping] {ext : Extensions}
    {req : CreateOrganisationRequest} :
    Prog.Follows World.tables (Effect.Step fun s e => e.MakesNoOperator s) w
      (postCreateOrganisation ext req) := by
  refine .ofExcept_bind fun _ _ => .ofExcept_bind fun _ _ => .ofExcept_bind fun _ _ =>
    .then_reads (.mapErr ?_) fun _ => Prog.Reads.ret
  refine follows_createOrganisation (fun _ _ _ _ => trivial) fun t r _ _ hcode => ?_
  obtain ⟨role, hrole, hid⟩ := Option.map_eq_some_iff.mp hcode
  obtain ⟨hstored, howner⟩ := Tables.roleByCode_eq_some hrole
  refine ⟨role, hstored, hid.symm, ?_⟩
  rw [howner]
  decide

/-- A user that joins gains the role of the code. -/
lemma gains_of_joins {req : AddUserToOrganisationRequest} {role : Role}
    (haccept : Permission.tenantsMembersAdd.accepts c.permissions = true)
    (h : Joins w req.userId req.orgId req.roleCode role) :
    w.tables.Gains ((postAddUserToOrganisation (c.extensions kind) req).run w).2.tables
      ⟨req.userId, req.orgId, role.id, w.now⟩ := by
  rw [postAddUserToOrganisation_tables, if_pos haccept, addMember_of_joins h]
  exact Tables.gains_addRole h.addable

/-- An assignment that goes through gains its role. -/
lemma gains_of_goesThrough {orgId : Uuid} {req : AssignRoleRequest} {role : Role}
    (hop : c.permissions.isOperatorOverTenants = false) (kind : Caller)
    (h : GoesThrough w c orgId req role)
    (hfresh : w.tables.hasRole req.userId orgId role.id = false) :
    w.tables.Gains ((postAssignRole (c.extensions kind) orgId req).run w).2.tables
      ⟨req.userId, orgId, role.id, w.now⟩ := by
  obtain ⟨out, t, hrun⟩ := postAssignRole_of_goesThrough hop kind h
  obtain ⟨role', hgoes, htables⟩ := goesThrough_of_postAssignRole hop hrun
  cases h.assigns.known.symm.trans hgoes.assigns.known
  have hadd := Tables.addable_of_assignRole htables hfresh
  rw [Tables.assignRole_of_addable hadd] at htables
  rw [hrun, ← Except.ok.inj htables]
  exact Tables.gains_addRole hadd

variable [Argon2] [CaseMapping]

/-- A registration that goes through gains the role of the code. -/
lemma gains_of_registers {req : RegisterRequest} {hash : String} {role : Role}
    (h : Registers w c kind req hash role) :
    w.tables.Gains ((postRegister (c.extensions kind) req).run w).2.tables
      ⟨w.uuids.headD 0, req.orgId, role.id, w.now⟩ := by
  rw [postRegister_of_registers h]
  obtain ⟨hrbac, hrows⟩ := Tables.gains_addRole h.enrols.addable
  refine ⟨hrbac.trans ?_, fun q => ?_⟩
  · exact Tables.addUser_rbac
  · have hq := hrows q
    rw [Tables.addUser_userOrganisationRoles] at hq
    exact hq

end Requests

/-- A request that writes or switches memberships. -/
inductive TenancyRequest
  | register (req : RegisterRequest)
  | createOrganisation (req : CreateOrganisationRequest)
  | addUser (req : AddUserToOrganisationRequest)
  | assignRole (orgId : Uuid) (req : AssignRoleRequest)
  | removeUser (req : RemoveUserFromOrganisationRequest)
  | login (req : LoginInput)
  | switchOrg (orgId : Uuid)

/-- A request with its caller and the world that it is served in; `login` does not look at its
caller. -/
structure Exchange where
  world : World
  caller : AuthedCaller
  kind : Caller
  request : TenancyRequest

namespace Exchange
variable [Argon2] [CaseMapping] [JsonWebToken]

/-- The world after the handler has run. -/
def serve (config : JwtConfig) (x : Exchange) : World :=
  let ext := x.caller.extensions x.kind
  match x.request with
  | .register req => ((postRegister ext req).run x.world).2
  | .createOrganisation req => ((postCreateOrganisation ext req).run x.world).2
  | .addUser req => ((postAddUserToOrganisation ext req).run x.world).2
  | .assignRole orgId req => ((postAssignRole ext orgId req).run x.world).2
  | .removeUser req => ((postRemoveUserFromOrganisation ext req).run x.world).2
  | .login req => ((postLogin config req).run x.world).2
  | .switchOrg orgId => ((postSwitchOrg config ext orgId).run x.world).2

/-- One request of a caller whose permissions are loaded, perhaps narrowed to the scopes of a key,
and do not operate on all tenants. -/
structure Step (config : JwtConfig) (t : Tables) (x : Exchange) (t' : Tables) : Prop where
  pre : x.world.tables = t
  loaded : x.caller.permissions.codes ⊆ (t.granted x.caller.claims.sub x.caller.claims.org).codes
  ordinary : x.caller.permissions.isOperatorOverTenants = false
  post : (x.serve config).tables = t'

/-- The request gives a user the role `operator_admin` in an organisation. -/
def Escalates (x : Exchange) (u o : Uuid) : Prop :=
  match x.request with
  | .register req => req.roleCode = "operator_admin" ∧ u = x.world.uuids.headD 0 ∧ o = req.orgId ∧
      ∃ hash role, Registers x.world x.caller x.kind req hash role
  | .addUser req => req.roleCode = "operator_admin" ∧ u = req.userId ∧ o = req.orgId ∧
      Permission.tenantsMembersAdd.accepts x.caller.permissions = true ∧
      ∃ role, Joins x.world req.userId req.orgId req.roleCode role
  | .assignRole orgId req => req.roleCode = "operator_admin" ∧ u = req.userId ∧ o = orgId ∧
      ∃ role, GoesThrough x.world x.caller orgId req role ∧
        x.world.tables.hasRole req.userId orgId role.id = false
  | _ => False

/-- What a request does to the role rows. -/
inductive Outcome (x : Exchange) (t t' : Tables) : Prop
  | none (h : t.GainsNoOperator t')
  | gains (r : UserOrganisationRole) (role : Role) (h : t.Gains t' r) (stored : role ∈ t.roles)
      (isRow : r.roleId = role.id)
      (escalates : role.code = "operator_admin" → x.Escalates r.userId r.organisationId)

variable {config : JwtConfig} {x : Exchange} {t t' : Tables}

/-- A request removes role rows, adds one of a role with the code that it names, or neither. -/
lemma outcome (h : Step config t x t') : Outcome x t t' := by
  obtain ⟨rfl, -, hop, rfl⟩ := h
  obtain ⟨w, c, kind, request⟩ := x
  cases request with
  | register req =>
    by_cases hreg : ∃ hash role, Registers w c kind req hash role
    · obtain ⟨hash, role, hreg⟩ := hreg
      obtain ⟨hstored, hcode⟩ := Tables.roleByCode_eq_some hreg.enrols.known
      exact .gains _ role (gains_of_registers hreg) hstored rfl
        (fun hadmin => ⟨hcode.symm.trans hadmin, rfl, rfl, hash, role, hreg⟩)
    · have hnot : ∀ hash role, ¬ Registers w c kind req hash role :=
        fun hash role h => hreg ⟨hash, role, h⟩
      have hsame := postRegister_of_not_registers hnot
      exact .none (hsame ▸ Tables.gainsNoOperator_refl)
  | createOrganisation req =>
    exact .none (Effect.gainsNoOperator_of_follows follows_postCreateOrganisation)
  | addUser req =>
    show Outcome _ w.tables ((postAddUserToOrganisation (c.extensions kind) req).run w).2.tables
    by_cases haccept : Permission.tenantsMembersAdd.accepts c.permissions = true
    · by_cases hjoins : ∃ role, Joins w req.userId req.orgId req.roleCode role
      · obtain ⟨role, hjoins⟩ := hjoins
        obtain ⟨hstored, hcode⟩ := Tables.roleByCode_eq_some hjoins.known
        exact .gains _ role (gains_of_joins haccept hjoins) hstored rfl
          (fun hadmin => ⟨hcode.symm.trans hadmin, rfl, rfl, haccept, role, hjoins⟩)
      · rw [postAddUserToOrganisation_tables, if_pos haccept,
          addMember_of_not_joins (fun role h => hjoins ⟨role, h⟩)]
        exact .none Tables.gainsNoOperator_refl
    · rw [postAddUserToOrganisation_tables, if_neg haccept]
      exact .none Tables.gainsNoOperator_refl
  | assignRole orgId req =>
    show Outcome _ w.tables ((postAssignRole (c.extensions kind) orgId req).run w).2.tables
    cases hrun : (postAssignRole (c.extensions kind) orgId req).run w with
    | mk r t =>
      cases r with
      | error e =>
        rw [atomic_postAssignRole hop w e t hrun]
        exact .none Tables.gainsNoOperator_refl
      | ok out =>
        obtain ⟨role, hgoes, htables⟩ := goesThrough_of_postAssignRole hop hrun
        obtain ⟨hstored, hcode⟩ := Tables.roleByCode_eq_some hgoes.assigns.known
        cases hheld : w.tables.hasRole req.userId orgId role.id with
        | true =>
          -- `ON CONFLICT DO NOTHING`
          have hsame := Tables.assignRole_of_held (r := ⟨req.userId, orgId, role.id, w.now⟩) hheld
          rw [← Except.ok.inj (hsame.symm.trans htables)]
          exact .none Tables.gainsNoOperator_refl
        | false =>
          have hgains := gains_of_goesThrough hop kind hgoes hheld
          rw [hrun] at hgains
          exact .gains _ role hgains hstored rfl
            (fun hadmin => ⟨hcode.symm.trans hadmin, rfl, rfl, role, hgoes, hheld⟩)
  | removeUser req =>
    show Outcome _ w.tables ((postRemoveUserFromOrganisation (c.extensions kind) req).run w).2.tables
    rw [postRemoveUserFromOrganisation_tables]
    split
    · by_cases hleaves : Leaves w req.userId req.orgId
      · rw [removeMemberChecked_of_leaves hleaves]
        exact .none (.of_rows rfl fun q hq => (Tables.mem_removeMember.mp hq).1)
      · rw [removeMemberChecked_of_not_leaves hleaves]
        exact .none Tables.gainsNoOperator_refl
    · exact .none Tables.gainsNoOperator_refl
  | login req =>
    have hlogin : Prog.Follows World.tables (Effect.Step fun s e => e.MakesNoOperator s) w
        (postLogin config req) := (follows_login fun _ _ _ _ _ _ _ => trivial).mapErr
    exact .none (Effect.gainsNoOperator_of_follows hlogin)
  | switchOrg orgId =>
    have hsame : (serve config ⟨w, c, kind, .switchOrg orgId⟩).tables = w.tables :=
      reads_postSwitchOrg w
    exact .none (hsame ▸ Tables.gainsNoOperator_refl)

/-- No request writes roles, permissions or grants. -/
lemma Step.seeded (h : Step config t x t') (hseeded : t.Seeded) : t'.Seeded := by
  cases outcome h with
  | none hnone => exact hseeded.of_rbac hnone.rbac
  | gains r role hgains => exact hseeded.of_rbac hgains.rbac

/-- After a request a user operates on all tenants only if it did before or was given the role. -/
lemma Step.operates (h : Step config t x t') (hseeded : t.Seeded) {u o : Uuid}
    (hop : t'.Operates u o) : t.Operates u o ∨ x.Escalates u o := by
  rw [(h.seeded hseeded).operates_iff] at hop
  rw [hseeded.operates_iff]
  obtain ⟨q, hq, rfl, rfl, hrole⟩ := hop
  cases outcome h with
  | none hnone =>
    rcases hnone.rows q hq with hold | ⟨role, hstored, hid, hcode⟩
    · exact Or.inl ⟨q, hold, rfl, rfl, hrole⟩
    · exact absurd ((hseeded.operator_admin hstored).mpr (hid.symm.trans hrole)) hcode
  | gains r role hgains hstored hrow hescalates =>
    rcases (hgains.rows q).mp hq with hold | rfl
    · exact Or.inl ⟨q, hold, rfl, rfl, hrole⟩
    · exact Or.inr (hescalates ((hseeded.operator_admin hstored).mpr (hrow.symm.trans hrole)))

/-- A user that was given the role operates on all tenants. -/
lemma Step.operates_of_escalates (h : Step config t x t') (hseeded : t.Seeded) {u o : Uuid}
    (hesc : x.Escalates u o) : t'.Operates u o := by
  have hgains : ∃ r role, t.Gains t' r ∧ r.userId = u ∧ r.organisationId = o ∧
      r.roleId = role.id ∧ t.roleByCode "operator_admin" = some role := by
    obtain ⟨rfl, -, hop, rfl⟩ := h
    obtain ⟨w, c, kind, request⟩ := x
    cases request with
    | register req =>
      obtain ⟨hcode, rfl, rfl, hash, role, hreg⟩ := hesc
      exact ⟨_, role, gains_of_registers hreg, rfl, rfl, rfl, hcode ▸ hreg.enrols.known⟩
    | addUser req =>
      obtain ⟨hcode, rfl, rfl, haccept, role, hjoins⟩ := hesc
      exact ⟨_, role, gains_of_joins haccept hjoins, rfl, rfl, rfl, hcode ▸ hjoins.known⟩
    | assignRole orgId req =>
      obtain ⟨hcode, rfl, rfl, role, hgoes, hheld⟩ := hesc
      exact ⟨_, role, gains_of_goesThrough hop kind hgoes hheld, rfl, rfl, rfl,
        hcode ▸ hgoes.assigns.known⟩
    | createOrganisation req => exact hesc.elim
    | removeUser req => exact hesc.elim
    | login req => exact hesc.elim
    | switchOrg orgId => exact hesc.elim
  obtain ⟨r, role, hgains, hu, ho, hrow, hrole⟩ := hgains
  obtain ⟨hstored, hcode⟩ := Tables.roleByCode_eq_some hrole
  rw [(h.seeded hseeded).operates_iff]
  refine ⟨r, (hgains.rows r).mpr (Or.inr rfl), hu, ho, ?_⟩
  exact hrow.trans ((hseeded.operator_admin hstored).mp hcode)

/-- No request of a run creates operator privileges that were not there at its start exactly when
none gives the role `operator_admin` to a user in an organisation where it lacked them. -/
theorem contained_iff (config : JwtConfig) (start : Tables) (ms : List (Move Tables Exchange))
    (t : Tables) (hseeded : start.Seeded) (run : Run (Step config) start ms t) :
    (∀ m ∈ ms, ∀ u o, m.post.Operates u o → start.Operates u o) ↔
      ∀ m ∈ ms, ∀ u o, m.label.Escalates u o → start.Operates u o := by
  have hstart : ∀ m ∈ ms, Step config m.pre m.label m.post ∧ m.pre.Seeded :=
    run.forall_moves Tables.Seeded (fun _ => True) hseeded
      (fun _ _ _ step _ hs => step.seeded hs) (fun _ _ => trivial)
  constructor
  · intro hkept m hm u o hesc
    obtain ⟨step, hs⟩ := hstart m hm
    exact hkept m hm u o (step.operates_of_escalates hs hesc)
  · intro hcond
    -- by induction over the run: whoever operates after a move did before it or was given the role
    have hmoves := run.forall_moves
      (fun t => t.Seeded ∧ ∀ u o, t.Operates u o → start.Operates u o)
      (fun m => ∀ u o, m.label.Escalates u o → start.Operates u o)
      ⟨hseeded, fun _ _ => id⟩
      (fun _ _ _ step hesc hinv => ⟨step.seeded hinv.1, fun u o hop =>
        (step.operates hinv.1 hop).elim (hinv.2 u o) (hesc u o)⟩) hcond
    intro m hm u o hop
    obtain ⟨step, hs, hinv⟩ := hmoves m hm
    exact (step.operates hs hop).elim (hinv u o) (hcond m hm u o)

/-- The owner of a tenant adds a user there with a role. -/
def ownerAdds (userId : Uuid) (roleCode : String) : Exchange where
  world := .calm .twoTenants 0
  caller := .loaded .twoTenants 0x11 0xa
  kind := .user 0x11 0xa 0x31
  request := .addUser ⟨userId, 0xa, roleCode⟩

/-- The owner's request is a step. -/
lemma step_ownerAdds {userId : Uuid} {roleCode : String} :
    Step config .twoTenants (ownerAdds userId roleCode)
      ((ownerAdds userId roleCode).serve config).tables where
  pre := rfl
  loaded := fun _ => id
  ordinary := owner_ordinary
  post := rfl

end Exchange

section Runs
open Exchange

/-- The owner of one tenant adds the owner of another as a plain member, which gives it nothing. -/
theorem contained_iff_plain_member :
    ¬ (@serve asciiPlatform.toArgon2 asciiPlatform.toCaseMapping asciiPlatform.toJsonWebToken
      ⟨"secret", "egras", 3600⟩ (ownerAdds 0x12 "org_member")).tables.Operates 0x12 0xa := by
  let _ : Platform := asciiPlatform
  have hplain : ∀ m ∈ [Move.mk Tables.twoTenants (ownerAdds 0x12 "org_member")
      ((ownerAdds 0x12 "org_member").serve ⟨"secret", "egras", 3600⟩).tables],
      ∀ u o, m.label.Escalates u o → Tables.twoTenants.Operates u o := by
    intro m hm u o hesc
    rw [List.mem_singleton.mp hm] at hesc
    exact absurd hesc.1 (by decide)
  intro hop
  have hbefore := (contained_iff _ _ _ _ Tables.seeded_twoTenants
    (Run.single step_ownerAdds)).mpr hplain _ (List.mem_singleton.mpr rfl) 0x12 0xa hop
  unfold Tables.Operates at hbefore
  exact absurd hbefore (by decide +kernel)

/-- The owner of a tenant makes itself an operator there. -/
theorem owner_becomes_operator :
    Tables.twoTenants.Seeded ∧
      ∃ ms t, Run (@Step asciiPlatform.toArgon2 asciiPlatform.toCaseMapping
          asciiPlatform.toJsonWebToken ⟨"secret", "egras", 3600⟩) .twoTenants ms t ∧
        ¬ Tables.twoTenants.Operates 0x11 0xa ∧ t.Operates 0x11 0xa := by
  let _ : Platform := asciiPlatform
  refine ⟨Tables.seeded_twoTenants, [⟨_, ownerAdds 0x11 "operator_admin", _⟩], _,
    Run.single step_ownerAdds, ?_, ?_⟩
  · unfold Tables.Operates
    decide +kernel
  · unfold Tables.Operates
    decide +kernel

end Runs
end Egras
