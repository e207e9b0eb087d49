import Egras.Db.Seeds
import Egras.Membership.Effect

/-!
# Who may assign roles in another organisation

The law that a role is assigned in an organisation only by a caller that holds
`tenants.roles.assign` there, and that every other call is refused (`Authorised`). The handler asks
for the permission in the organisation of the token; the service asks for a membership in the
organisation of the path, with any role. The law holds exactly for the calls of callers that hold
the permission there and for those that do not go through (`authorised_iff`).
-/

namespace Egras
open Lib

/-- A role row is added only for a caller that holds the permission in the organisation of the row;
any other caller is refused and the role rows stay as they are. -/
structure Authorised (w : World) (c : AuthedCaller) (kind : Caller) (orgId : Uuid)
    (req : AssignRoleRequest) : Prop where
  holds :
    (∃ r : UserOrganisationRole, r.organisationId = orgId ∧ r ∉ w.tables.userOrganisationRoles ∧
      r ∈ ((postAssignRole (c.extensions kind) orgId req).run w).2.tables.userOrganisationRoles) →
    w.tables.Holds c.claims.sub orgId "tenants.roles.assign"
  refused : ¬ w.tables.Holds c.claims.sub orgId "tenants.roles.assign" →
    (∃ e, ((postAssignRole (c.extensions kind) orgId req).run w).1 = .error e) ∧
      ((postAssignRole (c.extensions kind) orgId req).run w).2.tables.userOrganisationRoles =
        w.tables.userOrganisationRoles

/-- A call goes through: it passes the permission check in the organisation of the token, its role
code has an accepted length and the service does not refuse it. -/
structure GoesThrough (w : World) (c : AuthedCaller) (orgId : Uuid) (req : AssignRoleRequest)
    (role : Role) : Prop where
  accepted : Permission.tenantsRolesAssign.accepts c.permissions = true
  length : 1 ≤ req.roleCode.length ∧ req.roleCode.length ≤ 64
  assigns : Assigns w c.claims.sub ⟨orgId, req.userId, req.roleCode⟩ role

variable {w : World} {c : AuthedCaller} {kind : Caller} {orgId : Uuid} {req : AssignRoleRequest}

/-- A field is valid when its length is within the bounds. -/
lemma validateFields_length {field : String} {lo hi : ℕ} {s : String} :
    validateFields (validateLength field lo hi s) = .ok () ↔ lo ≤ s.length ∧ s.length ≤ hi := by
  unfold validateFields validateLength
  split <;> simp_all

/-- A call that goes through is answered. -/
lemma postAssignRole_of_goesThrough {role : Role}
    (hop : c.permissions.isOperatorOverTenants = false) (kind : Caller)
    (h : GoesThrough w c orgId req role) :
    ∃ out t, (postAssignRole (c.extensions kind) orgId req).run w = (.ok out, t) := by
  unfold postAssignRole
  rw [run_perm_bind, if_pos h.accepted, run_authedCaller_bind,
    validateFields_length.mpr h.length, hop]
  obtain ⟨out, t, hrun⟩ := assignRole_of_assigns c.claims.org h.assigns
  exact ⟨_, _, Prog.run_bind_ok rfl (Prog.run_bind_ok (Prog.run_mapErr_ok hrun) rfl)⟩

/-- A call that is answered goes through; it adds the role row unless it is there. -/
lemma goesThrough_of_postAssignRole {out : ℕ × AssignRoleResponseBody} {t : World}
    (hop : c.permissions.isOperatorOverTenants = false)
    (h : (postAssignRole (c.extensions kind) orgId req).run w = (.ok out, t)) :
    ∃ role, GoesThrough w c orgId req role ∧
      w.tables.assignRole ⟨req.userId, orgId, role.id, w.now⟩ = .ok t.tables := by
  unfold postAssignRole at h
  rw [run_perm_bind] at h
  split at h
  · rename_i haccept
    rw [run_authedCaller_bind] at h
    obtain ⟨_, v, hlen, h⟩ := Prog.bind_eq_ok h
    rw [Prog.run_ofExcept] at hlen
    obtain ⟨hvalid, rfl⟩ := Prod.mk.inj hlen
    obtain ⟨out', v, hassign, h⟩ := Prog.bind_eq_ok h
    rw [hop] at hassign
    obtain ⟨role, hassigns, htables⟩ := assignRole_eq_ok (Prog.mapErr_eq_ok hassign)
    cases h
    exact ⟨role, ⟨haccept, validateFields_length.mp hvalid, hassigns⟩, htables⟩
  · cases h

/-- A call that fails leaves the tables alone. -/
lemma atomic_postAssignRole (hop : c.permissions.isOperatorOverTenants = false) :
    Prog.Atomic World.tables (postAssignRole (c.extensions kind) orgId req) := by
  intro w e t h
  unfold postAssignRole at h
  rw [run_perm_bind] at h
  split at h
  · rw [run_authedCaller_bind, hop] at h
    refine Prog.Atomic.bind_right Prog.Reads.ofExcept (fun _ => ?_) w e t h
    exact Prog.Atomic.bind_left (Prog.Atomic.mapErr atomic_assignRole) (fun _ => Prog.FailsIn.ret)
  · cases h
    rfl

/-- For callers that are no operators, role assignment is authorised by the target organisation
exactly when the caller holds the permission there or the call does not go through. -/
theorem authorised_iff (w : World) (c : AuthedCaller) (kind : Caller) (orgId : Uuid)
    (req : AssignRoleRequest) (hop : c.permissions.isOperatorOverTenants = false) :
    Authorised w c kind orgId req ↔
      w.tables.Holds c.claims.sub orgId "tenants.roles.assign" ∨
        ∀ role, ¬ GoesThrough w c orgId req role := by
  constructor
  · intro hauth
    by_contra hneg
    obtain ⟨hholds, hgoes⟩ := not_or.mp hneg
    obtain ⟨role, hgoes⟩ := not_forall_not.mp hgoes
    obtain ⟨out, t, hrun⟩ := postAssignRole_of_goesThrough hop kind hgoes
    obtain ⟨⟨e, hfail⟩, -⟩ := hauth.refused hholds
    rw [hrun] at hfail
    cases hfail
  · rintro (hholds | hstuck)
    · exact ⟨fun _ => hholds, fun hnot => absurd hholds hnot⟩
    · cases hrun : (postAssignRole (c.extensions kind) orgId req).run w with
      | mk r t =>
        cases r with
        | ok out =>
          obtain ⟨role, hgoes, -⟩ := goesThrough_of_postAssignRole hop hrun
          exact absurd hgoes (hstuck role)
        | error e =>
          have htables := atomic_postAssignRole hop w e t hrun
          refine ⟨?_, fun _ => ⟨⟨e, by rw [hrun]⟩, by rw [hrun, htables]⟩⟩
          rintro ⟨r, -, hnew, hr⟩
          rw [hrun, htables] at hr
          exact absurd hr hnew

/-- A call for the caller's own organisation is authorised, the permission being loaded there. -/
theorem authorised_iff_own_organisation :
    let w := World.calm .twoTenants 0
    let alice := AuthedCaller.loaded .twoTenants 0x11 0xa
    Authorised w alice (.user 0x11 0xa 0x31) 0xa ⟨0x11, "org_admin"⟩ := by
  intro w alice
  refine (authorised_iff w alice _ 0xa ⟨0x11, "org_admin"⟩ (by decide +kernel)).mpr (Or.inl ?_)
  rw [← Tables.mem_granted]
  decide +kernel

/-- The owner of one tenant who is a plain member of another. -/
def memberElsewhere : Tables :=
  { Tables.twoTenants with
    userOrganisationRoles :=
      ⟨[⟨0x11, 0xa, 0x102, 0⟩, ⟨0x12, 0xb, 0x102, 0⟩, ⟨0x11, 0xb, 0x104, 0⟩], by decide⟩ }

/-- The owner of one tenant makes itself an owner of another where it is a plain member. -/
theorem member_promotes_itself :
    let w := World.calm memberElsewhere 0
    let alice := AuthedCaller.loaded memberElsewhere 0x11 0xa
    alice.permissions.isOperatorOverTenants = false ∧
      ¬ Authorised w alice (.user 0x11 0xa 0x31) 0xb ⟨0x11, "org_owner"⟩ := by
  intro w alice
  refine ⟨by decide +kernel, fun h => ?_⟩
  have hlacks : ¬ w.tables.Holds 0x11 0xb "tenants.roles.assign" := by
    rw [← Tables.mem_granted]
    decide +kernel
  have hchanged : ((postAssignRole (alice.extensions (.user 0x11 0xa 0x31)) 0xb
      ⟨0x11, "org_owner"⟩).run w).2.tables.userOrganisationRoles ≠
        w.tables.userOrganisationRoles := by decide +kernel
  exact hchanged (h.refused hlacks).2

end Egras
