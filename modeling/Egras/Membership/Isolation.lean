import Egras.Db.Seeds
import Egras.Membership.Effect

/-!
# Who may write memberships of another organisation

The three requests that write the role rows of an organisation named in their body
(`MembershipRequest`) and the law that a caller of one organisation writes the members of another
one only when it holds the permission there (`Isolated`). The handlers ask for the permission in the
organisation of the token and never compare that organisation with the one of the body, so the law
holds exactly when the two are the same, when the caller happens to hold the permission in the other
one too, or when the request does not take effect (`isolated_iff`).
-/

namespace Egras
open Lib

/-- Between two states of the tables some role row of an organisation has come or gone and the rows
of the other organisations are the same. -/
def Tables.TouchesOnly (t t' : Tables) (o : Uuid) : Prop :=
  (∃ r : UserOrganisationRole, r.organisationId = o ∧
    ¬ (r ∈ t'.userOrganisationRoles ↔ r ∈ t.userOrganisationRoles)) ∧
  ∀ r : UserOrganisationRole, r.organisationId ≠ o →
    (r ∈ t'.userOrganisationRoles ↔ r ∈ t.userOrganisationRoles)

/-- A new role row touches its organisation only. -/
lemma Tables.touchesOnly_addRole {t : Tables} {r : UserOrganisationRole} (h : t.Addable r) :
    t.TouchesOnly (t.addRole r) r.organisationId := by
  refine ⟨⟨r, rfl, fun hiff => ?_⟩, fun q hq => ?_⟩
  · exact h.not_mem (hiff.mp ((mem_addRole h).mpr (Or.inr rfl)))
  · rw [mem_addRole h]
    constructor
    · rintro (hold | rfl)
      · exact hold
      · exact absurd rfl hq
    · exact Or.inl

/-- A removal touches its organisation only. -/
lemma Tables.touchesOnly_removeMember {t : Tables} {u o : Uuid} (h : t.isMember u o = true) :
    t.TouchesOnly (t.removeMember u o) o := by
  obtain ⟨q, hq, hu, ho⟩ := isMember_iff.mp h
  refine ⟨⟨q, ho, fun hiff => ?_⟩, fun r hr => ?_⟩
  · exact (mem_removeMember.mp (hiff.mpr hq)).2 ⟨hu, ho⟩
  · rw [mem_removeMember]
    exact ⟨And.left, fun hold => ⟨hold, fun hk => hr hk.2⟩⟩

section Requests
variable [Argon2] [CaseMapping]

/-- A request that writes the role rows of an organisation. -/
inductive MembershipRequest
  | add (req : AddUserToOrganisationRequest)
  | remove (req : RemoveUserFromOrganisationRequest)
  | register (req : RegisterRequest)

namespace MembershipRequest

/-- The organisation that the request writes in. -/
def org : MembershipRequest → Uuid
  | add req => req.orgId
  | remove req => req.orgId
  | register req => req.orgId

/-- The permission that its handler asks for. -/
def permission : MembershipRequest → Permission
  | add _ => .tenantsMembersAdd
  | remove _ => .tenantsMembersRemove
  | register _ => .tenantsMembersAdd

/-- The world after the handler has run. -/
def serve (ext : Extensions) (w : World) : MembershipRequest → World
  | add req => ((postAddUserToOrganisation ext req).run w).2
  | remove req => ((postRemoveUserFromOrganisation ext req).run w).2
  | register req => ((postRegister ext req).run w).2

end MembershipRequest

/-- The request leaves the role rows of every other organisation in which its caller lacks the
permission alone, and leaves all tables alone when it names such an organisation. -/
def Isolated (w : World) (c : AuthedCaller) (kind : Caller) (req : MembershipRequest) : Prop :=
  ∀ o ≠ c.claims.org, ¬ w.tables.Holds c.claims.sub o req.permission.code →
    (∀ r : UserOrganisationRole, r.organisationId = o →
      (r ∈ (req.serve (c.extensions kind) w).tables.userOrganisationRoles ↔
        r ∈ w.tables.userOrganisationRoles)) ∧
    (req.org = o → (req.serve (c.extensions kind) w).tables = w.tables)

/-- The request passes the checks of its handler and changes a role row of the organisation that it
names. -/
def MembershipRequest.Effective (w : World) (c : AuthedCaller) (kind : Caller) :
    MembershipRequest → Prop
  | .add req => Permission.tenantsMembersAdd.accepts c.permissions = true ∧
      ∃ role, Joins w req.userId req.orgId req.roleCode role
  | .remove req => Permission.tenantsMembersRemove.accepts c.permissions = true ∧
      Leaves w req.userId req.orgId
  | .register req => ∃ hash role, Registers w c kind req hash role

variable {w : World} {c : AuthedCaller} {kind : Caller} {req : MembershipRequest}

/-- A request that takes effect changes the members of the organisation that it names and of no
other. -/
lemma MembershipRequest.serve_of_effective (h : req.Effective w c kind) :
    w.tables.TouchesOnly (req.serve (c.extensions kind) w).tables req.org := by
  cases req with
  | add req =>
    obtain ⟨hgate, role, hjoins⟩ := h
    show w.tables.TouchesOnly ((postAddUserToOrganisation (c.extensions kind) req).run w).2.tables _
    rw [postAddUserToOrganisation_tables, if_pos hgate, addMember_of_joins hjoins]
    exact Tables.touchesOnly_addRole hjoins.addable
  | remove req =>
    obtain ⟨hgate, hleaves⟩ := h
    show w.tables.TouchesOnly
      ((postRemoveUserFromOrganisation (c.extensions kind) req).run w).2.tables _
    rw [postRemoveUserFromOrganisation_tables, if_pos hgate, removeMemberChecked_of_leaves hleaves]
    exact Tables.touchesOnly_removeMember hleaves.member
  | register req =>
    obtain ⟨hash, role, hregisters⟩ := h
    show w.tables.TouchesOnly ((postRegister (c.extensions kind) req).run w).2.tables _
    rw [postRegister_of_registers hregisters]
    have htouches := Tables.touchesOnly_addRole hregisters.enrols.addable
    unfold Tables.TouchesOnly at htouches
    rw [Tables.addUser_userOrganisationRoles] at htouches
    exact htouches

/-- A request that does not take effect leaves the tables alone. -/
lemma MembershipRequest.serve_of_not_effective (h : ¬ req.Effective w c kind) :
    (req.serve (c.extensions kind) w).tables = w.tables := by
  cases req with
  | add req =>
    show ((postAddUserToOrganisation (c.extensions kind) req).run w).2.tables = _
    rw [postAddUserToOrganisation_tables]
    split
    · rename_i hgate
      exact addMember_of_not_joins (fun role hjoins => h ⟨hgate, role, hjoins⟩)
    · rfl
  | remove req =>
    show ((postRemoveUserFromOrganisation (c.extensions kind) req).run w).2.tables = _
    rw [postRemoveUserFromOrganisation_tables]
    split
    · rename_i hgate
      exact removeMemberChecked_of_not_leaves (fun hleaves => h ⟨hgate, hleaves⟩)
    · rfl
  | register req =>
    exact postRegister_of_not_registers (fun hash role hregisters => h ⟨hash, role, hregisters⟩)

/-- The membership requests keep the organisations apart exactly when the caller writes in the
organisation of its token, or holds the permission in the one it names, or writes nothing. -/
theorem isolated_iff (w : World) (c : AuthedCaller) (kind : Caller) (req : MembershipRequest) :
    Isolated w c kind req ↔
      req.org = c.claims.org ∨ w.tables.Holds c.claims.sub req.org req.permission.code ∨
        ¬ req.Effective w c kind := by
  constructor
  · intro hiso
    by_contra hneg
    obtain ⟨horg, hrest⟩ := not_or.mp hneg
    obtain ⟨hholds, heff⟩ := not_or.mp hrest
    have heff := not_not.mp heff
    obtain ⟨⟨r, hr, hchanged⟩, -⟩ := MembershipRequest.serve_of_effective heff
    obtain ⟨-, hsame⟩ := hiso req.org horg hholds
    rw [hsame rfl] at hchanged
    exact hchanged Iff.rfl
  · intro hcond o ho hholds
    by_cases heff : req.Effective w c kind
    · have hne : req.org ≠ o := by
        rcases hcond with horg | hheld | hnot
        · exact fun e => ho (e.symm.trans horg)
        · exact fun e => hholds (e ▸ hheld)
        · exact absurd heff hnot
      refine ⟨fun r hr => ?_, fun e => absurd e hne⟩
      exact (MembershipRequest.serve_of_effective heff).2 r (fun e => hne (e.symm.trans hr))
    · rw [MembershipRequest.serve_of_not_effective heff]
      exact ⟨fun _ _ => Iff.rfl, fun _ => rfl⟩

end Requests

/-- The owner of one tenant makes itself an owner of another. -/
theorem owner_joins_other_tenant :
    let w := World.calm .twoTenants 0
    let alice := AuthedCaller.loaded .twoTenants 0x11 0xa
    alice.permissions.has "tenants.manage_all" = false ∧
      alice.permissions.has "users.manage_all" = false ∧
      ¬ @Isolated asciiPlatform.toArgon2 asciiPlatform.toCaseMapping w alice
        (.user 0x11 0xa 0x31) (.add ⟨0x11, 0xb, "org_owner"⟩) := by
  intro w alice
  refine ⟨by decide +kernel, by decide +kernel, fun h => ?_⟩
  have hlacks : ¬ w.tables.Holds 0x11 0xb "tenants.members.add" := by
    rw [← Tables.mem_granted]
    decide +kernel
  have hsame := (h 0xb (by decide) hlacks).2 rfl
  have hchanged : ((postAddUserToOrganisation (alice.extensions (.user 0x11 0xa 0x31))
      ⟨0x11, 0xb, "org_owner"⟩).run w).2.tables ≠ w.tables := by decide +kernel
  exact hchanged hsame

end Egras
