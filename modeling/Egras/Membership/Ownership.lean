import Egras.Db.Seeds
import Egras.Membership.Roster

/-!
# Whether organisations keep an owner

An organisation is owned while some role row in it is one of `org_owner`. Removing a member refuses
to take the last such row; deleting a service account does not look, and the cascade takes the role
rows along. So an owned organisation stays owned exactly in the runs in which no service account
that is the only owner of an organisation is deleted (`owned_kept_iff`).
-/

namespace Egras
open Lib

namespace Tables
variable {t t' : Tables} {o u : Uuid}

/-- Whether somebody owns an organisation. -/
def owned (t : Tables) (o : Uuid) : Bool :=
  t.userOrganisationRoles.any (fun r => r.organisationId = o && t.isOwnerRow r)

/-- An organisation is owned through a row of the owner role. -/
lemma owned_iff :
    t.owned o = true ↔
      ∃ r ∈ t.userOrganisationRoles, r.organisationId = o ∧ t.isOwnerRow r = true := by
  simp [owned]

/-- The same catalogue has the same owner rows. -/
lemma isOwnerRow_of_roles {r : UserOrganisationRole} (h : t'.roles = t.roles) :
    t'.isOwnerRow r = t.isOwnerRow r := by
  unfold isOwnerRow
  rw [h]

/-- What keeps roles and role rows keeps owners. -/
lemma owned_of_rows (hroles : t'.roles = t.roles)
    (hrows : ∀ r ∈ t.userOrganisationRoles, r ∈ t'.userOrganisationRoles)
    (h : t.owned o = true) : t'.owned o = true := by
  obtain ⟨r, hr, ho, hrole⟩ := owned_iff.mp h
  exact owned_iff.mpr ⟨r, hrows r hr, ho, (isOwnerRow_of_roles hroles).trans hrole⟩

/-- A new role row leaves every organisation owned that was. -/
lemma owned_addRole {r : UserOrganisationRole} (hadd : t.Addable r) (h : t.owned o = true) :
    (t.addRole r).owned o = true :=
  owned_of_rows addRole_roles (fun _ hq => (mem_addRole hadd).mpr (Or.inl hq)) h

/-- Removing a member that is no owner, or not the only one, leaves an owner. -/
lemma owned_removeMember {p : Uuid} (hlast : t.isOwner u p = false ∨ t.otherOwners u p ≠ [])
    (h : t.owned o = true) : (t.removeMember u p).owned o = true := by
  obtain ⟨r, hr, ho, hrole⟩ := owned_iff.mp h
  by_cases hgone : r.userId = u ∧ r.organisationId = p
  · -- the row goes, so the member is an owner and another one stays
    obtain ⟨hu, hp⟩ := hgone
    have howner : t.isOwner u p = true := Table.any_eq_true.mpr ⟨r, hr, by simp [hu, hp, hrole]⟩
    have hothers : t.otherOwners u p ≠ [] := by
      rcases hlast with hno | hothers
      · rw [howner] at hno
        cases hno
      · exact hothers
    obtain ⟨q, hq⟩ := List.exists_mem_of_ne_nil _ hothers
    obtain ⟨hq, hsel⟩ := Table.mem_select.mp hq
    simp only [Bool.and_eq_true, decide_eq_true_eq] at hsel
    obtain ⟨⟨hqp, hqrole⟩, hqu⟩ := hsel
    refine owned_iff.mpr ⟨q, mem_removeMember.mpr ⟨hq, fun hk => hqu hk.1⟩, ?_, hqrole⟩
    exact hqp.trans (hp.symm.trans ho)
  · exact owned_iff.mpr ⟨r, mem_removeMember.mpr ⟨hr, hgone⟩, ho, hrole⟩

/-- A user is the only owner of an organisation. -/
structure SoleOwner (t : Tables) (u o : Uuid) : Prop where
  owned : t.owned o = true
  sole : ∀ r ∈ t.userOrganisationRoles, r.organisationId = o → t.isOwnerRow r = true → r.userId = u

/-- A deletion takes the role rows of its user and no others. -/
lemma mem_cascadeUser {r : UserOrganisationRole} :
    r ∈ (t.cascadeUser u).userOrganisationRoles ↔ r ∈ t.userOrganisationRoles ∧ r.userId ≠ u := by
  simp [cascadeUser]

/-- Deleting a user takes the last owner of an organisation exactly when it is the only one. -/
lemma owned_cascadeUser (h : t.owned o = true) :
    (t.cascadeUser u).owned o = true ↔ ¬ t.SoleOwner u o := by
  constructor
  · intro hleft hsole
    obtain ⟨r, hr, ho, hrole⟩ := owned_iff.mp hleft
    obtain ⟨hr, hne⟩ := mem_cascadeUser.mp hr
    exact hne (hsole.sole r hr ho hrole)
  · intro hnot
    by_contra hnone
    refine hnot ⟨h, fun r hr ho hrole => ?_⟩
    by_contra hne
    exact hnone (owned_iff.mpr ⟨r, mem_cascadeUser.mpr ⟨hr, hne⟩, ho, hrole⟩)

end Tables

namespace RosterCall
variable [Argon2] [CaseMapping] {x : RosterCall} {t t' : Tables}

/-- The request deletes a service account that is the only owner of an organisation. -/
def Orphans (x : RosterCall) : Prop := ∃ u o, x.Deletes u ∧ x.world.tables.SoleOwner u o

/-- A deletion that passes takes the user away with all that hangs on it. -/
lemma serve_of_deletes {u : Uuid} (h : x.Deletes u) :
    x.serve.tables = x.world.tables.cascadeUser u := by
  obtain ⟨w, c, kind, request⟩ := x
  cases request with
  | deleteServiceAccount saId =>
    obtain ⟨rfl, hhuman, haccept, hdismisses⟩ := h
    show ((deleteServiceAccountHandler (c.extensions kind) u).run w).2.tables = _
    rw [deleteServiceAccountHandler_tables, if_pos (by simp [hhuman, haccept]),
      deleteServiceAccountRows_of_dismisses hdismisses]
  | createOrganisation req => exact h.elim
  | addUser req => exact h.elim
  | assignRole orgId req => exact h.elim
  | removeUser req => exact h.elim
  | register req => exact h.elim
  | createServiceAccount req => exact h.elim

/-- A request that orphans no organisation leaves every owned organisation owned. -/
lemma Step.owned (h : Step t x t') (hsafe : ¬ x.Orphans) {o : Uuid} (ho : t.owned o = true) :
    t'.owned o = true := by
  cases outcome h with
  | same h => exact h ▸ ho
  | founds org free h =>
    rw [h]
    exact Tables.owned_of_rows Tables.addOrganisation_roles (fun r hr => by simpa using hr) ho
  | owns org r free add places h =>
    rw [h]
    refine Tables.owned_addRole add ?_
    exact Tables.owned_of_rows Tables.addOrganisation_roles (fun r hr => by simpa using hr) ho
  | joins r add places h => exact h ▸ Tables.owned_addRole add ho
  | assigns r add homed h => exact h ▸ Tables.owned_addRole add ho
  | leaves u p notLast h => exact h ▸ Tables.owned_removeMember notLast ho
  | enrols new r free human own add h =>
    rw [h]
    refine Tables.owned_addRole add ?_
    exact Tables.owned_of_rows Tables.addUser_roles (fun r hr => by simpa using hr) ho
  | hires req hires hpost =>
    obtain rfl := h.pre
    rw [hpost]
    exact Tables.owned_of_rows (by simp [hired]) (fun r hr => by simpa [hired] using hr) ho
  | dismisses u deletes hpost =>
    rw [hpost]
    exact (Tables.owned_cascadeUser ho).mpr fun hsole => hsafe ⟨u, o, deletes, h.pre ▸ hsole⟩

/-- Along every run, owned organisations stay owned exactly when no request deletes a service
account that is the only owner of an organisation. -/
theorem owned_kept_iff (start : Tables) (ms : List (Move Tables RosterCall)) (t : Tables)
    (run : Run Step start ms t) :
    (∀ m ∈ ms, ∀ o, m.pre.owned o = true → m.post.owned o = true) ↔
      ∀ m ∈ ms, ¬ m.label.Orphans := by
  constructor
  · intro hkept m hm hbad
    obtain ⟨u, o, hdeletes, hsole⟩ := hbad
    obtain ⟨hpre, hpost⟩ := run.step_of_mem hm
    have hleft := hkept m hm o (hpre ▸ hsole.owned)
    rw [← hpost, serve_of_deletes hdeletes] at hleft
    exact (Tables.owned_cascadeUser hsole.owned).mp hleft hsole
  · intro hsafe m hm o ho
    exact (run.step_of_mem hm).owned (hsafe m hm) ho

end RosterCall

section Runs
open RosterCall

/-- A request of a logged-in user in an organisation, with the permissions loaded from the tables. -/
def RosterCall.signedIn (t : Tables) (u o : Uuid) (request : RosterRequest) : RosterCall where
  world := .calm t 0
  caller := .loaded t u o
  kind := .user u o 0x31
  request := request

/-- The owner of a tenant adds a second administrator. -/
def adminJoins : RosterCall := .signedIn .twoTenants 0x11 0xa (.addUser ⟨0x12, 0xa, "org_admin"⟩)

/-- The tenant keeps its owner when an administrator is added. -/
theorem owned_kept_iff_admin :
    (@serve asciiPlatform.toCaseMapping asciiPlatform.toArgon2 adminJoins).tables.owned 0xa =
      true := by
  let _ : Platform := asciiPlatform
  have hstep : Step .twoTenants adminJoins adminJoins.serve.tables := ⟨rfl, rfl⟩
  have hsafe : ∀ m ∈ [Move.mk Tables.twoTenants adminJoins adminJoins.serve.tables],
      ¬ m.label.Orphans := by
    rintro m hm ⟨u, o, hdeletes, -⟩
    rw [List.mem_singleton.mp hm] at hdeletes
    exact hdeletes
  exact (owned_kept_iff _ _ _ (Run.single hstep)).mpr hsafe _ (List.mem_singleton.mpr rfl) 0xa
    (by decide +kernel)

/-- The tables after each request of a list, made by a user in an organisation. -/
def afterCalls (P : Platform) (t : Tables) (calls : List (Uuid × Uuid × RosterRequest)) : Tables :=
  calls.foldl (fun t call =>
    (@serve P.toCaseMapping P.toArgon2 (signedIn t call.1 call.2.1 call.2.2)).tables) t

/-- The owner of `acme` leaves it to a service account, which an administrator then deletes. -/
def orphaningCalls : List (Uuid × Uuid × RosterRequest) :=
  [(0x11, 0xa, .createServiceAccount ⟨0xa, "bot", none⟩),
    (0x11, 0xa, .addUser ⟨0x12, 0xa, "org_admin"⟩),
    (0x11, 0xa, .addUser ⟨0x21, 0xa, "org_owner"⟩),
    (0x11, 0xa, .removeUser ⟨0x11, 0xa⟩)]

/-- The calls one after the other are a run. -/
lemma run_afterCalls {P : Platform} {t : Tables} {calls : List (Uuid × Uuid × RosterRequest)} :
    ∃ ms, Run (@Step P.toCaseMapping P.toArgon2) t ms (afterCalls P t calls) := by
  induction calls generalizing t with
  | nil => exact ⟨[], .nil⟩
  | cons call calls ih =>
    obtain ⟨ms, hrun⟩ := @ih (@serve P.toCaseMapping P.toArgon2
      (signedIn t call.1 call.2.1 call.2.2)).tables
    exact ⟨_, Run.cons ⟨rfl, rfl⟩ hrun⟩

/-- A tenant is left without an owner: its owner hands it to a service account, leaves, and an
administrator deletes the service account. -/
theorem deletion_orphans_tenant :
    ∃ ms t, Run (@Step asciiPlatform.toCaseMapping asciiPlatform.toArgon2) .twoTenants ms t ∧
      ∃ m ∈ ms, ∃ o, m.pre.owned o = true ∧ m.post.owned o = false := by
  let _ : Platform := asciiPlatform
  obtain ⟨ms, hrun⟩ := @run_afterCalls asciiPlatform .twoTenants orphaningCalls
  let before := afterCalls asciiPlatform .twoTenants orphaningCalls
  refine ⟨ms ++ [⟨before, signedIn before 0x12 0xa (.deleteServiceAccount 0x21), _⟩], _,
    .snoc hrun ⟨rfl, rfl⟩, _, List.mem_append_right _ (List.mem_singleton.mpr rfl), 0xa, ?_, ?_⟩
  · decide +kernel
  · decide +kernel

end Runs
end Egras
