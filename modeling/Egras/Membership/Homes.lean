import Egras.Membership.Ownership

/-!
# Whether service accounts stay at home

A service account is homed while each of its role rows is in the organisation of its
`service_accounts` row. Assigning a role looks at the home of a service account; adding a user to an
organisation does not, and neither does creating an organisation that its creator, perhaps a service
account behind an API key, becomes the owner of. So the roster stays homed exactly in the runs in
which neither of the two places a service account elsewhere (`homed_iff`).
-/

namespace Egras
open Lib

namespace Tables
variable {t t' : Tables} {u o : Uuid} {r : UserOrganisationRole}

/-- Each role row of a service account is in its home organisation. -/
def Homed (t : Tables) : Prop :=
  ∀ r ∈ t.userOrganisationRoles, t.isServiceAccount r.userId = true →
    (t.serviceAccount r.organisationId r.userId).isSome = true

/-- Each role row is one of a stored user. -/
def Staffed (t : Tables) : Prop := ∀ r ∈ t.userOrganisationRoles, t.hasUser r.userId = true

/-- The same users are service accounts. -/
lemma isServiceAccount_of_users (h : t'.users = t.users) :
    t'.isServiceAccount u = t.isServiceAccount u := by
  unfold isServiceAccount
  rw [h]

/-- The same service accounts are found. -/
lemma serviceAccount_of_serviceAccounts (h : t'.serviceAccounts = t.serviceAccounts) :
    t'.serviceAccount o u = t.serviceAccount o u := by
  unfold serviceAccount
  rw [h]

/-- The same users are there. -/
lemma hasUser_of_users (h : t'.users = t.users) : t'.hasUser u = t.hasUser u := by
  unfold hasUser
  rw [h]

/-- Role rows that were there stay homed when users and service accounts stay. -/
lemma Homed.of_rows (h : t.Homed) (husers : t'.users = t.users)
    (haccounts : t'.serviceAccounts = t.serviceAccounts)
    (hrows : ∀ r ∈ t'.userOrganisationRoles, r ∈ t.userOrganisationRoles) : t'.Homed := by
  intro r hr hsa
  rw [isServiceAccount_of_users husers] at hsa
  rw [serviceAccount_of_serviceAccounts haccounts]
  exact h r (hrows r hr) hsa

/-- Fewer role rows and no fewer users. -/
lemma Staffed.of_rows (h : t.Staffed) (husers : ∀ u, t.hasUser u = true → t'.hasUser u = true)
    (hrows : ∀ r ∈ t'.userOrganisationRoles, r ∈ t.userOrganisationRoles) : t'.Staffed :=
  fun r hr => husers _ (h r (hrows r hr))

/-! ### A new role row -/

/-- A new row keeps the roster homed when it is homed itself. -/
lemma Homed.addRole (h : t.Homed) (hadd : t.Addable r)
    (hr : t.isServiceAccount r.userId = true →
      (t.serviceAccount r.organisationId r.userId).isSome = true) : (t.addRole r).Homed := by
  intro q hq hsa
  rw [isServiceAccount_of_users addRole_users] at hsa
  rw [serviceAccount_of_serviceAccounts addRole_serviceAccounts]
  rcases (mem_addRole hadd).mp hq with hold | rfl
  · exact h q hold hsa
  · exact hr hsa

/-- An accepted role row has its user. -/
lemma Staffed.addRole (h : t.Staffed) (hadd : t.Addable r) : (t.addRole r).Staffed := by
  intro q hq
  rw [hasUser_of_users addRole_users]
  rcases (mem_addRole hadd).mp hq with hold | rfl
  · exact h q hold
  · exact hadd.user

/-! ### A new user -/

section Users
variable [CaseMapping] {new : User}

/-- A new user is found under its id, the others as before. -/
lemma users_find?_addUser (hfree : t.FreeUser new) :
    (t.addUser new).users.find? u = if new.id = u then some new else t.users.find? u := by
  obtain ⟨rows, hrows⟩ := users_insert?_of_free hfree
  unfold addUser
  rw [hrows]
  exact Table.find?_insert? hrows

/-- The users that were there are as they were. -/
lemma isServiceAccount_addUser (hfree : t.FreeUser new) (h : t.hasUser u = true) :
    (t.addUser new).isServiceAccount u = t.isServiceAccount u := by
  have hne : new.id ≠ u := by
    rintro rfl
    rw [hfree.id] at h
    cases h
  unfold isServiceAccount
  rw [users_find?_addUser hfree, if_neg hne]

/-- A new user leaves every role row its user. -/
lemma Staffed.addUser (h : t.Staffed) (hfree : t.FreeUser new) : (t.addUser new).Staffed := by
  refine h.of_rows (fun u hu => ?_) (fun r hr => by simpa using hr)
  rw [addUser_of_free hfree, hu]
  rfl

/-- A new user has no role rows that could be away from home. -/
lemma Homed.addUser (h : t.Homed) (hstaffed : t.Staffed) (hfree : t.FreeUser new) :
    (t.addUser new).Homed := by
  intro r hr hsa
  rw [addUser_userOrganisationRoles] at hr
  rw [isServiceAccount_addUser hfree (hstaffed r hr)] at hsa
  rw [serviceAccount_of_serviceAccounts addUser_serviceAccounts]
  exact h r hr hsa

/-- A new service account has no role rows yet. -/
lemma homed_hired {w : World} {req : NewServiceAccount} (hires : Hires w req) (h : w.tables.Homed)
    (hstaffed : w.tables.Staffed) : (hired w req).Homed := by
  obtain ⟨-, rows, hrows⟩ := insertServiceAccount_eq_ok hires.accepted
  intro r hr hsa
  unfold hired at *
  rw [addServiceAccount_userOrganisationRoles] at hr
  rw [isServiceAccount_of_users addServiceAccount_users] at hsa
  have hhome := h.addUser hstaffed hires.free r hr hsa
  have hne : (newServiceAccount w req).userId ≠ r.userId := by
    intro hid
    rw [addUser_userOrganisationRoles] at hr
    have hstored := hstaffed r hr
    rw [← hid] at hstored
    exact absurd (hires.free.id.symm.trans hstored) (by decide)
  unfold serviceAccount addServiceAccount at *
  rw [hrows]
  rw [Table.find?_insert? hrows, if_neg hne]
  exact hhome

end Users

/-! ### A user that goes -/

/-- A deletion leaves the others at home. -/
lemma Homed.cascadeUser (h : t.Homed) : (t.cascadeUser u).Homed := by
  intro r hr hsa
  obtain ⟨hr, hne⟩ := mem_cascadeUser.mp hr
  have hold : t.isServiceAccount r.userId = true := by
    unfold isServiceAccount at hsa ⊢
    have hfind : (t.cascadeUser u).users.find? r.userId =
        (t.users.find? r.userId).filter (fun q => !decide (q.id = u)) := Table.find?_deleteWhere
    rw [hfind] at hsa
    cases hu : t.users.find? r.userId with
    | none =>
      rw [hu] at hsa
      cases hsa
    | some q =>
      have hq : q.id ≠ u := fun hid => hne ((Table.find?_eq_some.mp hu).2.symm.trans hid)
      simpa [hu, hq, Option.filter] using hsa
  have hhome := h r hr hold
  have hfind : (t.cascadeUser u).serviceAccounts.find? r.userId =
      (t.serviceAccounts.find? r.userId).filter (fun q => !decide (q.userId = u)) :=
    Table.find?_deleteWhere
  unfold serviceAccount at hhome ⊢
  rw [hfind]
  cases hsa : t.serviceAccounts.find? r.userId with
  | none =>
    rw [hsa] at hhome
    cases hhome
  | some q =>
    have hq : q.userId ≠ u := fun hid => hne ((Table.find?_eq_some.mp hsa).2.symm.trans hid)
    simpa [hsa, hq, Option.filter] using hhome

/-- A deletion takes the role rows of its user along. -/
lemma Staffed.cascadeUser (h : t.Staffed) : (t.cascadeUser u).Staffed := by
  intro r hr
  obtain ⟨hr, hne⟩ := mem_cascadeUser.mp hr
  obtain ⟨q, hq, hid⟩ := hasUser_iff.mp (h r hr)
  refine hasUser_iff.mpr ⟨q, Table.mem_deleteWhere.mpr ⟨hq, decide_eq_false ?_⟩, hid⟩
  exact fun hu => hne (hid.symm.trans hu)

end Tables

namespace RosterCall
variable [Argon2] [CaseMapping] {x : RosterCall} {t t' : Tables}

/-- The request gives a service account a role row in an organisation that is not its home. -/
def Strays (x : RosterCall) : Prop :=
  ∃ u o, x.Places u o ∧ x.world.tables.isServiceAccount u = true ∧
    x.world.tables.serviceAccount o u = none

/-- A request that places a user writes a role row and leaves users and service accounts alone. -/
lemma serve_of_places {u o : Uuid} (h : x.Places u o) :
    (∃ r ∈ x.serve.tables.userOrganisationRoles, r.userId = u ∧ r.organisationId = o) ∧
      x.serve.tables.users = x.world.tables.users ∧
      x.serve.tables.serviceAccounts = x.world.tables.serviceAccounts := by
  obtain ⟨w, c, kind, request⟩ := x
  cases request with
  | createOrganisation req =>
    obtain ⟨rfl, rfl, hgate, hseed, role, hfounds⟩ := h
    have hserve : (serve ⟨w, c, kind, .createOrganisation req⟩).tables =
        founded w (trimWs req.name) (trimWs req.business) c.claims.sub role := by
      show ((postCreateOrganisation (c.extensions kind) req).run w).2.tables = _
      rw [postCreateOrganisation_tables, if_pos hgate, if_pos hseed,
        createWithInitialOwner_of_founds hfounds]
    rw [hserve]
    refine ⟨⟨_, (Tables.mem_addRole hfounds.addable).mpr (Or.inr rfl), rfl, rfl⟩, ?_, ?_⟩
    · exact Tables.addRole_users.trans Tables.addOrganisation_users
    · exact Tables.addRole_serviceAccounts.trans Tables.addOrganisation_serviceAccounts
  | addUser req =>
    obtain ⟨rfl, rfl, haccept, role, hjoins⟩ := h
    have hserve : (serve ⟨w, c, kind, .addUser req⟩).tables =
        w.tables.addRole ⟨req.userId, req.orgId, role.id, w.now⟩ := by
      show ((postAddUserToOrganisation (c.extensions kind) req).run w).2.tables = _
      rw [postAddUserToOrganisation_tables, if_pos haccept, addMember_of_joins hjoins]
    rw [hserve]
    exact ⟨⟨_, (Tables.mem_addRole hjoins.addable).mpr (Or.inr rfl), rfl, rfl⟩,
      Tables.addRole_users, Tables.addRole_serviceAccounts⟩
  | assignRole orgId req => exact h.elim
  | removeUser req => exact h.elim
  | register req => exact h.elim
  | createServiceAccount req => exact h.elim
  | deleteServiceAccount saId => exact h.elim

/-- A request that places a service account elsewhere leaves it there. -/
lemma Step.not_homed (h : Step t x t') (hstrays : x.Strays) : ¬ t'.Homed := by
  obtain ⟨u, o, hplaces, hsa, hhome⟩ := hstrays
  obtain ⟨⟨r, hr, rfl, rfl⟩, husers, haccounts⟩ := serve_of_places hplaces
  rw [h.post] at hr husers haccounts
  intro hhomed
  have hsome := hhomed r hr ((Tables.isServiceAccount_of_users husers).trans hsa)
  rw [Tables.serviceAccount_of_serviceAccounts haccounts, hhome] at hsome
  cases hsome

/-- No request leaves a role row without a user. -/
lemma Step.staffed (h : Step t x t') (hs : t.Staffed) : t'.Staffed := by
  cases outcome h with
  | same h => exact h ▸ hs
  | founds org free h =>
    exact h ▸ hs.of_rows (fun u hu => by simpa [Tables.hasUser] using hu)
      (fun r hr => by simpa using hr)
  | owns org r free add places h =>
    rw [h]
    refine Tables.Staffed.addRole (hs.of_rows (fun u hu => ?_) (fun r hr => by simpa using hr)) add
    simpa [Tables.hasUser] using hu
  | joins r add places h => exact h ▸ hs.addRole add
  | assigns r add homed h => exact h ▸ hs.addRole add
  | leaves u o notLast h =>
    exact h ▸ hs.of_rows (fun _ => id) (fun r hr => (Tables.mem_removeMember.mp hr).1)
  | enrols new r free human own add h => exact h ▸ (hs.addUser free).addRole add
  | hires req hires hpost =>
    obtain rfl := h.pre
    rw [hpost]
    exact (hs.addUser hires.free).of_rows (fun u hu => by simpa [Tables.hasUser, hired] using hu)
      (fun r hr => by simpa [hired] using hr)
  | dismisses u deletes h => exact h ▸ hs.cascadeUser

/-- A request that places no service account elsewhere keeps the roster homed. -/
lemma Step.homed (h : Step t x t') (hs : t.Staffed) (hsafe : ¬ x.Strays) (hh : t.Homed) :
    t'.Homed := by
  -- what the request places is homed already
  have hplaced : ∀ u o, x.Places u o → t.isServiceAccount u = true →
      (t.serviceAccount o u).isSome = true := by
    intro u o hplaces hsa
    rw [Option.isSome_iff_ne_none]
    intro hnone
    exact hsafe ⟨u, o, hplaces, h.pre ▸ hsa, h.pre ▸ hnone⟩
  cases outcome h with
  | same h => exact h ▸ hh
  | founds org free h =>
    rw [h]
    exact hh.of_rows Tables.addOrganisation_users Tables.addOrganisation_serviceAccounts
      (fun r hr => by simpa using hr)
  | owns org r free add places h =>
    rw [h]
    refine Tables.Homed.addRole ?_ add fun hsa => ?_
    · exact hh.of_rows Tables.addOrganisation_users Tables.addOrganisation_serviceAccounts
        (fun r hr => by simpa using hr)
    · rw [Tables.isServiceAccount_of_users Tables.addOrganisation_users] at hsa
      rw [Tables.serviceAccount_of_serviceAccounts Tables.addOrganisation_serviceAccounts]
      exact hplaced _ _ places hsa
  | joins r add places h => exact h ▸ hh.addRole add (hplaced _ _ places)
  | assigns r add homed h => exact h ▸ hh.addRole add homed
  | leaves u o notLast h =>
    rw [h]
    exact hh.of_rows rfl rfl (fun r hr => (Tables.mem_removeMember.mp hr).1)
  | enrols new r free human own add h =>
    rw [h]
    refine (hh.addUser hs free).addRole add fun hsa => ?_
    unfold Tables.isServiceAccount at hsa
    rw [Tables.users_find?_addUser free, if_pos own.symm] at hsa
    simp [human] at hsa
  | hires req hires hpost =>
    obtain rfl := h.pre
    exact hpost ▸ Tables.homed_hired hires hh hs
  | dismisses u deletes h => exact h ▸ hh.cascadeUser

/-- From a roster that is homed, the roster is homed after every request of a run exactly when none
places a service account in another organisation than its home. -/
theorem homed_iff (start : Tables) (ms : List (Move Tables RosterCall)) (t : Tables)
    (hstaffed : start.Staffed) (hhomed : start.Homed) (run : Run Step start ms t) :
    (∀ m ∈ ms, m.post.Homed) ↔ ∀ m ∈ ms, ¬ m.label.Strays := by
  constructor
  · intro hall m hm hstrays
    exact (run.step_of_mem hm).not_homed hstrays (hall m hm)
  · intro hsafe m hm
    have hmoves := run.forall_moves (fun t => t.Staffed ∧ t.Homed) (fun m => ¬ m.label.Strays)
      ⟨hstaffed, hhomed⟩
      (fun _ _ _ step hs hinv => ⟨step.staffed hinv.1, step.homed hinv.1 hs hinv.2⟩) hsafe
    obtain ⟨step, hs, hh⟩ := hmoves m hm
    exact step.homed hs (hsafe m hm) hh

end RosterCall

section Runs
open RosterCall

/-- The role rows of the two tenants have their users. -/
lemma Tables.staffed_twoTenants : Tables.twoTenants.Staffed := by
  have hall : ∀ r ∈ Tables.twoTenants.userOrganisationRoles.rows,
      Tables.twoTenants.hasUser r.userId = true := by decide
  exact hall

/-- The two tenants have their service accounts at home. -/
lemma Tables.homed_twoTenants : Tables.twoTenants.Homed := by
  have hall : ∀ r ∈ Tables.twoTenants.userOrganisationRoles.rows,
      Tables.twoTenants.isServiceAccount r.userId = true →
        (Tables.twoTenants.serviceAccount r.organisationId r.userId).isSome = true := by decide
  exact hall

/-- The roster is homed after an administrator has been added. -/
theorem homed_iff_admin :
    (@serve asciiPlatform.toCaseMapping asciiPlatform.toArgon2 adminJoins).tables.Homed := by
  let _ : Platform := asciiPlatform
  have hstep : Step .twoTenants adminJoins adminJoins.serve.tables := ⟨rfl, rfl⟩
  have hsafe : ∀ m ∈ [Move.mk Tables.twoTenants adminJoins adminJoins.serve.tables],
      ¬ m.label.Strays := by
    rintro m hm ⟨u, o, hplaces, hsa, -⟩
    rw [List.mem_singleton.mp hm] at hplaces hsa
    obtain ⟨rfl, rfl, -⟩ := hplaces
    exact absurd hsa (by decide)
  exact (homed_iff _ _ _ Tables.staffed_twoTenants Tables.homed_twoTenants
    (Run.single hstep)).mpr hsafe _ (List.mem_singleton.mpr rfl)

/-- The owner of `acme` makes a service account and the owner of `bolt` adds it there. -/
def strayingCalls : List (Uuid × Uuid × RosterRequest) :=
  [(0x11, 0xa, .createServiceAccount ⟨0xa, "bot", none⟩),
    (0x12, 0xb, .addUser ⟨0x21, 0xb, "org_member"⟩)]

/-- A service account of one tenant becomes a member of another. -/
theorem account_strays :
    ∃ ms t, Run (@Step asciiPlatform.toCaseMapping asciiPlatform.toArgon2) .twoTenants ms t ∧
      Tables.twoTenants.Staffed ∧ Tables.twoTenants.Homed ∧ ¬ t.Homed := by
  obtain ⟨ms, hrun⟩ := @run_afterCalls asciiPlatform .twoTenants strayingCalls
  refine ⟨ms, _, hrun, Tables.staffed_twoTenants, Tables.homed_twoTenants, fun hhomed => ?_⟩
  have hrow : ⟨0x21, 0xb, 0x104, 0⟩ ∈
      (afterCalls asciiPlatform .twoTenants strayingCalls).userOrganisationRoles.rows := by
    decide +kernel
  exact absurd (hhomed _ hrow (by decide +kernel)) (by decide +kernel)

end Runs
end Egras
