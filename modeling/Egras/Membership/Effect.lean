import Egras.Security.Interface
import Egras.Tenants.Interface

/-!
# What the membership statements do to the tables

For each repository function that writes `user_organisation_roles` the condition under which it
takes effect, a predicate on the state before it (`Joins`, `Leaves`, `Enrols`, `Founds`), and two
lemmas: under the condition it returns with the tables that one pure function gives, otherwise it
leaves the tables alone. The claims about memberships are case analyses over these conditions and do
not look at the statements again.
-/

namespace Egras
open Lib

namespace Tables
variable {t t' : Tables} {r q : UserOrganisationRole} {u o : Uuid}

/-- The tables with one more role row. -/
def addRole (t : Tables) (r : UserOrganisationRole) : Tables :=
  match t.userOrganisationRoles.insert? r with
  | some rows => { t with userOrganisationRoles := rows }
  | none => t

/-- A role row can be added: it is new and what it refers to is stored. -/
structure Addable (t : Tables) (r : UserOrganisationRole) : Prop where
  fresh : t.hasRole r.userId r.organisationId r.roleId = false
  user : t.hasUser r.userId = true
  organisation : t.hasOrganisation r.organisationId = true
  role : t.hasRoleId r.roleId = true

/-- A role is held through a row with its key. -/
lemma hasRole_iff {roleId : Uuid} :
    t.hasRole u o roleId = true ↔ ∃ q ∈ t.userOrganisationRoles, q.key = (u, o, roleId) := by
  simp [hasRole]

/-- A role row whose key is not there can be added. -/
lemma insert?_of_fresh (h : t.hasRole r.userId r.organisationId r.roleId = false) :
    ∃ rows, t.userOrganisationRoles.insert? r = some rows := by
  cases hi : t.userOrganisationRoles.insert? r with
  | some rows => exact ⟨rows, rfl⟩
  | none =>
    obtain ⟨q, hq, hk⟩ := Table.insert?_eq_none.mp hi
    rw [hasRole_iff.mpr ⟨q, hq, hk⟩] at h
    cases h

/-- Adding a row adds this row. -/
lemma mem_addRole (h : t.Addable r) :
    q ∈ (t.addRole r).userOrganisationRoles ↔ q ∈ t.userOrganisationRoles ∨ q = r := by
  obtain ⟨rows, hrows⟩ := insert?_of_fresh h.fresh
  unfold addRole
  rw [hrows]
  exact Table.mem_insert? hrows

/-- A new role row leaves the users alone. -/
@[simp] lemma addRole_users : (t.addRole r).users = t.users := by
  unfold addRole
  split <;> rfl

/-- A new role row leaves the role catalogue alone. -/
@[simp] lemma addRole_roles : (t.addRole r).roles = t.roles := by
  unfold addRole
  split <;> rfl

/-- A new role row leaves the service accounts alone. -/
@[simp] lemma addRole_serviceAccounts : (t.addRole r).serviceAccounts = t.serviceAccounts := by
  unfold addRole
  split <;> rfl

/-- A new role row leaves the audit events alone. -/
@[simp] lemma addRole_auditEvents : (t.addRole r).auditEvents = t.auditEvents := by
  unfold addRole
  split <;> rfl

/-- A role row is added after the ones that are there. -/
lemma addRole_rows (h : t.Addable r) :
    (t.addRole r).userOrganisationRoles.rows = t.userOrganisationRoles.rows ++ [r] := by
  obtain ⟨rows, hrows⟩ := insert?_of_fresh h.fresh
  unfold addRole
  rw [hrows]
  exact (Table.insert?_eq_some hrows).2

/-- A row that can be added is not there yet. -/
lemma Addable.not_mem (h : t.Addable r) : r ∉ t.userOrganisationRoles := by
  intro hr
  have hk := hasRole_iff.mpr ⟨r, hr, rfl⟩
  rw [h.fresh] at hk
  cases hk

/-- The statement adds a role row that the keys admit. -/
lemma insertUserOrganisationRole_of_addable (h : t.Addable r) :
    t.insertUserOrganisationRole r = .ok (t.addRole r) := by
  obtain ⟨rows, hrows⟩ := insert?_of_fresh h.fresh
  unfold insertUserOrganisationRole addRole
  simp [hrows, h.user, h.organisation, h.role]

/-- An accepted insertion was one of a row that can be added. -/
lemma insertUserOrganisationRole_eq_ok (h : t.insertUserOrganisationRole r = .ok t') :
    t.Addable r := by
  unfold insertUserOrganisationRole at h
  split at h
  · cases h
  · rename_i rows hrows
    split at h
    · cases h
    · split at h
      · cases h
      · split at h
        · cases h
        · refine ⟨?_, by simpa using ‹¬(!t.hasUser _) = true›, by simpa using
            ‹¬(!t.hasOrganisation _) = true›, by simpa using ‹¬(!t.hasRoleId _) = true›⟩
          refine Bool.eq_false_iff.mpr (fun hk => ?_)
          obtain ⟨q, hq, hk⟩ := hasRole_iff.mp hk
          exact (Table.insert?_eq_some hrows).1 q hq hk

/-- An insertion that does nothing on a conflict adds the row or leaves the tables alone. -/
lemma assignRole_eq_ok (h : t.assignRole r = .ok t') (hr : ¬ t.Addable r) : t' = t := by
  unfold assignRole at h
  split at h
  · cases h
    rfl
  · exact absurd (insertUserOrganisationRole_eq_ok h) hr

/-- Assigning a role that is held changes nothing. -/
lemma assignRole_of_held (h : t.hasRole r.userId r.organisationId r.roleId = true) :
    t.assignRole r = .ok t := if_pos h

/-- An accepted assignment was one of a row that is there or can be added. -/
lemma addable_of_assignRole (h : t.assignRole r = .ok t')
    (hr : t.hasRole r.userId r.organisationId r.roleId = false) : t.Addable r := by
  unfold assignRole at h
  rw [if_neg (by simp [hr])] at h
  exact insertUserOrganisationRole_eq_ok h

/-- Assigning a role that is not held adds its row. -/
lemma assignRole_of_addable (h : t.Addable r) : t.assignRole r = .ok (t.addRole r) := by
  unfold assignRole
  rw [if_neg (by simp [h.fresh])]
  exact insertUserOrganisationRole_of_addable h

/-- An accepted assignment stores the row or leaves the tables alone. -/
lemma assignRole_stored (h : t.assignRole r = .ok t') :
    t' = t ∨ ∃ rows, t.userOrganisationRoles.insert? r = some rows ∧
      t' = { t with userOrganisationRoles := rows } := by
  by_cases hadd : t.Addable r
  · rw [assignRole_of_addable hadd] at h
    cases h
    obtain ⟨rows, hrows⟩ := insert?_of_fresh hadd.fresh
    exact Or.inr ⟨rows, hrows, by rw [addRole, hrows]⟩
  · exact Or.inl (assignRole_eq_ok h hadd)

/-- A removal takes the rows of the user in the organisation and no others. -/
lemma mem_removeMember :
    q ∈ (t.removeMember u o).userOrganisationRoles ↔
      q ∈ t.userOrganisationRoles ∧ ¬ (q.userId = u ∧ q.organisationId = o) := by
  simp [removeMember, ← not_and]

/-- A member has a role row in the organisation. -/
lemma isMember_iff :
    t.isMember u o = true ↔
      ∃ q ∈ t.userOrganisationRoles, q.userId = u ∧ q.organisationId = o := by
  simp [isMember]

/-- The tables with one more user. -/
def addUser (t : Tables) (new : User) : Tables :=
  match t.users.insert? new with
  | some rows => { t with users := rows }
  | none => t

/-- A new user leaves the role rows alone. -/
@[simp] lemma addUser_userOrganisationRoles {new : User} :
    (t.addUser new).userOrganisationRoles = t.userOrganisationRoles := by
  unfold addUser
  split <;> rfl

/-- A user can be added: its identifier, its name and its email are free. -/
structure FreeUser [CaseMapping] (t : Tables) (new : User) : Prop where
  id : t.hasUser new.id = false
  username : ∀ q ∈ t.users, q.username ≠ new.username
  email : ∀ q ∈ t.users, CaseMapping.lower q.email ≠ CaseMapping.lower new.email

/-- A user is there when a row has its id. -/
lemma hasUser_iff : t.hasUser u = true ↔ ∃ q ∈ t.users, q.id = u := by
  simp [hasUser]

/-- A user whose keys are free can be added. -/
lemma users_insert?_of_free [CaseMapping] {new : User} (h : t.FreeUser new) :
    ∃ rows, t.users.insert? new = some rows := by
  cases hi : t.users.insert? new with
  | some rows => exact ⟨rows, rfl⟩
  | none =>
    have hu := hasUser_iff.mpr (Table.insert?_eq_none.mp hi)
    rw [h.id] at hu
    cases hu

/-- The statement adds a user whose keys are free. -/
lemma insertUser_of_free [CaseMapping] {new : User} (h : t.FreeUser new) :
    t.insertUser new = .ok (t.addUser new) := by
  obtain ⟨rows, hrows⟩ := users_insert?_of_free h
  have hname : t.users.any (fun q => q.username = new.username) = false :=
    Table.any_eq_false.mpr (fun q hq => by simpa using h.username q hq)
  have hemail : t.users.any
      (fun q => CaseMapping.lower q.email = CaseMapping.lower new.email) = false :=
    Table.any_eq_false.mpr (fun q hq => by simpa using h.email q hq)
  unfold insertUser addUser
  simp [hrows, hname, hemail]

/-- A user is added under free keys only. -/
lemma insertUser_eq_ok [CaseMapping] {new : User} (h : t.insertUser new = .ok t') :
    t.FreeUser new ∧ t' = t.addUser new := by
  unfold insertUser at h
  split at h
  · cases h
  · rename_i rows hrows
    split at h
    · cases h
    · rename_i hname
      split at h
      · cases h
      · rename_i hemail
        cases h
        refine ⟨⟨?_, ?_, ?_⟩, by simp [addUser, hrows]⟩
        · refine Bool.eq_false_iff.mpr (fun hu => ?_)
          obtain ⟨q, hq, hid⟩ := hasUser_iff.mp hu
          exact (Table.insert?_eq_some hrows).1 q hq hid
        · simpa using hname
        · simpa using hemail

/-- After adding a user, it is stored and nothing else has changed. -/
lemma mem_addUser [CaseMapping] {new q : User} (hfree : t.FreeUser new) :
    q ∈ (t.addUser new).users ↔ q ∈ t.users ∨ q = new := by
  obtain ⟨rows, hrows⟩ := users_insert?_of_free hfree
  unfold addUser
  rw [hrows]
  exact Table.mem_insert? hrows

/-- A user is added after the ones that are there. -/
lemma addUser_rows [CaseMapping] {new : User} (h : t.FreeUser new) :
    (t.addUser new).users.rows = t.users.rows ++ [new] := by
  obtain ⟨rows, hrows⟩ := users_insert?_of_free h
  unfold addUser
  rw [hrows]
  exact (Table.insert?_eq_some hrows).2

/-- One more user is there than before. -/
lemma addUser_of_free [CaseMapping] {new : User} (h : t.FreeUser new) :
    (t.addUser new).hasUser u = (t.hasUser u || decide (new.id = u)) := by
  obtain ⟨rows, hrows⟩ := users_insert?_of_free h
  unfold addUser hasUser
  rw [hrows, Bool.eq_iff_iff]
  simp [Table.mem_insert? hrows, or_and_right, exists_or]

/-- A new user leaves the organisations alone. -/
@[simp] lemma addUser_hasOrganisation {new : User} :
    (t.addUser new).hasOrganisation o = t.hasOrganisation o := by
  unfold addUser
  split <;> rfl

/-- A new user leaves the service accounts alone. -/
@[simp] lemma addUser_serviceAccounts {new : User} :
    (t.addUser new).serviceAccounts = t.serviceAccounts := by
  unfold addUser
  split <;> rfl

/-- A new user leaves the role catalogue alone. -/
@[simp] lemma addUser_roles {new : User} : (t.addUser new).roles = t.roles := by
  unfold addUser
  split <;> rfl

/-- A new user leaves the audit events alone. -/
@[simp] lemma addUser_auditEvents {new : User} :
    (t.addUser new).auditEvents = t.auditEvents := by
  unfold addUser
  split <;> rfl

/-- A role found by its code is stored. -/
lemma hasRoleId_of_roleByCode {code : String} {role : Role} (h : t.roleByCode code = some role) :
    t.hasRoleId role.id = true :=
  Table.any_eq_true.mpr ⟨role, List.mem_of_find?_eq_some h, decide_eq_true rfl⟩

end Tables

section Add
variable {w : World} {u o : Uuid} {code : String}

/-- Adding a user to an organisation with a role takes effect. -/
structure Joins (w : World) (u o : Uuid) (code : String) (role : Role) : Prop where
  answered : w.answersAll 2 = true
  known : w.tables.roleByCode code = some role
  addable : w.tables.Addable ⟨u, o, role.id, w.now⟩

/-- Adding a member that may join adds its role row. -/
lemma addMember_of_joins {role : Role} (h : Joins w u o code role) :
    ((addMember u o code).run w).2.tables = w.tables.addRole ⟨u, o, role.id, w.now⟩ := by
  have ha := h.answered
  simp only [World.answersAll_succ, World.answersAll_zero, Bool.and_true, Bool.and_eq_true] at ha
  unfold addMember findRoleId
  rw [run_query_bind, if_pos ha.1, h.known]
  simp only [Option.map_some, Prog.run_mapErr, run_execute, World.exec, ha.2, if_true,
    World.tick_tables, World.tick_now, Tables.assignRole_of_addable h.addable]
  rfl

/-- Adding a member that may not join changes nothing. -/
lemma addMember_of_not_joins (h : ∀ role, ¬ Joins w u o code role) :
    ((addMember u o code).run w).2.tables = w.tables := by
  unfold addMember findRoleId
  rw [run_query_bind]
  split
  · rename_i h₁
    cases hrole : w.tables.roleByCode code with
    | none => rfl
    | some role =>
      simp only [Option.map_some, Prog.run_mapErr, run_execute, World.exec]
      split
      · rename_i h₂
        split
        · rename_i a t heq
          cases hassign : w.tick.tables.assignRole ⟨u, o, role.id, w.tick.now⟩ with
          | error e =>
            rw [hassign] at heq
            cases heq
          | ok t' =>
            rw [hassign] at heq
            cases heq
            refine Tables.assignRole_eq_ok hassign (fun hadd => h role ⟨?_, hrole, hadd⟩)
            simp [World.answersAll_succ, h₁, h₂]
        · rfl
      · rfl
  · rfl

end Add

section Remove
variable {w : World} {u o : Uuid}

/-- Removing a user from an organisation takes effect. -/
structure Leaves (w : World) (u o : Uuid) : Prop where
  answered : w.answersAll 6 = true
  member : w.tables.isMember u o = true
  notLast : w.tables.isOwner u o = false ∨ w.tables.otherOwners u o ≠ []

/-- Removing a member that may leave succeeds and removes it. -/
lemma run_removeMemberChecked (h : Leaves w u o) : ∃ v,
    (removeMemberChecked u o).run w = (.ok (), v) ∧ v.tables = w.tables.removeMember u o := by
  have ha := h.answered
  simp only [World.answersAll_succ, World.answersAll_zero, Bool.and_true, Bool.and_eq_true] at ha
  obtain ⟨h₁, h₂, h₃, h₄, h₅, h₆⟩ := ha
  have hmember : w.tick.tables.isMember u o = true := h.member
  have hlast : (!(w.tick.tick.tick.tables.isOwner u o &&
      decide ((w.tick.tick.tables.otherOwners u o).length = 0))) = true := by
    rcases h.notLast with h | h <;> simp [h]
  unfold removeMemberChecked isMember
  rw [run_transaction, if_pos h₁]
  simp only [run_query_bind, run_require_bind, Prog.run_mapErr, run_execute, World.exec, h₂, h₃, h₄,
    h₅, hmember, hlast, if_true]
  refine ⟨_, if_pos h₆, rfl⟩

/-- Removing a member that may leave removes its rows. -/
lemma removeMemberChecked_of_leaves (h : Leaves w u o) :
    ((removeMemberChecked u o).run w).2.tables = w.tables.removeMember u o := by
  obtain ⟨v, hrun, htables⟩ := run_removeMemberChecked h
  rw [hrun]
  exact htables

/-- Removing a member that may not leave changes nothing. -/
lemma removeMemberChecked_of_not_leaves (h : ¬ Leaves w u o) :
    ((removeMemberChecked u o).run w).2.tables = w.tables := by
  cases hrun : (removeMemberChecked u o).run w with
  | mk r t =>
    cases r with
    | error e => exact transaction_rolls_back hrun
    | ok a =>
      obtain ⟨v, hbody, rfl, h₁, h₆⟩ := transaction_eq_ok hrun
      obtain ⟨member, v₁, hq₁, hbody⟩ := Prog.bind_eq_ok hbody
      obtain ⟨rfl, rfl, h₂⟩ := query_eq_ok (Prog.mapErr_eq_ok hq₁)
      obtain ⟨_, v₂, hr₁, hbody⟩ := Prog.bind_eq_ok hbody
      obtain ⟨hmember, rfl⟩ := require_eq_ok hr₁
      obtain ⟨others, v₃, hq₂, hbody⟩ := Prog.bind_eq_ok hbody
      obtain ⟨rfl, rfl, h₃⟩ := query_eq_ok (Prog.mapErr_eq_ok hq₂)
      obtain ⟨owner, v₄, hq₃, hbody⟩ := Prog.bind_eq_ok hbody
      obtain ⟨rfl, rfl, h₄⟩ := query_eq_ok (Prog.mapErr_eq_ok hq₃)
      obtain ⟨_, v₅, hr₂, hbody⟩ := Prog.bind_eq_ok hbody
      obtain ⟨hlast, rfl⟩ := require_eq_ok hr₂
      obtain ⟨tables, he, rfl, h₅⟩ := execute_eq_ok (Prog.mapErr_eq_ok hbody)
      have h₇ : w.tick.tick.tick.tick.tick.answers = true := h₆
      refine absurd ⟨?_, hmember, ?_⟩ h
      · simp [World.answersAll_succ, h₁, h₂, h₃, h₄, h₅, h₇]
      · simpa [Bool.or_eq_true, imp_iff_not_or] using hlast

end Remove

section Register
variable [CaseMapping] {w : World} {username email hash : String} {o : Uuid} {code : String}

/-- The user that a registration creates. -/
def newUser (w : World) (username email hash : String) : User :=
  ⟨w.uuids.headD 0, username, email, hash, .human, w.now, w.now⟩

/-- Creating a user in an organisation with a role takes effect. -/
structure Enrols (w : World) (username email hash : String) (o : Uuid) (code : String)
    (role : Role) : Prop where
  answered : w.answersAll 5 = true
  free : w.tables.FreeUser (newUser w username email hash)
  known : w.tables.roleByCode code = some role
  organisation : w.tables.hasOrganisation o = true
  unheld : w.tables.hasRole (w.uuids.headD 0) o role.id = false

/-- The tables after a registration. -/
def enrolled (w : World) (username email hash : String) (o : Uuid) (role : Role) : Tables :=
  (w.tables.addUser (newUser w username email hash)).addRole ⟨w.uuids.headD 0, o, role.id, w.now⟩

/-- The role row of an enrolled user is accepted beside the new user. -/
lemma Enrols.addable {role : Role} (h : Enrols w username email hash o code role) :
    (w.tables.addUser (newUser w username email hash)).Addable
      ⟨w.uuids.headD 0, o, role.id, w.now⟩ := by
  refine ⟨?_, ?_, ?_, ?_⟩
  · simpa [Tables.hasRole] using h.unheld
  · rw [Tables.addUser_of_free h.free]
    simp [newUser]
  · simpa using h.organisation
  · simpa [Tables.hasRoleId] using Tables.hasRoleId_of_roleByCode h.known

/-- A registration does not depend on the random bytes that are left. -/
lemma Enrols.random_iff {role : Role} {bytes : List (List UInt8)} :
    Enrols { w with random := bytes } username email hash o code role ↔
      Enrols w username email hash o code role :=
  ⟨fun h => ⟨h.answered, h.free, h.known, h.organisation, h.unheld⟩,
    fun h => ⟨h.answered, h.free, h.known, h.organisation, h.unheld⟩⟩

/-- Registering a user that may be enrolled adds the user and its role row. -/
lemma createAndAddToOrg_of_enrols {role : Role} (h : Enrols w username email hash o code role) :
    ((createAndAddToOrg username email hash o code).run w).2.tables =
      enrolled w username email hash o role := by
  have ha := h.answered
  simp only [World.answersAll_succ, World.answersAll_zero, Bool.and_true, Bool.and_eq_true] at ha
  obtain ⟨h₁, h₂, h₃, h₄, h₅⟩ := ha
  have huser : w.tick.tables.insertUser (newUser w username email hash) =
      .ok (w.tables.addUser (newUser w username email hash)) := Tables.insertUser_of_free h.free
  have hrole : (w.tables.addUser (newUser w username email hash)).roleByCode code = some role := by
    simpa [Tables.roleByCode] using h.known
  have hrow := Tables.insertUserOrganisationRole_of_addable h.addable
  refine transaction_tables_of_ok (a := newUser w username email hash)
    (u := { w.tick.tick.tick.tick with
      tables := enrolled w username email hash o role, uuids := w.uuids.tail }) h₁ ?_ h₅
  refine Prog.run_bind_ok rfl ?_
  have hinsert := return_eq_ok.mpr ⟨huser, Eq.refl (newUser w username email hash)⟩
  refine Prog.run_bind_ok (Prog.run_mapErr_ok (run_execute_ok h₂ hinsert)) ?_
  have hfound := congrArg (Option.map Role.id) hrole
  refine Prog.run_bind_ok (Prog.run_mapErr_ok (run_query_of h₃ hfound)) ?_
  have hjoin := return_eq_ok.mpr ⟨hrow, Eq.refl ()⟩
  exact Prog.run_bind_ok (Prog.run_mapErr_ok (run_execute_ok h₄ hjoin)) rfl

/-- A registration that returns was one that takes effect. -/
lemma createAndAddToOrg_eq_ok {user : User} {t : World}
    (h : (createAndAddToOrg username email hash o code).run w = (.ok user, t)) :
    ∃ role, Enrols w username email hash o code role ∧
      user = newUser w username email hash ∧ t.tables = enrolled w username email hash o role := by
  obtain ⟨v, hbody, rfl, h₁, h₅⟩ := transaction_eq_ok h
  obtain ⟨id, v₁, hid, hbody⟩ := Prog.bind_eq_ok hbody
  obtain ⟨rfl, rfl⟩ := nowV7_eq_ok hid
  obtain ⟨row, v₂, hi₁, hbody⟩ := Prog.bind_eq_ok hbody
  obtain ⟨t₁, he₁, rfl, h₂⟩ := execute_eq_ok (Prog.mapErr_eq_ok hi₁)
  obtain ⟨huser, rfl⟩ := return_eq_ok.mp he₁
  obtain ⟨hfree, rfl⟩ := Tables.insertUser_eq_ok huser
  obtain ⟨found, v₃, hq, hbody⟩ := Prog.bind_eq_ok hbody
  obtain ⟨hfound, rfl, h₃⟩ := query_eq_ok (Prog.mapErr_eq_ok hq)
  cases hrole : (w.tables.addUser (newUser w username email hash)).roleByCode code with
  | none =>
    obtain rfl : found = none := hfound.trans (congrArg (Option.map Role.id) hrole)
    cases hbody
  | some role =>
    obtain rfl : found = some role.id := hfound.trans (congrArg (Option.map Role.id) hrole)
    obtain ⟨_, v₄, hi₂, hbody⟩ := Prog.bind_eq_ok hbody
    obtain ⟨t₂, he₂, rfl, h₄⟩ := execute_eq_ok (Prog.mapErr_eq_ok hi₂)
    obtain ⟨hrow, -⟩ := return_eq_ok.mp he₂
    have hadd := Tables.insertUserOrganisationRole_eq_ok hrow
    have hused := Tables.insertUserOrganisationRole_of_addable hadd
    cases hbody
    refine ⟨role, ⟨?_, hfree, ?_, ?_, ?_⟩, rfl, ?_⟩
    · have h₂' : w.tick.answers = true := h₂
      have h₃' : w.tick.tick.answers = true := h₃
      have h₄' : w.tick.tick.tick.answers = true := h₄
      have h₅' : w.tick.tick.tick.tick.answers = true := h₅
      simp [World.answersAll_succ, h₁, h₂', h₃', h₄', h₅']
    · simpa [Tables.roleByCode] using hrole
    · simpa using hadd.organisation
    · simpa [Tables.hasRole] using hadd.fresh
    · exact (Except.ok.inj (hused.symm.trans hrow)).symm

/-- Registering a user that may not be enrolled changes nothing. -/
lemma createAndAddToOrg_of_not_enrols
    (h : ∀ role, ¬ Enrols w username email hash o code role) :
    ((createAndAddToOrg username email hash o code).run w).2.tables = w.tables := by
  cases hrun : (createAndAddToOrg username email hash o code).run w with
  | mk r t =>
    cases r with
    | error e => exact transaction_rolls_back hrun
    | ok a =>
      obtain ⟨role, hrole, -⟩ := createAndAddToOrg_eq_ok hrun
      exact absurd hrole (h role)

end Register

section Create
variable {w : World} {name business code : String} {creator : Uuid}

namespace Tables
variable {t t' : Tables} {new : Organisation} {o : Uuid}

/-- The tables with one more organisation. -/
def addOrganisation (t : Tables) (new : Organisation) : Tables :=
  match t.organisations.insert? new with
  | some rows => { t with organisations := rows }
  | none => t

/-- An organisation can be added: its identifier and its name are free. -/
structure FreeOrganisation (t : Tables) (new : Organisation) : Prop where
  id : t.hasOrganisation new.id = false
  name : ∀ q ∈ t.organisations, q.name ≠ new.name

/-- An organisation whose keys are free can be added. -/
lemma organisations_insert?_of_free (h : t.FreeOrganisation new) :
    ∃ rows, t.organisations.insert? new = some rows := by
  cases hi : t.organisations.insert? new with
  | some rows => exact ⟨rows, rfl⟩
  | none =>
    obtain ⟨q, hq, hid⟩ := Table.insert?_eq_none.mp hi
    have ho : t.hasOrganisation new.id = true := Table.any_eq_true.mpr ⟨q, hq, decide_eq_true hid⟩
    rw [h.id] at ho
    cases ho

/-- The statement adds an organisation whose keys are free. -/
lemma insertOrganisation_of_free (h : t.FreeOrganisation new) :
    t.insertOrganisation new = .ok (t.addOrganisation new) := by
  obtain ⟨rows, hrows⟩ := organisations_insert?_of_free h
  have hname : t.organisations.any (fun q => q.name = new.name) = false :=
    Table.any_eq_false.mpr (fun q hq => by simpa using h.name q hq)
  unfold insertOrganisation addOrganisation
  simp [hrows, hname]

/-- An organisation is added under free keys only. -/
lemma insertOrganisation_eq_ok (h : t.insertOrganisation new = .ok t') :
    t.FreeOrganisation new ∧ t' = t.addOrganisation new := by
  unfold insertOrganisation at h
  split at h
  · cases h
  · rename_i rows hrows
    split at h
    · cases h
    · rename_i hname
      cases h
      refine ⟨⟨?_, ?_⟩, by simp [addOrganisation, hrows]⟩
      · refine Bool.eq_false_iff.mpr (fun ho => ?_)
        obtain ⟨q, hq, hid⟩ := Table.any_eq_true.mp ho
        exact (Table.insert?_eq_some hrows).1 q hq (of_decide_eq_true hid)
      · simpa using hname

/-- An organisation is added after the ones that are there. -/
lemma addOrganisation_rows (h : t.FreeOrganisation new) :
    (t.addOrganisation new).organisations.rows = t.organisations.rows ++ [new] := by
  obtain ⟨rows, hrows⟩ := organisations_insert?_of_free h
  unfold addOrganisation
  rw [hrows]
  exact (Table.insert?_eq_some hrows).2

/-- A new organisation leaves the role rows alone. -/
@[simp] lemma addOrganisation_userOrganisationRoles :
    (t.addOrganisation new).userOrganisationRoles = t.userOrganisationRoles := by
  unfold addOrganisation
  split <;> rfl

/-- A new organisation leaves the users alone. -/
@[simp] lemma addOrganisation_users : (t.addOrganisation new).users = t.users := by
  unfold addOrganisation
  split <;> rfl

/-- A new organisation leaves the role catalogue alone. -/
@[simp] lemma addOrganisation_roles : (t.addOrganisation new).roles = t.roles := by
  unfold addOrganisation
  split <;> rfl

/-- A new organisation leaves the service accounts alone. -/
@[simp] lemma addOrganisation_serviceAccounts :
    (t.addOrganisation new).serviceAccounts = t.serviceAccounts := by
  unfold addOrganisation
  split <;> rfl

end Tables

/-- The organisation that a request creates. -/
def newOrganisation (w : World) (name business : String) : Organisation :=
  ⟨w.uuids.headD 0, name, business, false, w.now, w.now⟩

/-- An organisation created without an owner has no members. -/
lemma createOrganisationRow_eq_ok {org : Organisation} {t : World}
    (h : (createOrganisationRow name business).run w = (.ok org, t)) :
    w.answers = true ∧ w.tables.FreeOrganisation (newOrganisation w name business) ∧
      org = newOrganisation w name business ∧
      t = { w.tick with
        tables := w.tables.addOrganisation (newOrganisation w name business)
        uuids := w.uuids.tail } := by
  obtain ⟨id, v, hid, h⟩ := Prog.bind_eq_ok h
  obtain ⟨rfl, rfl⟩ := nowV7_eq_ok hid
  obtain ⟨t', he, rfl, hw⟩ := execute_eq_ok (Prog.mapErr_eq_ok h)
  obtain ⟨hinsert, rfl⟩ := return_eq_ok.mp he
  obtain ⟨hfree, rfl⟩ := Tables.insertOrganisation_eq_ok hinsert
  exact ⟨hw, hfree, rfl, rfl⟩

/-- Creating an organisation with its creator as owner takes effect. -/
structure Founds (w : World) (name business : String) (creator : Uuid) (code : String)
    (role : Role) : Prop where
  answered : w.answersAll 5 = true
  free : w.tables.FreeOrganisation (newOrganisation w name business)
  known : w.tables.roleByCode code = some role
  addable : (w.tables.addOrganisation (newOrganisation w name business)).Addable
    ⟨creator, w.uuids.headD 0, role.id, w.now⟩

/-- The tables after an organisation has been created with its creator as owner. -/
def founded (w : World) (name business : String) (creator : Uuid) (role : Role) : Tables :=
  (w.tables.addOrganisation (newOrganisation w name business)).addRole
    ⟨creator, w.uuids.headD 0, role.id, w.now⟩

/-- An organisation created with an owner has one member, in the role of that code. -/
lemma createWithInitialOwner_eq_ok {org : Organisation} {t : World}
    (h : (createWithInitialOwner name business creator code).run w = (.ok org, t)) :
    ∃ role, Founds w name business creator code role ∧
      t.tables = founded w name business creator role ∧ org = newOrganisation w name business := by
  obtain ⟨v, hbody, rfl, h₁, h₅⟩ := transaction_eq_ok h
  obtain ⟨row, v₁, hrow, hbody⟩ := Prog.bind_eq_ok hbody
  obtain ⟨h₂, hfree, rfl, rfl⟩ := createOrganisationRow_eq_ok hrow
  obtain ⟨found, v₂, hq, hbody⟩ := Prog.bind_eq_ok hbody
  obtain ⟨hfound, rfl, h₃⟩ := query_eq_ok (Prog.mapErr_eq_ok hq)
  have hroles : (w.tables.addOrganisation (newOrganisation w name business)).roleByCode code =
      w.tables.roleByCode code := by
    simp [Tables.roleByCode]
  have hfound' := hfound.trans (congrArg (Option.map Role.id) hroles)
  cases hrole : w.tables.roleByCode code with
  | none =>
    obtain rfl : found = none := hfound'.trans (congrArg (Option.map Role.id) hrole)
    cases hbody
  | some role =>
    obtain rfl : found = some role.id := hfound'.trans (congrArg (Option.map Role.id) hrole)
    obtain ⟨_, v₃, hi, hbody⟩ := Prog.bind_eq_ok hbody
    obtain ⟨t', he, rfl, h₄⟩ := execute_eq_ok (Prog.mapErr_eq_ok hi)
    obtain ⟨hjoin, -⟩ := return_eq_ok.mp he
    cases hbody
    have hadd := Tables.insertUserOrganisationRole_eq_ok hjoin
    have hjoined := Tables.insertUserOrganisationRole_of_addable hadd
    refine ⟨role, ⟨?_, hfree, hrole, hadd⟩, (Except.ok.inj (hjoined.symm.trans hjoin)).symm, rfl⟩
    have h₂' : w.tick.answers = true := h₂
    have h₃' : w.tick.tick.answers = true := h₃
    have h₄' : w.tick.tick.tick.answers = true := h₄
    have h₅' : w.tick.tick.tick.tick.answers = true := h₅
    simp [World.answersAll_succ, h₁, h₂', h₃', h₄', h₅']

/-- Founding with an owner adds the organisation and the role row of its owner. -/
lemma createWithInitialOwner_of_founds {role : Role} (h : Founds w name business creator code role) :
    ((createWithInitialOwner name business creator code).run w).2.tables =
      founded w name business creator role := by
  have ha := h.answered
  simp only [World.answersAll_succ, World.answersAll_zero, Bool.and_true, Bool.and_eq_true] at ha
  obtain ⟨h₁, h₂, h₃, h₄, h₅⟩ := ha
  have horg : w.tick.tables.insertOrganisation (newOrganisation w name business) =
      .ok (w.tables.addOrganisation (newOrganisation w name business)) :=
    Tables.insertOrganisation_of_free h.free
  have hrole : (w.tables.addOrganisation (newOrganisation w name business)).roleByCode code =
      some role := by
    simpa [Tables.roleByCode] using h.known
  have hrow := Tables.insertUserOrganisationRole_of_addable h.addable
  refine transaction_tables_of_ok (a := newOrganisation w name business)
    (u := { w.tick.tick.tick.tick with
      tables := founded w name business creator role, uuids := w.uuids.tail }) h₁ ?_ h₅
  have hinsert := return_eq_ok.mpr ⟨horg, Eq.refl (newOrganisation w name business)⟩
  refine Prog.run_bind_ok (Prog.run_bind_ok rfl
    (Prog.run_mapErr_ok (run_execute_ok h₂ hinsert))) ?_
  have hfound := congrArg (Option.map Role.id) hrole
  refine Prog.run_bind_ok (Prog.run_mapErr_ok (run_query_of h₃ hfound)) ?_
  have hjoin := return_eq_ok.mpr ⟨hrow, Eq.refl ()⟩
  exact Prog.run_bind_ok (Prog.run_mapErr_ok (run_execute_ok h₄ hjoin)) rfl

end Create

section Assign
variable {w : World} {actor actorOrg : Uuid} {input : AssignRoleInput}

/-- Whether a user is a service account. -/
def Tables.isServiceAccount (t : Tables) (u : Uuid) : Bool :=
  (t.users.find? u).any (fun user => user.kind = .serviceAccount)

/-- Assigning a role, by an actor that is no operator, is not refused. -/
structure Assigns (w : World) (actor : Uuid) (input : AssignRoleInput) (role : Role) : Prop where
  answered :
    w.answersAll (if w.tables.isServiceAccount input.targetUserId then 7 else 6) = true
  actorIn : w.tables.isMember actor input.organisationId = true
  homed : w.tables.isServiceAccount input.targetUserId = true →
    (w.tables.serviceAccount input.organisationId input.targetUserId).isSome = true
  known : w.tables.roleByCode input.roleCode = some role
  targetIn : w.tables.isMember input.targetUserId input.organisationId = true
  stored : w.tables.hasRole input.targetUserId input.organisationId role.id = true ∨
    w.tables.Addable ⟨input.targetUserId, input.organisationId, role.id, w.now⟩

/-- The guard sends a statement for service accounts only. -/
def guardedWorld (w : World) (u : Uuid) : World :=
  if w.tables.isServiceAccount u then w.tick else w

/-- The guard lets a service account through in its home organisation only. -/
lemma guardServiceAccount_eq_ok {o u : Uuid} {a t}
    (h : (guardServiceAccount (w.tables.users.find? u) o u).run w = (.ok a, t)) :
    t = guardedWorld w u ∧ (w.tables.isServiceAccount u = true →
      w.answers = true ∧ (w.tables.serviceAccount o u).isSome = true) := by
  unfold guardServiceAccount at h
  unfold guardedWorld Tables.isServiceAccount
  cases hfind : w.tables.users.find? u with
  | none =>
    rw [hfind] at h
    cases h
    exact ⟨rfl, fun hsa => (nomatch hsa)⟩
  | some user =>
    rw [hfind] at h
    simp only [Option.any_some, decide_eq_true_eq]
    by_cases hk : user.kind = .serviceAccount
    · simp only [hk, if_true] at h ⊢
      obtain ⟨sa, v, hq, h⟩ := Prog.bind_eq_ok h
      obtain ⟨rfl, rfl, hw⟩ := query_eq_ok (Prog.mapErr_eq_ok hq)
      obtain ⟨hsome, rfl⟩ := require_eq_ok h
      exact ⟨rfl, fun _ => ⟨hw, hsome⟩⟩
    · simp only [hk, if_false] at h ⊢
      cases h
      exact ⟨rfl, False.elim⟩

/-- The guard leaves blind views alone. -/
lemma reads_guardServiceAccount {τ : Type} {V : World → τ} [Blind V] {target : Option User}
    {o u : Uuid} : Prog.Reads V (guardServiceAccount target o u) := by
  unfold guardServiceAccount
  split
  · exact Prog.Reads.ret
  · split
    · exact Prog.Reads.bind (Prog.Reads.mapErr (reads_query Blind.tick)) fun _ => reads_require
    · exact Prog.Reads.ret

/-- The guard lets through whoever is no service account, or is one at home. -/
lemma guardServiceAccount_ok {o u : Uuid} (hw : w.tables.isServiceAccount u = true → w.answers = true)
    (hs : w.tables.isServiceAccount u = true → (w.tables.serviceAccount o u).isSome = true) :
    (guardServiceAccount (w.tables.users.find? u) o u).run w = (.ok (), guardedWorld w u) := by
  unfold guardServiceAccount
  unfold guardedWorld Tables.isServiceAccount at *
  cases hfind : w.tables.users.find? u with
  | none => rfl
  | some user =>
    rw [hfind] at hw hs
    simp only [Option.any_some, decide_eq_true_eq] at hw hs ⊢
    by_cases hk : user.kind = .serviceAccount
    · simp only [hk, if_true]
      refine Prog.run_bind_ok (Prog.run_mapErr_ok (run_query_ok (hw hk))) ?_
      rw [hs hk]
      rfl
    · simp only [hk, if_false]
      rfl

/-- The guard leaves the tables as they are. -/
@[simp] lemma guardedWorld_tables {u : Uuid} : (guardedWorld w u).tables = w.tables := by
  unfold guardedWorld
  split <;> rfl

/-- The guard takes no time. -/
@[simp] lemma guardedWorld_now {u : Uuid} : (guardedWorld w u).now = w.now := by
  unfold guardedWorld
  split <;> rfl

/-- The report of an assignment leaves the tables alone. -/
lemma reads_assigned {already : Bool} {event : Stamp → AuditEvent} :
    Prog.Reads World.tables (if already then pure ⟨false⟩ else do
      record event
      pure ⟨true⟩ : Action AssignRoleError AssignRoleOutput) := by
  cases already with
  | true => exact Prog.Reads.ret
  | false => exact Prog.Reads.bind reads_tables_record (fun _ => Prog.Reads.ret)

/-- Assigning a role, by an operator, is not refused. -/
structure OperatorAssigns (w : World) (input : AssignRoleInput) (role : Role) : Prop where
  answered :
    w.answersAll (if w.tables.isServiceAccount input.targetUserId then 6 else 5) = true
  homed : w.tables.isServiceAccount input.targetUserId = true →
    (w.tables.serviceAccount input.organisationId input.targetUserId).isSome = true
  known : w.tables.roleByCode input.roleCode = some role
  targetIn : w.tables.isMember input.targetUserId input.organisationId = true
  stored : w.tables.hasRole input.targetUserId input.organisationId role.id = true ∨
    w.tables.Addable ⟨input.targetUserId, input.organisationId, role.id, w.now⟩

/-- An assignment by an operator that returns was not refused; it adds the role row unless it is
there. -/
lemma operatorAssigns_of_assignRole {out : AssignRoleOutput} {t : World}
    (h : (assignRole actor actorOrg true input).run w = (.ok out, t)) :
    ∃ role, OperatorAssigns w input role ∧
      w.tables.assignRole ⟨input.targetUserId, input.organisationId, role.id, w.now⟩ =
        .ok t.tables := by
  obtain ⟨target, w₂, hq, h⟩ := Prog.bind_eq_ok h
  obtain ⟨rfl, rfl, h₂⟩ := query_eq_ok (Prog.mapErr_eq_ok hq)
  obtain ⟨_, w₃, hguard, h⟩ := Prog.bind_eq_ok h
  obtain ⟨rfl, hsa⟩ := @guardServiceAccount_eq_ok w.tick _ _ _ _ hguard
  obtain ⟨found, w₄, hq, h⟩ := Prog.bind_eq_ok h
  obtain ⟨rfl, rfl, h₃⟩ := query_eq_ok (Prog.mapErr_eq_ok (Prog.mapErr_eq_ok hq))
  rw [guardedWorld_tables] at h
  cases hrole : w.tables.roleByCode input.roleCode with
  | none =>
    rw [show w.tick.tables.roleByCode input.roleCode = none from hrole] at h
    cases h
  | some role =>
    rw [show w.tick.tables.roleByCode input.roleCode = some role from hrole] at h
    obtain ⟨targetIn, w₅, hq, h⟩ := Prog.bind_eq_ok h
    obtain ⟨rfl, rfl, h₄⟩ := query_eq_ok (Prog.mapErr_eq_ok (Prog.mapErr_eq_ok hq))
    obtain ⟨_, w₅, hr, h⟩ := Prog.bind_eq_ok h
    obtain ⟨htarget, rfl⟩ := require_eq_ok hr
    obtain ⟨already, w₆, hq, h⟩ := Prog.bind_eq_ok h
    obtain ⟨rfl, rfl, h₅⟩ := query_eq_ok (Prog.mapErr_eq_ok (Prog.mapErr_eq_ok hq))
    obtain ⟨_, w₇, he, h⟩ := Prog.bind_eq_ok h
    obtain ⟨t', hassign, rfl, h₆⟩ := execute_eq_ok (Prog.mapErr_eq_ok (Prog.mapErr_eq_ok he))
    obtain ⟨hassign, -⟩ := return_eq_ok.mp hassign
    simp only [World.tick_tables, guardedWorld_tables] at htarget hsa
    simp only [World.tick_tables, World.tick_now, guardedWorld_tables, guardedWorld_now] at hassign
    refine ⟨role, ⟨?_, fun hk => (hsa hk).2, hrole, htarget, ?_⟩, ?_⟩
    -- the guard takes a statement more for a service account
    · unfold guardedWorld at h₃ h₄ h₅ h₆
      cases hk : w.tables.isServiceAccount input.targetUserId with
      | true =>
        obtain ⟨h₇, -⟩ := hsa hk
        simp only [World.tick_tables, hk, if_true] at h₃ h₄ h₅ h₆
        simp [World.answersAll_succ, *]
      | false =>
        simp only [World.tick_tables, hk] at h₃ h₄ h₅ h₆
        simp_all [World.answersAll_succ]
    · exact (em _).imp_right (fun hnot => Tables.addable_of_assignRole hassign (by simpa using hnot))
    · exact hassign.trans (congrArg Except.ok (reads_assigned.of_run h).symm)

/-- An assignment that returns was not refused; it adds the role row unless it is there. -/
lemma assignRole_eq_ok {out : AssignRoleOutput} {t : World}
    (h : (assignRole actor actorOrg false input).run w = (.ok out, t)) :
    ∃ role, Assigns w actor input role ∧
      w.tables.assignRole ⟨input.targetUserId, input.organisationId, role.id, w.now⟩ =
        .ok t.tables := by
  obtain ⟨member, w₁, hq, h⟩ := Prog.bind_eq_ok h
  obtain ⟨rfl, rfl, h₁⟩ := query_eq_ok (Prog.mapErr_eq_ok (Prog.mapErr_eq_ok hq))
  obtain ⟨_, w₁, hr, h⟩ := Prog.bind_eq_ok h
  obtain ⟨hactor, rfl⟩ := require_eq_ok hr
  -- past the membership of the actor, the rest is what an operator runs
  obtain ⟨role, hrest, hassign⟩ := operatorAssigns_of_assignRole (w := w.tick) h
  refine ⟨role, ⟨?_, hactor, hrest.homed, hrest.known, hrest.targetIn, hrest.stored⟩, hassign⟩
  have hanswers := hrest.answered
  simp only [World.tick_tables] at hanswers
  cases hk : w.tables.isServiceAccount input.targetUserId with
  | true =>
    simp only [hk, if_true] at hanswers ⊢
    rw [World.answersAll_succ, h₁]
    exact hanswers
  | false =>
    simp only [hk, Bool.false_eq_true, if_false] at hanswers ⊢
    rw [World.answersAll_succ, h₁]
    exact hanswers

/-- An assignment by an operator that fails leaves the tables alone. -/
lemma atomic_operatorAssigns : Prog.Atomic World.tables (assignRole actor actorOrg true input) := by
  refine Prog.Atomic.bind_right (Prog.Reads.mapErr (reads_query fun _ => rfl)) fun target =>
    Prog.Atomic.bind_right reads_guardServiceAccount fun _ => ?_
  refine Prog.Atomic.bind_right (Prog.Reads.mapErr (Prog.Reads.mapErr (reads_query fun _ => rfl)))
    fun found => ?_
  cases found with
  | none => exact Prog.Atomic.of_reads Prog.Reads.fail
  | some role =>
    refine Prog.Atomic.bind_right
      (Prog.Reads.mapErr (Prog.Reads.mapErr (reads_query fun _ => rfl))) fun targetIn => ?_
    refine Prog.Atomic.bind_right reads_require fun _ => ?_
    refine Prog.Atomic.bind_right
      (Prog.Reads.mapErr (Prog.Reads.mapErr (reads_query fun _ => rfl))) fun already => ?_
    refine Prog.Atomic.bind_left (Prog.Atomic.mapErr (Prog.Atomic.mapErr atomic_execute)) fun _ => ?_
    cases already with
    | true => exact Prog.FailsIn.ret
    | false => exact Prog.FailsIn.bind record_failsIn (fun _ => Prog.FailsIn.ret)

/-- An assignment that fails leaves the tables alone. -/
lemma atomic_assignRole : Prog.Atomic World.tables (assignRole actor actorOrg false input) := by
  refine Prog.Atomic.bind_right (Prog.Reads.mapErr (Prog.Reads.mapErr (reads_query fun _ => rfl)))
    fun member => Prog.Atomic.bind_right reads_require fun _ => ?_
  exact atomic_operatorAssigns

/-- The answers that an assignment gets, before, by and after the guard. -/
lemma Assigns.answers {role : Role} (h : Assigns w actor input role) :
    w.answersAll 2 = true ∧
      (w.tables.isServiceAccount input.targetUserId = true → w.tick.tick.answers = true) ∧
      (guardedWorld w.tick.tick input.targetUserId).answersAll 4 = true := by
  have ha := h.answered
  unfold guardedWorld
  cases hk : w.tables.isServiceAccount input.targetUserId with
  | true =>
    simp only [hk, if_true, World.answersAll_succ, Bool.and_eq_true] at ha
    simp [World.answersAll_succ, hk, ha]
  | false =>
    simp only [hk, Bool.false_eq_true, if_false, World.answersAll_succ, Bool.and_eq_true] at ha
    simp [World.answersAll_succ, hk, ha]

/-- An assignment that meets the conditions returns. -/
lemma assignRole_of_assigns (actorOrg : Uuid) {role : Role} (h : Assigns w actor input role) :
    ∃ out t, (assignRole actor actorOrg false input).run w = (.ok out, t) := by
  obtain ⟨hbefore, hguard, hafter⟩ := h.answers
  simp only [World.answersAll_succ, World.answersAll_zero, Bool.and_true, Bool.and_eq_true] at *
  obtain ⟨h₁, h₂⟩ := hbefore
  obtain ⟨h₃, h₄, h₅, h₆⟩ := hafter
  have hassign : ∃ t, w.tables.assignRole
      ⟨input.targetUserId, input.organisationId, role.id, w.now⟩ = .ok t := by
    rcases h.stored with hheld | hadd
    · exact ⟨_, if_pos hheld⟩
    · exact ⟨_, Tables.assignRole_of_addable hadd⟩
  obtain ⟨t, ht⟩ := hassign
  generalize hv : guardedWorld w.tick.tick input.targetUserId = v at *
  have htables : v.tables = w.tables := by
    rw [← hv, guardedWorld_tables]
    rfl
  have hnow : v.now = w.now := by
    rw [← hv, guardedWorld_now]
    rfl
  have hpass := guardServiceAccount_ok (w := w.tick.tick) (u := input.targetUserId)
    (o := input.organisationId) hguard h.homed
  rw [hv] at hpass
  refine Prog.bind_returns (Prog.run_mapErr_ok (Prog.run_mapErr_ok (run_query_ok h₁))) ?_
  rw [h.actorIn]
  refine Prog.bind_returns rfl ?_
  refine Prog.bind_returns (Prog.run_mapErr_ok (run_query_ok h₂)) (Prog.bind_returns hpass ?_)
  refine Prog.bind_returns (Prog.run_mapErr_ok (Prog.run_mapErr_ok (run_query_ok h₃))) ?_
  rw [htables, h.known]
  refine Prog.bind_returns (Prog.run_mapErr_ok (Prog.run_mapErr_ok (run_query_ok h₄))) ?_
  rw [World.tick_tables, htables, h.targetIn]
  refine Prog.bind_returns rfl ?_
  refine Prog.bind_returns (Prog.run_mapErr_ok (Prog.run_mapErr_ok (run_query_ok h₅))) ?_
  have hwrite := return_eq_ok.mpr ⟨ht, Eq.refl ()⟩
  rw [← htables, ← hnow] at hwrite
  refine Prog.bind_returns (Prog.run_mapErr_ok (Prog.run_mapErr_ok (run_execute_ok h₆ hwrite))) ?_
  split
  · exact ⟨_, _, rfl⟩
  · exact ⟨_, _, rfl⟩

end Assign

/-! ## Handlers -/

section Handlers
variable {w : World} {c : AuthedCaller} {kind : Caller}

/-- Behind its permission the handler adds the member, before it nothing. -/
lemma postAddUserToOrganisation_tables {req : AddUserToOrganisationRequest} :
    ((postAddUserToOrganisation (c.extensions kind) req).run w).2.tables =
      if Permission.tenantsMembersAdd.accepts c.permissions then
        ((addMember req.userId req.orgId req.roleCode).run w).2.tables
      else w.tables := by
  unfold postAddUserToOrganisation
  rw [run_authedCaller_bind, run_perm_bind]
  split
  · rw [Prog.Reads.after_bind (V := World.tables), Prog.run_mapErr]
    · unfold addUserToOrganisation
      rw [Prog.Reads.after_bind (V := World.tables), Prog.run_mapErr]
      exact fun _ => reads_tables_record
    · exact fun _ => Prog.Reads.ret
  · rfl

/-- Behind its permission the handler removes the member, before it nothing. -/
lemma postRemoveUserFromOrganisation_tables {req : RemoveUserFromOrganisationRequest} :
    ((postRemoveUserFromOrganisation (c.extensions kind) req).run w).2.tables =
      if Permission.tenantsMembersRemove.accepts c.permissions then
        ((removeMemberChecked req.userId req.orgId).run w).2.tables
      else w.tables := by
  unfold postRemoveUserFromOrganisation
  rw [run_authedCaller_bind, run_perm_bind]
  split
  · rw [Prog.Reads.after_bind (V := World.tables), Prog.run_mapErr]
    · unfold removeUserFromOrganisation
      rw [Prog.Reads.after_bind (V := World.tables), Prog.run_mapErr]
      exact fun _ => reads_tables_record
    · exact fun _ => Prog.Reads.ret
  · rfl

section Register
variable [Argon2]

/-- A password is hashed with a salt of the next random bytes. -/
lemma hashPassword_ok {password hash : String}
    (h : Argon2.hashPassword password ((w.random.headD []).takeD 16 0) = some hash) :
    (hashPassword password).run w = (.ok hash, { w with random := w.random.tail }) := by
  refine Prog.run_bind_ok rfl ?_
  rw [h]
  rfl

/-- A hash is of the password and a salt of the next random bytes. -/
lemma hashPassword_eq_ok {password hash : String} {t : World}
    (h : (hashPassword password).run w = (.ok hash, t)) :
    Argon2.hashPassword password ((w.random.headD []).takeD 16 0) = some hash ∧
      t = { w with random := w.random.tail } := by
  obtain ⟨salt, v, hs, h⟩ := Prog.bind_eq_ok h
  cases hs
  split at h
  · rename_i hash' heq
    cases h
    exact ⟨heq, rfl⟩
  · cases h

/-- Hashing leaves blind views alone. -/
lemma reads_hashPassword {τ : Type} {V : World → τ} [Blind V] {password : String} :
    Prog.Reads V (hashPassword password) := by
  refine Prog.Reads.bind (reads_randomBytes Blind.random) fun salt => ?_
  split
  · exact Prog.Reads.ret
  · exact Prog.Reads.fail

variable [CaseMapping] {req : RegisterRequest}

/-- The checks of a registration before its first statement. -/
structure Registrable (w : World) (req : RegisterRequest) (hash : String) : Prop where
  username : validUsername (trimWs req.username) = true
  email : isValidEmail (CaseMapping.toLowercase (trimWs req.email)) = true
  long : 8 ≤ req.password.utf8ByteSize
  short : req.password.utf8ByteSize ≤ 128
  hashed : Argon2.hashPassword req.password ((w.random.headD []).takeD 16 0) = some hash

/-- A registration that passes the checks writes what the repository does. -/
lemma registerUser_of_registrable {hash : String} {actor actorOrg : Uuid}
    (h : Registrable w req hash) :
    ((registerUser actor actorOrg
      ⟨req.username, req.email, req.password, req.orgId, req.roleCode⟩).run w).2.tables =
      ((createAndAddToOrg (trimWs req.username) (CaseMapping.toLowercase (trimWs req.email)) hash
        req.orgId req.roleCode).run { w with random := w.random.tail }).2.tables := by
  unfold registerUser
  simp only [run_require_bind, h.username, h.email, h.long, h.short, decide_true, if_true]
  rw [Prog.run_bind_ok (Prog.run_mapErr_ok (hashPassword_ok h.hashed)) rfl]
  rw [Prog.Reads.after_bind (V := World.tables), Prog.run_mapErr]
  exact fun user => Prog.Reads.bind reads_tables_record (fun _ => Prog.Reads.ret)

/-- A registration that fails a check writes nothing. -/
lemma registerUser_of_not_registrable {actor actorOrg : Uuid}
    (h : ∀ hash, ¬ Registrable w req hash) :
    ((registerUser actor actorOrg
      ⟨req.username, req.email, req.password, req.orgId, req.roleCode⟩).run w).2.tables =
      w.tables := by
  unfold registerUser
  rw [run_require_bind]
  split
  · rename_i husername
    rw [run_require_bind]
    split
    · rename_i hemail
      rw [run_require_bind]
      split
      · rename_i hlong
        rw [run_require_bind]
        split
        · rename_i hshort
          rw [Prog.run_bind]
          cases hrun : ((hashPassword req.password).mapErr
              (fun _ => RegisterUserError.internal)).run w with
          | mk r t =>
            cases r with
            | ok hash =>
              have hashed := (hashPassword_eq_ok (Prog.mapErr_eq_ok hrun)).1
              exact absurd ⟨husername, hemail, of_decide_eq_true hlong, of_decide_eq_true hshort,
                hashed⟩ (h hash)
            | error e => exact (Prog.Reads.mapErr reads_hashPassword).of_run hrun
        · rfl
      · rfl
    · rfl
  · rfl

/-- For humans with the permission the handler registers, for others nothing. -/
lemma postRegister_tables :
    ((postRegister (c.extensions kind) req).run w).2.tables =
      if kind.isHuman && Permission.tenantsMembersAdd.accepts c.permissions then
        ((registerUser c.claims.sub c.claims.org
          ⟨req.username, req.email, req.password, req.orgId, req.roleCode⟩).run w).2.tables
      else w.tables := by
  unfold postRegister
  rw [run_requireHumanCaller_bind]
  cases kind.isHuman with
  | false => rfl
  | true =>
    rw [if_pos rfl, run_authedCaller_bind, run_perm_bind, Bool.true_and]
    split
    · rw [Prog.Reads.after_bind (V := World.tables), Prog.run_mapErr]
      exact fun _ => Prog.Reads.ret
    · rfl

/-- A registration takes effect when it passes the checks and the repository takes it. -/
structure Registers (w : World) (c : AuthedCaller) (kind : Caller) (req : RegisterRequest)
    (hash : String) (role : Role) : Prop where
  human : kind.isHuman = true
  accepted : Permission.tenantsMembersAdd.accepts c.permissions = true
  registrable : Registrable w req hash
  enrols : Enrols w (trimWs req.username) (CaseMapping.toLowercase (trimWs req.email)) hash
    req.orgId req.roleCode role

/-- A registration that goes through adds the user and its role row. -/
lemma postRegister_of_registers {hash : String} {role : Role}
    (h : Registers w c kind req hash role) :
    ((postRegister (c.extensions kind) req).run w).2.tables =
      enrolled w (trimWs req.username) (CaseMapping.toLowercase (trimWs req.email)) hash
        req.orgId role := by
  rw [postRegister_tables, if_pos (by simp [h.human, h.accepted]),
    registerUser_of_registrable h.registrable,
    createAndAddToOrg_of_enrols (Enrols.random_iff.mpr h.enrols)]
  rfl

/-- A registration that does not go through changes nothing. -/
lemma postRegister_of_not_registers (h : ∀ hash role, ¬ Registers w c kind req hash role) :
    ((postRegister (c.extensions kind) req).run w).2.tables = w.tables := by
  rw [postRegister_tables]
  split
  · rename_i hgate
    obtain ⟨hhuman, haccept⟩ := (Bool.and_eq_true _ _).mp hgate
    by_cases hreg : ∃ hash, Registrable w req hash
    · obtain ⟨hash, hreg⟩ := hreg
      rw [registerUser_of_registrable hreg]
      exact createAndAddToOrg_of_not_enrols (fun role henrols =>
        h hash role ⟨hhuman, haccept, hreg, Enrols.random_iff.mp henrols⟩)
    · exact registerUser_of_not_registrable (fun hash hash' => hreg ⟨hash, hash'⟩)
  · rfl

end Register
end Handlers

/-! ## Sessions -/

section Sessions

/-- Checking a login leaves blind views alone that do not see the audit channel. -/
lemma reads_authenticate [Argon2] {τ : Type} {V : World → τ} [Blind V] {input : LoginInput}
    (ha : ∀ w a, V { w with audit := a } = V w) : Prog.Reads V (authenticate input) := by
  refine Prog.Reads.bind (Prog.Reads.mapErr (reads_query Blind.tick)) fun found => ?_
  cases found with
  | none => exact Prog.Reads.bind (reads_record Blind.uuids ha) fun _ => Prog.Reads.fail
  | some u =>
    refine Prog.Reads.bind (Prog.Reads.mapErr Prog.Reads.ofExcept) fun ok => ?_
    cases ok with
    | true => exact Prog.Reads.ret
    | false => exact Prog.Reads.bind (reads_record Blind.uuids ha) fun _ => Prog.Reads.fail

/-- Hashing anew leaves the views alone that do not see the tables. -/
lemma reads_opportunisticRehash [Argon2] {τ : Type} {V : World → τ} [Aside V] {user : User}
    {password : String} : Prog.Reads V (opportunisticRehash user password) := by
  unfold opportunisticRehash
  split
  · refine Prog.Reads.bind reads_hashPassword.attempt fun hashed => ?_
    cases hashed with
    | ok newHash => exact Prog.Reads.bind reads_execute_aside.attempt fun _ => Prog.Reads.ret
    | error e => exact Prog.Reads.ret
  · exact Prog.Reads.ret

variable [JsonWebToken]

/-- Signing a token leaves blind views alone. -/
lemma reads_encodeAccessToken {τ : Type} {V : World → τ} [Blind V] {config : JwtConfig}
    {userId orgId : Uuid} : Prog.Reads V (encodeAccessToken config userId orgId) := by
  refine Prog.Reads.bind reads_utcNow fun _ => Prog.Reads.bind (reads_nowV7 Blind.uuids) ?_
  intro jti
  split
  · exact Prog.Reads.ret
  · exact Prog.Reads.fail

/-- Switching to another organisation issues a token and writes nothing. -/
lemma reads_postSwitchOrg {config : JwtConfig} {ext : Extensions} {orgId : Uuid} :
    Prog.Reads World.tables (postSwitchOrg config ext orgId) := by
  refine Prog.Reads.bind Prog.Reads.ofExcept fun _ => Prog.Reads.bind Prog.Reads.ofExcept ?_
  intro caller
  refine Prog.Reads.mapErr ?_
  refine Prog.Reads.bind
    (Prog.Reads.mapErr (Prog.Reads.mapErr (reads_query fun _ => rfl))) fun member => ?_
  refine Prog.Reads.bind reads_require fun _ => ?_
  refine Prog.Reads.bind (Prog.Reads.mapErr reads_encodeAccessToken) fun token => ?_
  exact Prog.Reads.bind reads_tables_record fun _ => Prog.Reads.ret

end Sessions
end Egras
