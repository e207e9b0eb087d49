import Egras.Membership.Effect
import Egras.Security.ServiceAccounts
import Egras.Lib.Transition

/-!
# What the roster requests do to the tables

The seven requests that write role rows, or that create and delete the accounts that role rows hang
on (`RosterRequest`), each made by any caller in any world (`RosterCall`). `outcome` says once what
such a request does to the tables, a case for each kind of change with what is known before it;
the invariants of the roster are case analyses over it.

A service account is deleted through its `users` row, and its role rows go with that row by the
cascade of the foreign key (`Dismisses`).

The roster is kept exactly as long as no request takes a certain effect, so the cases carry the
conditions under which it does (`Places`, `Deletes`). What a demand may do at most is said once for
the whole service by its effects (`Service/Effects`).
-/

namespace Egras
open Lib

/-! ## Service accounts -/

namespace Tables
variable {t t' : Tables} {sa : ServiceAccount} {u : Uuid}

/-- The tables with one more service account. -/
def addServiceAccount (t : Tables) (sa : ServiceAccount) : Tables :=
  match t.serviceAccounts.insert? sa with
  | some rows => { t with serviceAccounts := rows }
  | none => t

/-- The statement adds the row that it is given. -/
lemma insertServiceAccount_eq_ok (h : t.insertServiceAccount sa = .ok t') :
    t' = t.addServiceAccount sa ∧ ∃ rows, t.serviceAccounts.insert? sa = some rows := by
  unfold insertServiceAccount at h
  split at h
  · cases h
  · rename_i rows hrows
    split at h
    · cases h
    · split at h
      · cases h
      · split at h
        · cases h
        · split at h
          · cases h
          · cases h
            exact ⟨by simp [addServiceAccount, hrows], rows, hrows⟩

/-- A service account is added after the ones that are there. -/
lemma addServiceAccount_rows {rows} (h : t.serviceAccounts.insert? sa = some rows) :
    (t.addServiceAccount sa).serviceAccounts.rows = t.serviceAccounts.rows ++ [sa] := by
  unfold addServiceAccount
  rw [h]
  exact (Table.insert?_eq_some h).2

/-- A new service account leaves the role rows alone. -/
@[simp] lemma addServiceAccount_userOrganisationRoles :
    (t.addServiceAccount sa).userOrganisationRoles = t.userOrganisationRoles := by
  unfold addServiceAccount
  split <;> rfl

/-- A new service account leaves the users alone. -/
@[simp] lemma addServiceAccount_users : (t.addServiceAccount sa).users = t.users := by
  unfold addServiceAccount
  split <;> rfl

/-- A new service account leaves the role catalogue alone. -/
@[simp] lemma addServiceAccount_roles : (t.addServiceAccount sa).roles = t.roles := by
  unfold addServiceAccount
  split <;> rfl

/-- A deletion that is accepted removes what hangs on the user. -/
lemma deleteUser_eq_ok (h : t.deleteUser u = .ok t') : t' = t.cascadeUser u := by
  unfold deleteUser at h
  dsimp only at h
  split at h
  · cases h
  · split at h
    · cases h
    · split at h
      · cases h
      · cases h
        rfl

end Tables

section Create
variable [CaseMapping] {w : World}

/-- The user that stands for a new service account. -/
def serviceAccountUser (w : World) : User where
  id := w.uuids.headD 0
  username := "sa_" ++ uuidToString (w.uuids.headD 0)
  email := "sa_" ++ uuidToString (w.uuids.headD 0) ++ "@service-account.invalid"
  passwordHash := "!"
  kind := .serviceAccount
  createdAt := w.now
  updatedAt := w.now

/-- A new service account. -/
def newServiceAccount (w : World) (req : NewServiceAccount) : ServiceAccount :=
  ⟨w.uuids.headD 0, req.organisationId, req.name, req.description, w.now, req.createdBy, none⟩

/-- Creating a service account takes effect. -/
structure Hires (w : World) (req : NewServiceAccount) : Prop where
  answered : w.answersAll 4 = true
  free : w.tables.FreeUser (serviceAccountUser w)
  accepted : (w.tables.addUser (serviceAccountUser w)).insertServiceAccount
    (newServiceAccount w req) =
    .ok ((w.tables.addUser (serviceAccountUser w)).addServiceAccount (newServiceAccount w req))

/-- The tables after a service account has been created, with its user. -/
def hired (w : World) (req : NewServiceAccount) : Tables :=
  (w.tables.addUser (serviceAccountUser w)).addServiceAccount (newServiceAccount w req)

variable {req : NewServiceAccount}

/-- A creation that takes effect adds the user and its service account. -/
lemma createServiceAccountRows_of_hires (h : Hires w req) :
    ((createServiceAccountRows req).run w).2.tables = hired w req := by
  have ha := h.answered
  simp only [World.answersAll_succ, World.answersAll_zero, Bool.and_true, Bool.and_eq_true] at ha
  obtain ⟨h₁, h₂, h₃, h₄⟩ := ha
  have huser : w.tick.tables.insertUser (serviceAccountUser w) =
      .ok (w.tables.addUser (serviceAccountUser w)) := Tables.insertUser_of_free h.free
  refine transaction_tables_of_ok (a := newServiceAccount w req)
    (u := { w.tick.tick.tick with tables := hired w req, uuids := w.uuids.tail }) h₁ ?_ h₄
  refine Prog.run_bind_ok rfl ?_
  have hinsert := return_eq_ok.mpr ⟨huser, Eq.refl ()⟩
  refine Prog.run_bind_ok (Prog.run_mapErr_ok (run_execute_ok h₂ hinsert)) ?_
  have haccount := return_eq_ok.mpr ⟨h.accepted, Eq.refl (newServiceAccount w req)⟩
  exact Prog.run_mapErr_ok (run_execute_ok h₃ haccount)

/-- A creation that succeeds took effect, with the row that it returns. -/
lemma createServiceAccountRows_eq_ok {sa : ServiceAccount} {t : World}
    (h : (createServiceAccountRows req).run w = (.ok sa, t)) :
    Hires w req ∧ sa = newServiceAccount w req := by
  obtain ⟨v, hbody, rfl, h₁, h₄⟩ := transaction_eq_ok h
  obtain ⟨id, v₁, hid, hbody⟩ := Prog.bind_eq_ok hbody
  obtain ⟨rfl, rfl⟩ := nowV7_eq_ok hid
  obtain ⟨_, v₂, hi, hbody⟩ := Prog.bind_eq_ok hbody
  obtain ⟨t₁, he, rfl, h₂⟩ := execute_eq_ok (Prog.mapErr_eq_ok hi)
  obtain ⟨huser, -⟩ := return_eq_ok.mp he
  obtain ⟨hfree, rfl⟩ := Tables.insertUser_eq_ok huser
  obtain ⟨t₂, he, rfl, h₃⟩ := execute_eq_ok (Prog.mapErr_eq_ok hbody)
  obtain ⟨hsa, rfl⟩ := return_eq_ok.mp he
  obtain ⟨rfl, -⟩ := Tables.insertServiceAccount_eq_ok hsa
  refine ⟨⟨?_, hfree, hsa⟩, rfl⟩
  have h₂' : w.tick.answers = true := h₂
  have h₃' : w.tick.tick.answers = true := h₃
  have h₄' : w.tick.tick.tick.answers = true := h₄
  simp [World.answersAll_succ, h₁, h₂', h₃', h₄']

/-- A creation that takes no effect changes nothing. -/
lemma createServiceAccountRows_of_not_hires (h : ¬ Hires w req) :
    ((createServiceAccountRows req).run w).2.tables = w.tables := by
  cases hrun : (createServiceAccountRows req).run w with
  | mk r t =>
    cases r with
    | error e => exact transaction_rolls_back hrun
    | ok sa => exact absurd (createServiceAccountRows_eq_ok hrun).1 h

variable {c : AuthedCaller} {kind : Caller}

/-- The caller passes the gates of a handler that works on service accounts of an organisation. -/
def AuthedCaller.managesAccountsOf (c : AuthedCaller) (kind : Caller) (orgId : Uuid) : Bool :=
  kind.isHuman && Permission.serviceAccountsManage.accepts c.permissions && c.mayName orgId

/-- Behind its gates the handler creates the rows, before them nothing. -/
lemma postCreateServiceAccount_tables {req : CreateServiceAccountRequest} :
    ((postCreateServiceAccount (c.extensions kind) req).run w).2.tables =
      if c.managesAccountsOf kind req.organisationId then
        ((createServiceAccountRows
          ⟨req.organisationId, req.name, req.description, c.claims.sub⟩).run w).2.tables
      else w.tables := by
  unfold postCreateServiceAccount AuthedCaller.managesAccountsOf
  rw [run_requireHumanCaller_bind]
  cases kind.isHuman with
  | false => rfl
  | true =>
    rw [if_pos rfl, run_authedCaller_bind, run_perm_bind, Bool.true_and]
    cases Permission.serviceAccountsManage.accepts c.permissions with
    | false => rfl
    | true =>
      rw [if_pos rfl, run_requireOwnOrganisation_bind, Bool.true_and]
      split
      · rw [Prog.Reads.after_bind (V := World.tables), Prog.run_mapErr]
        · unfold createServiceAccount
          rw [Prog.Reads.after_bind (V := World.tables), Prog.run_mapErr]
          exact fun _ => Prog.Reads.bind reads_tables_record fun _ => Prog.Reads.ret
        · exact fun _ => Prog.Reads.ret
      · rfl

end Create

section Delete
variable {w : World} {o u : Uuid}

/-- Deleting a service account of an organisation takes effect. -/
structure Dismisses (w : World) (o u : Uuid) : Prop where
  answered : w.answersAll 2 = true
  homed : (w.tables.serviceAccount o u).isSome = true
  kind : w.tables.users.any (fun q => q.id = u && q.kind = .serviceAccount) = true
  unreferenced : w.tables.deleteUser u = .ok (w.tables.cascadeUser u)

/-- Only service accounts are dismissed. -/
lemma Dismisses.isServiceAccount (h : Dismisses w o u) : w.tables.isServiceAccount u = true := by
  obtain ⟨q, hq, hkind⟩ := Table.any_eq_true.mp h.kind
  obtain ⟨hid, hkind⟩ := (Bool.and_eq_true _ _).mp hkind
  unfold Tables.isServiceAccount
  rw [Table.find?_eq_some.mpr ⟨hq, of_decide_eq_true hid⟩]
  exact hkind

/-- A deletion that takes effect answers yes after its two statements. -/
lemma run_deleteServiceAccountRows (h : Dismisses w o u) :
    (deleteServiceAccountRows o u).run w =
      (.ok true, { w.tick.tick with tables := w.tables.cascadeUser u }) := by
  have ha := h.answered
  simp only [World.answersAll_succ, World.answersAll_zero, Bool.and_true, Bool.and_eq_true] at ha
  obtain ⟨h₁, h₂⟩ := ha
  obtain ⟨sa, hsa⟩ := Option.isSome_iff_exists.mp h.homed
  have hdelete := return_eq_ok.mpr ⟨h.unreferenced, Eq.refl true⟩
  refine Prog.run_bind_ok (run_query_ok h₁) ?_
  rw [hsa]
  refine run_execute_ok h₂ ?_
  rw [World.tick_tables, if_pos h.kind]
  exact hdelete

/-- A deletion that takes effect removes the user and what hangs on it. -/
lemma deleteServiceAccountRows_of_dismisses (h : Dismisses w o u) :
    ((deleteServiceAccountRows o u).run w).2.tables = w.tables.cascadeUser u := by
  rw [run_deleteServiceAccountRows h]

/-- A deletion that fails changes nothing. -/
lemma atomic_deleteServiceAccountRows :
    Prog.Atomic World.tables (deleteServiceAccountRows o u) := by
  refine Prog.Atomic.bind_right (reads_query fun _ => rfl) fun found => ?_
  cases found with
  | none => exact Prog.Atomic.of_reads Prog.Reads.ret
  | some sa => exact atomic_execute

/-- A deletion that takes no effect changes nothing. -/
lemma deleteServiceAccountRows_of_not_dismisses (h : ¬ Dismisses w o u) :
    ((deleteServiceAccountRows o u).run w).2.tables = w.tables := by
  cases hrun : (deleteServiceAccountRows o u).run w with
  | mk r t =>
    cases r with
    | error e => exact atomic_deleteServiceAccountRows w e t hrun
    | ok removed =>
      obtain ⟨found, v, hq, hrun⟩ := Prog.bind_eq_ok hrun
      obtain ⟨rfl, rfl, h₁⟩ := query_eq_ok hq
      cases hsa : w.tables.serviceAccount o u with
      | none =>
        rw [hsa] at hrun
        cases hrun
        rfl
      | some sa =>
        rw [hsa] at hrun
        obtain ⟨tables, he, rfl, h₂⟩ := execute_eq_ok hrun
        split at he
        · rename_i hkind
          obtain ⟨hdelete, -⟩ := return_eq_ok.mp he
          obtain rfl := Tables.deleteUser_eq_ok hdelete
          exact absurd ⟨by simp [World.answersAll_succ, h₁, h₂], by simp [hsa], hkind, hdelete⟩ h
        · cases he
          rfl

variable {c : AuthedCaller} {kind : Caller}

/-- Behind its gates the handler deletes the rows, before them nothing. -/
lemma deleteServiceAccountHandler_tables {saId : Uuid} :
    ((deleteServiceAccountHandler (c.extensions kind) saId).run w).2.tables =
      if kind.isHuman && Permission.serviceAccountsManage.accepts c.permissions then
        ((deleteServiceAccountRows c.claims.org saId).run w).2.tables
      else w.tables := by
  unfold deleteServiceAccountHandler
  rw [run_requireHumanCaller_bind]
  cases kind.isHuman with
  | false => rfl
  | true =>
    rw [if_pos rfl, run_authedCaller_bind, run_perm_bind, Bool.true_and]
    split
    · rw [Prog.Reads.after_bind (V := World.tables), Prog.run_mapErr]
      · unfold deleteServiceAccount
        rw [Prog.Reads.after_bind (V := World.tables), Prog.run_mapErr]
        exact fun _ => Prog.Reads.bind reads_require fun _ => reads_tables_record
      · exact fun _ => Prog.Reads.ret
    · rfl

end Delete

/-! ## Organisations and roles -/

section Organisations
variable {w : World} {c : AuthedCaller} {kind : Caller}

/-- The checks of a new organisation before its first statement. -/
def CreateOrganisationRequest.valid (req : CreateOrganisationRequest) : Bool :=
  (validateFields (validateLength "name" 1 120 req.name ++
    validateLength "business" 1 120 req.business)).isOk &&
  validOrganisationText (trimWs req.name) && validOrganisationText (trimWs req.business)

/-- With valid texts the organisation is created, seeded with its owner or bare. -/
lemma createOrganisation_tables {creator actorOrg : Uuid} {name business : String} {seed : Bool} :
    ((createOrganisation creator actorOrg ⟨name, business, seed⟩).run w).2.tables =
      if validOrganisationText (trimWs name) && validOrganisationText (trimWs business) then
        if seed then
          ((createWithInitialOwner (trimWs name) (trimWs business) creator "org_owner").run w).2.tables
        else ((createOrganisationRow (trimWs name) (trimWs business)).run w).2.tables
      else w.tables := by
  unfold createOrganisation
  simp only [run_require_bind]
  cases validOrganisationText (trimWs name) with
  | false => rfl
  | true =>
    cases validOrganisationText (trimWs business) with
    | false => rfl
    | true =>
      cases seed with
      | true =>
        simp only [Bool.and_true, if_true]
        rw [Prog.Reads.after_bind (V := World.tables), Prog.run_mapErr]
        exact fun _ => Prog.Reads.bind reads_tables_record fun _ => Prog.Reads.ret
      | false =>
        simp only [Bool.and_true, if_true, Bool.false_eq_true, if_false]
        rw [Prog.Reads.after_bind (V := World.tables), Prog.run_mapErr]
        exact fun _ => Prog.Reads.bind reads_tables_record fun _ => Prog.Reads.ret

/-- Behind its gates the handler creates the organisation, before them nothing. -/
lemma postCreateOrganisation_tables {req : CreateOrganisationRequest} :
    ((postCreateOrganisation (c.extensions kind) req).run w).2.tables =
      if Permission.tenantsCreate.accepts c.permissions && req.valid then
        if req.seedCreatorAsOwner then
          ((createWithInitialOwner (trimWs req.name) (trimWs req.business) c.claims.sub
            "org_owner").run w).2.tables
        else ((createOrganisationRow (trimWs req.name) (trimWs req.business)).run w).2.tables
      else w.tables := by
  unfold postCreateOrganisation CreateOrganisationRequest.valid
  rw [run_authedCaller_bind, run_perm_bind]
  cases Permission.tenantsCreate.accepts c.permissions with
  | false => rfl
  | true =>
    rw [if_pos rfl, Bool.true_and, Prog.run_bind, Prog.run_ofExcept]
    cases validateFields (validateLength "name" 1 120 req.name ++
        validateLength "business" 1 120 req.business) with
    | error e => rfl
    | ok _ =>
      simp only [Except.isOk, Except.toBool, Bool.true_and]
      rw [Prog.Reads.after_bind (V := World.tables), Prog.run_mapErr]
      · rw [createOrganisation_tables]
      · exact fun _ => Prog.Reads.ret

/-- A bare organisation that fails to be created changes nothing. -/
lemma atomic_createOrganisationRow {name business : String} :
    Prog.Atomic World.tables (createOrganisationRow name business) :=
  Prog.Atomic.bind_right (reads_nowV7 fun _ _ => rfl) fun _ => Prog.Atomic.mapErr atomic_execute

/-- A role is assigned: its row is there or can be added, and a service account gets it in its home
organisation only. -/
structure Assigned (o u : Uuid) (t t' : Tables) : Prop where
  homed : t.isServiceAccount u = true → (t.serviceAccount o u).isSome = true
  post : ∃ roleId now, t.assignRole ⟨u, o, roleId, now⟩ = .ok t'

/-- An assignment changes nothing or assigns the role, by the operator's path or the other. -/
lemma writes_assignRole {actor actorOrg : Uuid} {isOperator : Bool} {input : AssignRoleInput} :
    Prog.Writes World.tables (Assigned input.organisationId input.targetUserId)
      (assignRole actor actorOrg isOperator input) := by
  cases isOperator with
  | true =>
    refine atomic_operatorAssigns.writes fun w out t hrun => ?_
    obtain ⟨role, hassigns, hpost⟩ := operatorAssigns_of_assignRole hrun
    exact ⟨hassigns.homed, role.id, w.now, hpost⟩
  | false =>
    refine atomic_assignRole.writes fun w out t hrun => ?_
    obtain ⟨role, hassigns, hpost⟩ := assignRole_eq_ok hrun
    exact ⟨hassigns.homed, role.id, w.now, hpost⟩

/-- The handler of assignments changes nothing or assigns the role. -/
lemma writes_postAssignRole {ext : Extensions} {orgId : Uuid} {req : AssignRoleRequest} :
    Prog.Writes World.tables (Assigned orgId req.userId) (postAssignRole ext orgId req) := by
  refine Prog.Writes.bind_right Prog.Reads.ofExcept fun _ => ?_
  refine Prog.Writes.bind_right Prog.Reads.ofExcept fun caller => ?_
  refine Prog.Writes.bind_right Prog.Reads.ofExcept fun _ => ?_
  exact Prog.Writes.bind_left (Prog.Writes.mapErr writes_assignRole) fun _ => Prog.Reads.ret

end Organisations
/-! ## Requests -/

/-- A request that writes role rows, or the accounts that role rows hang on. -/
inductive RosterRequest
  | createOrganisation (req : CreateOrganisationRequest)
  | addUser (req : AddUserToOrganisationRequest)
  | assignRole (orgId : Uuid) (req : AssignRoleRequest)
  | removeUser (req : RemoveUserFromOrganisationRequest)
  | register (req : RegisterRequest)
  | createServiceAccount (req : CreateServiceAccountRequest)
  | deleteServiceAccount (saId : Uuid)

/-- A request with its caller and the world that it is served in. -/
structure RosterCall where
  world : World
  caller : AuthedCaller
  kind : Caller
  request : RosterRequest

namespace RosterCall
variable [CaseMapping]

/-- The request passes the checks of its handler and gives a user that is there already a role row
in an organisation, without a look at the home of service accounts. -/
def Places (x : RosterCall) (u o : Uuid) : Prop :=
  match x.request with
  | .createOrganisation req => u = x.caller.claims.sub ∧ o = x.world.uuids.headD 0 ∧
      (Permission.tenantsCreate.accepts x.caller.permissions && req.valid) = true ∧
      req.seedCreatorAsOwner = true ∧
      ∃ role, Founds x.world (trimWs req.name) (trimWs req.business) u "org_owner" role
  | .addUser req => u = req.userId ∧ o = req.orgId ∧
      Permission.tenantsMembersAdd.accepts x.caller.permissions = true ∧
      ∃ role, Joins x.world u o req.roleCode role
  | _ => False

/-- The request passes the checks of its handler and deletes a service account. -/
def Deletes (x : RosterCall) (u : Uuid) : Prop :=
  match x.request with
  | .deleteServiceAccount saId => u = saId ∧ x.kind.isHuman = true ∧
      Permission.serviceAccountsManage.accepts x.caller.permissions = true ∧
      Dismisses x.world x.caller.claims.org u
  | _ => False

/-- What a request does to the tables. -/
inductive Outcome (x : RosterCall) (t t' : Tables) : Prop
  | same (h : t' = t)
  | founds (org : Organisation) (free : t.FreeOrganisation org) (h : t' = t.addOrganisation org)
  | owns (org : Organisation) (r : UserOrganisationRole) (free : t.FreeOrganisation org)
      (add : (t.addOrganisation org).Addable r) (places : x.Places r.userId r.organisationId)
      (h : t' = (t.addOrganisation org).addRole r)
  | joins (r : UserOrganisationRole) (add : t.Addable r)
      (places : x.Places r.userId r.organisationId) (h : t' = t.addRole r)
  | assigns (r : UserOrganisationRole) (add : t.Addable r)
      (homed : t.isServiceAccount r.userId = true →
        (t.serviceAccount r.organisationId r.userId).isSome = true) (h : t' = t.addRole r)
  | leaves (u o : Uuid) (notLast : t.isOwner u o = false ∨ t.otherOwners u o ≠ [])
      (h : t' = t.removeMember u o)
  | enrols (new : User) (r : UserOrganisationRole) (free : t.FreeUser new) (human : new.kind = .human)
      (own : r.userId = new.id) (add : (t.addUser new).Addable r)
      (h : t' = (t.addUser new).addRole r)
  | hires (req : NewServiceAccount) (hires : Hires x.world req) (h : t' = hired x.world req)
  | dismisses (u : Uuid) (deletes : x.Deletes u) (h : t' = t.cascadeUser u)

variable {w : World} {c : AuthedCaller} {kind : Caller}

/-- Creating an organisation founds it, bare or with the caller as its owner. -/
lemma outcome_createOrganisation {req : CreateOrganisationRequest} :
    Outcome ⟨w, c, kind, .createOrganisation req⟩ w.tables
      ((postCreateOrganisation (c.extensions kind) req).run w).2.tables := by
  rw [postCreateOrganisation_tables]
  split
  · rename_i hgate
    split
    · rename_i hseed
      cases hrun : (createWithInitialOwner (trimWs req.name) (trimWs req.business) c.claims.sub
          "org_owner").run w with
      | mk r t =>
        cases r with
        | error e => exact .same (transaction_rolls_back hrun)
        | ok org =>
          obtain ⟨role, hfounds, htables, -⟩ := createWithInitialOwner_eq_ok hrun
          exact .owns _ _ hfounds.free hfounds.addable ⟨rfl, rfl, hgate, hseed, role, hfounds⟩ htables
    · cases hrun : (createOrganisationRow (trimWs req.name) (trimWs req.business)).run w with
      | mk r t =>
        cases r with
        | error e => exact .same (atomic_createOrganisationRow w e t hrun)
        | ok org =>
          obtain ⟨-, hfree, -, rfl⟩ := createOrganisationRow_eq_ok hrun
          exact .founds _ hfree rfl
  · exact .same rfl

/-- Adding a user joins it to the organisation or changes nothing. -/
lemma outcome_addUser {req : AddUserToOrganisationRequest} :
    Outcome ⟨w, c, kind, .addUser req⟩ w.tables
      ((postAddUserToOrganisation (c.extensions kind) req).run w).2.tables := by
  rw [postAddUserToOrganisation_tables]
  split
  · rename_i haccept
    by_cases hjoins : ∃ role, Joins w req.userId req.orgId req.roleCode role
    · obtain ⟨role, hjoins⟩ := hjoins
      exact .joins _ hjoins.addable ⟨rfl, rfl, haccept, role, hjoins⟩ (addMember_of_joins hjoins)
    · exact .same (addMember_of_not_joins fun role h => hjoins ⟨role, h⟩)
  · exact .same rfl

/-- Assigning a role adds its row or changes nothing. -/
lemma outcome_assignRole {orgId : Uuid} {req : AssignRoleRequest} :
    Outcome ⟨w, c, kind, .assignRole orgId req⟩ w.tables
      ((postAssignRole (c.extensions kind) orgId req).run w).2.tables := by
  have hwrites : Prog.Writes World.tables (Assigned orgId req.userId)
      (postAssignRole (c.extensions kind) orgId req) := writes_postAssignRole
  rcases hwrites w with hsame | ⟨hhomed, roleId, now, hpost⟩
  · exact .same hsame
  · by_cases hadd : w.tables.Addable ⟨req.userId, orgId, roleId, now⟩
    · refine .assigns _ hadd hhomed ?_
      exact Except.ok.inj (hpost.symm.trans (Tables.assignRole_of_addable hadd))
    · exact .same (Tables.assignRole_eq_ok hpost hadd)

/-- Removing a user takes a member that is not the last owner or changes nothing. -/
lemma outcome_removeUser {req : RemoveUserFromOrganisationRequest} :
    Outcome ⟨w, c, kind, .removeUser req⟩ w.tables
      ((postRemoveUserFromOrganisation (c.extensions kind) req).run w).2.tables := by
  rw [postRemoveUserFromOrganisation_tables]
  split
  · by_cases hleaves : Leaves w req.userId req.orgId
    · exact .leaves _ _ hleaves.notLast (removeMemberChecked_of_leaves hleaves)
    · exact .same (removeMemberChecked_of_not_leaves hleaves)
  · exact .same rfl

/-- Creating a service account hires it or changes nothing. -/
lemma outcome_createServiceAccount {req : CreateServiceAccountRequest} :
    Outcome ⟨w, c, kind, .createServiceAccount req⟩ w.tables
      ((postCreateServiceAccount (c.extensions kind) req).run w).2.tables := by
  rw [postCreateServiceAccount_tables]
  split
  · by_cases hhires : Hires w ⟨req.organisationId, req.name, req.description, c.claims.sub⟩
    · exact .hires _ hhires (createServiceAccountRows_of_hires hhires)
    · exact .same (createServiceAccountRows_of_not_hires hhires)
  · exact .same rfl

/-- Deleting a service account dismisses it or changes nothing. -/
lemma outcome_deleteServiceAccount {saId : Uuid} :
    Outcome ⟨w, c, kind, .deleteServiceAccount saId⟩ w.tables
      ((deleteServiceAccountHandler (c.extensions kind) saId).run w).2.tables := by
  rw [deleteServiceAccountHandler_tables]
  split
  · rename_i hgate
    obtain ⟨hhuman, haccept⟩ := (Bool.and_eq_true _ _).mp hgate
    by_cases hdismisses : Dismisses w c.claims.org saId
    · exact .dismisses saId ⟨rfl, hhuman, haccept, hdismisses⟩
        (deleteServiceAccountRows_of_dismisses hdismisses)
    · exact .same (deleteServiceAccountRows_of_not_dismisses hdismisses)
  · exact .same rfl

variable [Argon2]

/-- The world after the handler has run. -/
def serve (x : RosterCall) : World :=
  let ext := x.caller.extensions x.kind
  match x.request with
  | .createOrganisation req => ((postCreateOrganisation ext req).run x.world).2
  | .addUser req => ((postAddUserToOrganisation ext req).run x.world).2
  | .assignRole orgId req => ((postAssignRole ext orgId req).run x.world).2
  | .removeUser req => ((postRemoveUserFromOrganisation ext req).run x.world).2
  | .register req => ((postRegister ext req).run x.world).2
  | .createServiceAccount req => ((postCreateServiceAccount ext req).run x.world).2
  | .deleteServiceAccount saId => ((deleteServiceAccountHandler ext saId).run x.world).2

/-- One request over the tables; the rest of its world is supplied anew. -/
structure Step (t : Tables) (x : RosterCall) (t' : Tables) : Prop where
  pre : x.world.tables = t
  post : x.serve.tables = t'

/-- Registering enrols a human user or changes nothing. -/
lemma outcome_register {req : RegisterRequest} :
    Outcome ⟨w, c, kind, .register req⟩ w.tables
      ((postRegister (c.extensions kind) req).run w).2.tables := by
  by_cases hreg : ∃ hash role, Registers w c kind req hash role
  · obtain ⟨hash, role, hreg⟩ := hreg
    exact .enrols _ _ hreg.enrols.free rfl rfl hreg.enrols.addable (postRegister_of_registers hreg)
  · exact .same (postRegister_of_not_registers fun hash role h => hreg ⟨hash, role, h⟩)

/-- What a request does to the tables, whoever makes it. -/
lemma outcome {x : RosterCall} {t t' : Tables} (h : Step t x t') : Outcome x t t' := by
  obtain ⟨rfl, rfl⟩ := h
  obtain ⟨w, c, kind, request⟩ := x
  cases request with
  | createOrganisation req => exact outcome_createOrganisation
  | addUser req => exact outcome_addUser
  | assignRole orgId req => exact outcome_assignRole
  | removeUser req => exact outcome_removeUser
  | register req => exact outcome_register
  | createServiceAccount req => exact outcome_createServiceAccount
  | deleteServiceAccount saId => exact outcome_deleteServiceAccount

end RosterCall
end Egras
