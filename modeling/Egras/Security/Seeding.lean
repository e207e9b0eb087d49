import Egras.Membership.Homes
import Egras.Security.Identifiers

/-!
# Whether a failed seeding leaves nothing behind

`bootstrap_seed_admin` sends its statements to the pool one by one, the user before its role is
looked up. A call that fails before the user is stored leaves the tables alone and one that returns
has added the user, its role row and the audit event. A call that stores the user and then finds no
such role, or loses one of its last statements, fails as well and leaves the user, whose email the
next attempt refuses. So seeding is all or nothing exactly when the calls that store the user
complete (`seedsWhole_iff`).
-/

namespace Egras
open Lib

variable {w v v' : World} {input : SeedAdminInput} {out : SeedAdminOutput} {userId orgId : Uuid}

/-! ## What follows the user -/

namespace Tables
variable {t t' : Tables} {event : AuditEvent}

/-- An assignment leaves the events alone. -/
lemma auditEvents_of_assignRole {r : UserOrganisationRole} (h : t.assignRole r = .ok t') :
    t'.auditEvents = t.auditEvents := by
  by_cases hadd : t.Addable r
  · rw [assignRole_of_addable hadd] at h
    cases h
    exact addRole_auditEvents
  · rw [assignRole_eq_ok h hadd]

/-- The other tables are as they were. -/
def SeedsOnly (t t' : Tables) : Prop :=
  t' = { t with
    users := t'.users
    userOrganisationRoles := t'.userOrganisationRoles
    auditEvents := t'.auditEvents }

/-- One seed after another. -/
lemma SeedsOnly.trans {t'' : Tables} (h : t.SeedsOnly t') (h' : t'.SeedsOnly t'') :
    t.SeedsOnly t'' := by
  unfold SeedsOnly at *
  refine h'.trans ?_
  rw [h]

/-- A new user is a seed. -/
lemma seedsOnly_addUser {new : User} : t.SeedsOnly (t.addUser new) := by
  unfold SeedsOnly addUser
  split <;> rfl

/-- A new role row is a seed. -/
lemma seedsOnly_addRole {r : UserOrganisationRole} : t.SeedsOnly (t.addRole r) := by
  unfold SeedsOnly addRole
  split <;> rfl

/-- A new event is a seed. -/
lemma seedsOnly_of_insertAuditEvent (h : t.insertAuditEvent event = .ok t') : t.SeedsOnly t' := by
  unfold SeedsOnly
  refine (insertAuditEvent_eq_ok h).2.2.trans ?_
  rw [(insertAuditEvent_eq_ok h).2.2]

end Tables

/-- What follows the user, when it goes through, has written the role row and the event. -/
lemma seedMembership_returns {role : Role} (ha : v.answersAll 3 = true)
    (hrole : v.tables.roleByCode input.roleCode = some role)
    (hadd : v.tables.Addable ⟨userId, orgId, role.id, v.now⟩)
    (hfresh : ∀ e ∈ v.tables.auditEvents, e.id ≠ v.uuids.headD 0) :
    ∃ stamp v', (seedMembership input userId orgId).run v = (.ok ⟨userId⟩, v') ∧
      (v.tables.addRole ⟨userId, orgId, role.id, v.now⟩).insertAuditEvent
        (.adminSeeded stamp userId orgId input.roleCode) = .ok v'.tables := by
  simp only [World.answersAll_succ, World.answersAll_zero, Bool.and_true, Bool.and_eq_true] at ha
  obtain ⟨h₁, h₂, h₃⟩ := ha
  obtain ⟨t, ht⟩ : ∃ t, (v.tables.addRole ⟨userId, orgId, role.id, v.now⟩).insertAuditEvent
      (.adminSeeded ⟨v.uuids.headD 0, v.now⟩ userId orgId input.roleCode) = .ok t :=
    Tables.insertAuditEvent_of_fresh fun e he => hfresh e (Tables.addRole_auditEvents ▸ he)
  refine ⟨⟨v.uuids.headD 0, v.now⟩,
    { v.tick.tick.tick with tables := t, uuids := v.uuids.tail }, ?_, ht⟩
  unfold seedMembership findRoleId
  rw [run_query_bind, if_pos h₁, hrole]
  simp only [Option.map_some]
  have hassign := return_eq_ok.mpr ⟨Tables.assignRole_of_addable hadd, Eq.refl ()⟩
  refine Prog.run_bind_ok (Prog.run_mapErr_ok (run_execute_ok h₂ hassign)) ?_
  refine Prog.run_bind_ok rfl ?_
  have hinsert := return_eq_ok.mpr ⟨ht, Eq.refl ()⟩
  exact Prog.run_bind_ok (Prog.run_mapErr_ok (run_execute_ok h₃ hinsert)) rfl

/-- What it tells of the world it started in when it returns. -/
lemma seedMembership_eq_ok (h : (seedMembership input userId orgId).run v = (.ok out, v')) :
    v.answersAll 3 = true ∧ (v.tables.roleByCode input.roleCode).isSome = true ∧
      ∀ e ∈ v.tables.auditEvents, e.id ≠ v.uuids.headD 0 := by
  obtain ⟨found, v₁, hfind, h⟩ := Prog.bind_eq_ok h
  obtain ⟨rfl, rfl, h₁⟩ := query_eq_ok (Prog.mapErr_eq_ok hfind)
  cases hrole : v.tables.roleByCode input.roleCode with
  | none =>
    rw [hrole] at h
    cases h
  | some role =>
    rw [hrole] at h
    obtain ⟨_, v₂, hassign, h⟩ := Prog.bind_eq_ok h
    obtain ⟨t, heffect, rfl, h₂⟩ := execute_eq_ok (Prog.mapErr_eq_ok hassign)
    obtain ⟨stamp, v₃, hstamp, h⟩ := Prog.bind_eq_ok h
    cases hstamp
    obtain ⟨_, v₄, hinsert, -⟩ := Prog.bind_eq_ok h
    obtain ⟨t', heffect', -, h₃⟩ := execute_eq_ok (Prog.mapErr_eq_ok hinsert)
    refine ⟨?_, rfl, ?_⟩
    · have h₂' : v.tick.answers = true := h₂
      have h₃' : v.tick.tick.answers = true := h₃
      simp [World.answersAll_succ, h₁, h₂', h₃']
    · have hevents : t.auditEvents = v.tables.auditEvents :=
        Tables.auditEvents_of_assignRole (return_eq_ok.mp heffect).1
      have hfresh := (Tables.insertAuditEvent_eq_ok (return_eq_ok.mp heffect').1).1
      intro e he
      exact hfresh e (hevents ▸ he)

/-! ## All or nothing -/

/-- The role row and the audit event of a call that stores its user get written: the role exists,
the statements are answered and the event's identifier is new. -/
structure Completes (w : World) (input : SeedAdminInput) : Prop where
  answered : w.answersAll 6 = true
  role : (w.tables.roleByCode input.roleCode).isSome = true
  fresh : ∀ e ∈ w.tables.auditEvents, e.id ≠ w.uuids.tail.headD 0

/-- What seeding is for: one more user, one more membership in the operator organisation with the
role, and one more audit event. -/
def AdminSeeded (t t' : Tables) (input : SeedAdminInput) (userId : Uuid) : Prop :=
  ∃ o ∈ t.organisations, o.name = input.operatorOrgName ∧
  ∃ role ∈ t.roles, role.code = input.roleCode ∧
  ∃ (u : User) (r : UserOrganisationRole) (stamp : Stamp),
    u.id = userId ∧ u.username = input.username ∧ u.email = input.email ∧ u.kind = .human ∧
    r.key = (userId, o.id, role.id) ∧
    t'.users.rows = t.users.rows ++ [u] ∧
    t'.userOrganisationRoles.rows = t.userOrganisationRoles.rows ++ [r] ∧
    t'.auditEvents.rows =
      t.auditEvents.rows ++ [.adminSeeded stamp userId o.id input.roleCode] ∧
    t.SeedsOnly t'

/-- Whether a call completes can be read off the world in which the user has been stored. -/
lemma completes_iff [CaseMapping] (hash : String) (h : w.answersAll 3 = true) : Completes w input ↔
    (userSeeded w input hash).answersAll 3 = true ∧
      ((userSeeded w input hash).tables.roleByCode input.roleCode).isSome = true ∧
      ∀ e ∈ (userSeeded w input hash).tables.auditEvents, e.id ≠ w.uuids.tail.headD 0 := by
  have hroles : (userSeeded w input hash).tables.roleByCode input.roleCode =
      w.tables.roleByCode input.roleCode := by
    unfold Tables.roleByCode userSeeded
    rw [Tables.addUser_roles]
  have hevents : (userSeeded w input hash).tables.auditEvents = w.tables.auditEvents :=
    Tables.addUser_auditEvents
  have ha : w.answersAll 6 = (w.answersAll 3 && (userSeeded w input hash).answersAll 3) := by
    simp only [World.answersAll_succ, World.answersAll_zero, Bool.and_assoc, Bool.true_and]
    rfl
  rw [hroles, hevents]
  constructor
  · rintro ⟨hanswers, hrole, hfresh⟩
    rw [ha, h, Bool.true_and] at hanswers
    exact ⟨hanswers, hrole, hfresh⟩
  · rintro ⟨hanswers, hrole, hfresh⟩
    exact ⟨by rw [ha, h, hanswers]; rfl, hrole, hfresh⟩

section Whole
variable [Argon2] [CaseMapping] {hash : String}

/-- Seeding in this world is all or nothing: a call that fails leaves the users, the memberships and
the audit events alone, so that no later call is answered otherwise than without the failed one, and
a call that returns has added what it is for. -/
structure SeedsWhole (w : World) (input : SeedAdminInput) : Prop where
  undone : ∀ e v, (bootstrapSeedAdmin input).run w = (.error e, v) →
    v.tables.users = w.tables.users ∧
      v.tables.userOrganisationRoles = w.tables.userOrganisationRoles ∧
      v.tables.auditEvents = w.tables.auditEvents
  retried : ∀ e v, (bootstrapSeedAdmin input).run w = (.error e, v) → ∀ (again : World) retry,
    again.tables = v.tables →
    ((bootstrapSeedAdmin retry).run again).1 =
      ((bootstrapSeedAdmin retry).run { again with tables := w.tables }).1
  done : ∀ out v, (bootstrapSeedAdmin input).run w = (.ok out, v) →
    AdminSeeded w.tables v.tables input out.userId

/-- A call that leaves the tables alone when it fails is all or nothing when it does fail. -/
lemma seedsWhole_of_error {e : SeedAdminError}
    (hrun : (bootstrapSeedAdmin input).run w = (.error e, v)) (hv : v.tables = w.tables) :
    SeedsWhole w input := by
  refine ⟨fun e' v' h => ?_, fun e' v' h again retry hagain => ?_, fun out v' h => ?_⟩
  · cases hrun.symm.trans h
    simp only [hv, and_self]
  · cases hrun.symm.trans h
    rw [← hv, ← hagain]
  · cases hrun.symm.trans h

/-- In the world in which the user has been stored, its role row can be added. -/
lemma addable_userSeeded {o : Organisation} {role : Role} (hstaffed : w.tables.Staffed)
    (hboots : Bootstraps w input hash) (ho : o ∈ w.tables.organisations)
    (hrole : (userSeeded w input hash).tables.roleByCode input.roleCode = some role) :
    (userSeeded w input hash).tables.Addable
      ⟨w.uuids.headD 0, o.id, role.id, (userSeeded w input hash).now⟩ where
  fresh := by
    refine Bool.eq_false_iff.mpr fun h => ?_
    obtain ⟨r, hr, hkey⟩ := Tables.hasRole_iff.mp h
    have hr' : r ∈ w.tables.userOrganisationRoles := Tables.addUser_userOrganisationRoles ▸ hr
    have hid : r.userId = w.uuids.headD 0 := congrArg Prod.fst hkey
    have hstored := hstaffed r hr'
    rw [hid] at hstored
    exact absurd hstored (Bool.eq_false_iff.mp hboots.free.id)
  user := Tables.hasUser_iff.mpr ⟨_, (Tables.mem_addUser hboots.free).mpr (Or.inr rfl), rfl⟩
  organisation := by
    refine Tables.addUser_hasOrganisation.trans ?_
    exact Table.any_eq_true.mpr ⟨o, ho, decide_eq_true rfl⟩
  role := Tables.hasRoleId_of_roleByCode hrole

/-- A call that stores the user and completes has added what seeding is for. -/
lemma adminSeeded_of_completes {o : Organisation} (hstaffed : w.tables.Staffed)
    (hboots : Bootstraps w input hash) (hcompletes : Completes w input)
    (ho : w.tables.organisations.rows.find? (fun o => o.name = input.operatorOrgName) = some o) :
    ∃ v, (seedMembership input (w.uuids.headD 0) o.id).run (userSeeded w input hash) =
        (.ok ⟨w.uuids.headD 0⟩, v) ∧
      AdminSeeded w.tables v.tables input (w.uuids.headD 0) := by
  have hmem : o ∈ w.tables.organisations := List.mem_of_find?_eq_some ho
  have hname : o.name = input.operatorOrgName := by simpa using List.find?_some ho
  obtain ⟨ha, hsome, hfresh⟩ := (completes_iff hash hboots.answered).mp hcompletes
  obtain ⟨role, hrole⟩ := Option.isSome_iff_exists.mp hsome
  have hadd := addable_userSeeded hstaffed hboots hmem hrole
  obtain ⟨stamp, v, hrun, hinsert⟩ := seedMembership_returns ha hrole hadd hfresh
  refine ⟨v, hrun, o, hmem, hname, role, ?_⟩
  have hstored : role ∈ w.tables.roles :=
    Tables.addUser_roles ▸ List.mem_of_find?_eq_some hrole
  have hcode : role.code = input.roleCode := by simpa using List.find?_some hrole
  obtain ⟨-, hevents, hrest⟩ := Tables.insertAuditEvent_eq_ok hinsert
  have hroles := Tables.addRole_rows hadd
  have husers := Tables.addUser_rows hboots.free
  refine ⟨hstored, hcode, newUser w input.username input.email hash,
    ⟨w.uuids.headD 0, o.id, role.id, w.now⟩, stamp, rfl, rfl, rfl, rfl, rfl, ?_, ?_, ?_, ?_⟩
  · rw [hrest]
    exact (congrArg Table.rows Tables.addRole_users).trans husers
  · rw [hrest]
    refine hroles.trans ?_
    exact congrArg (· ++ _) (congrArg Table.rows Tables.addUser_userOrganisationRoles)
  · refine hevents.trans ?_
    refine congrArg (· ++ _) (congrArg Table.rows ?_)
    exact Tables.addRole_auditEvents.trans Tables.addUser_auditEvents
  · exact (Tables.seedsOnly_addUser.trans Tables.seedsOnly_addRole).trans
      (Tables.seedsOnly_of_insertAuditEvent hinsert)

/-- Seeding is all or nothing exactly when it fails before the user is stored or completes. -/
theorem seedsWhole_iff (w : World) (input : SeedAdminInput) (hstaffed : w.tables.Staffed) :
    SeedsWhole w input ↔ ∀ hash, Bootstraps w input hash → Completes w input := by
  by_cases hsome : ∃ hash, Bootstraps w input hash
  case neg =>
    have hnot : ∀ hash, ¬ Bootstraps w input hash := fun hash h => hsome ⟨hash, h⟩
    obtain ⟨e, v, hrun, hv⟩ := bootstrapSeedAdmin_fails hnot
    exact iff_of_true (seedsWhole_of_error hrun hv) fun hash h => absurd h (hnot hash)
  obtain ⟨hash, hboots⟩ := hsome
  obtain ⟨o, ho, hrun⟩ := run_bootstrapSeedAdmin hboots
  constructor
  · intro hwhole _ _
    refine (completes_iff hash hboots.answered).mpr ?_
    cases hrest : (seedMembership input (w.uuids.headD 0) o.id).run (userSeeded w input hash) with
    | mk r v =>
      cases r with
      | ok out => exact seedMembership_eq_ok hrest
      | error e =>
        -- the user stays behind
        have husers := (hwhole.undone e v (hrun.trans hrest)).1
        have hstored := bootstrapSeedAdmin_of_bootstraps hboots
        rw [hrun, hrest] at hstored
        have hnew := (Tables.mem_addUser hboots.free).mpr (Or.inr rfl)
        rw [← hstored, husers] at hnew
        have hid := Tables.hasUser_iff.mpr ⟨_, hnew, rfl⟩
        rw [hboots.free.id] at hid
        cases hid
  · intro hcompletes
    obtain ⟨v, hrest, hseeded⟩ :=
      adminSeeded_of_completes hstaffed hboots (hcompletes hash hboots) ho
    rw [← hrun] at hrest
    refine ⟨fun e v' h => ?_, fun e v' h => ?_, fun out v' h => ?_⟩
    · cases hrest.symm.trans h
    · cases hrest.symm.trans h
    · cases hrest.symm.trans h
      exact hseeded

end Whole

/-- The first administrator, with a role that does not exist. -/
def mistyped : SeedAdminInput :=
  ⟨"admin@egras.example", "admin", "changeme", "operator-admin", "operator"⟩

/-- The same with the role corrected. -/
def retyped : SeedAdminInput := { mistyped with roleCode := "operator_admin" }

/-- What seeding with the corrected role adds to the seeded tables. -/
theorem seedsWhole_iff_retyped :
    @AdminSeeded (.seededTables 0)
      ((@bootstrapSeedAdmin plainPlatform.toArgon2 plainPlatform.toCaseMapping retyped).run
        (.calm (.seededTables 0) 0)).2.tables retyped 0x21 := by
  let _ : Platform := plainPlatform
  have hstaffed : (World.calm (.seededTables 0) 0).tables.Staffed :=
    fun _ hr => absurd hr Table.not_mem_empty
  have hcompletes : ∀ hash, Bootstraps (.calm (.seededTables 0) 0) retyped hash →
      Completes (.calm (.seededTables 0) 0) retyped :=
    fun _ _ => ⟨rfl, rfl, fun _ he => absurd he Table.not_mem_empty⟩
  exact ((seedsWhole_iff _ _ hstaffed).mpr hcompletes).done ⟨0x21⟩ _ rfl

/-- A call with a mistyped role fails and leaves its user, so that the call with the role corrected,
which would have been accepted, is refused. -/
theorem mistyped_stays :
    ∃ v, (@bootstrapSeedAdmin plainPlatform.toArgon2 plainPlatform.toCaseMapping mistyped).run
        (.calm (.seededTables 0) 0) = (.error .internal, v) ∧
      v.tables.users ≠ (Tables.seededTables 0).users ∧
      ((@bootstrapSeedAdmin plainPlatform.toArgon2 plainPlatform.toCaseMapping retyped).run
        (.calm v.tables 0)).1 = .error (.userAlreadyExists "admin@egras.example") ∧
      ((@bootstrapSeedAdmin plainPlatform.toArgon2 plainPlatform.toCaseMapping retyped).run
        (.calm (.seededTables 0) 0)).1 = .ok ⟨0x21⟩ := by
  refine ⟨_, rfl, ?_, rfl, rfl⟩
  intro h
  have hlength := congrArg (fun t => t.rows.length) h
  cases hlength

end Egras
