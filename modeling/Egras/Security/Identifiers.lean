import Egras.Db.Seeds
import Egras.Membership.Roster
import Egras.Security.Bootstrap

/-!
# Whether an identifier denotes one account

A user answers to its username and to its email, and login looks an identifier up in both columns.
The unique indexes keep each column free of duplicates; none compares a username with an email. So
identifiers keep denoting one account, whatever the order of the rows, exactly in the runs in which
no account is created whose username is the email of another one or the other way round
(`resolves_iff`). The accounts are those that `register_user`, `bootstrap_seed_admin` and
`create_service_account` make (`AccountCall`).
-/

namespace Egras
open Lib

/-- Whether an identifier is the username or the email of a user. -/
def User.answersTo (u : User) (s : String) : Bool := u.username = s || u.email = s

namespace Tables
variable {t t' : Tables}

/-- An identifier denotes at most one user. -/
def Unambiguous (t : Tables) : Prop :=
  ∀ s, ∀ u ∈ t.users, ∀ v ∈ t.users, u.answersTo s = true → v.answersTo s = true → u = v

/-- The user that a lookup of an identifier finds. -/
def resolve (t : Tables) (s : String) : Option User := t.users.rows.find? (fun u => u.answersTo s)

/-- The two states of the tables resolve identifiers alike: in the second one an identifier denotes
at most one user, whatever the order of the rows, and the identifiers of the users of the first one
denote whom they denoted. -/
structure Resolves (t t' : Tables) : Prop where
  unambiguous : t'.Unambiguous
  scan : ∀ s (rows : List User), rows.Perm t'.users.rows →
    rows.find? (fun u => u.answersTo s) = t'.resolve s
  stable : ∀ u ∈ t.users, ∀ s, u.answersTo s = true → t'.resolve s = t.resolve s

/-- The user that is found answers to the text. -/
lemma answersTo_of_find? {rows : List User} {s : String} {u : User}
    (h : rows.find? (fun u => u.answersTo s) = some u) : u ∈ rows ∧ u.answersTo s = true := by
  have hs := List.find?_some h
  exact ⟨List.mem_of_find?_eq_some h, hs⟩

/-- In a table without ambiguities a lookup finds the user that answers. -/
lemma Unambiguous.find?_eq (h : t.Unambiguous) {rows : List User} (hrows : ∀ u ∈ rows, u ∈ t.users)
    {s : String} {u : User} (hu : u ∈ rows) (hs : u.answersTo s = true) :
    rows.find? (fun u => u.answersTo s) = some u := by
  cases hf : rows.find? (fun u => u.answersTo s) with
  | none => exact absurd hs (List.find?_eq_none.mp hf u hu)
  | some v =>
    obtain ⟨hv, hvs⟩ := answersTo_of_find? hf
    rw [h s u (hrows u hu) v (hrows v hv) hs hvs]

/-- The order of the rows does not matter in a table without ambiguities. -/
lemma Unambiguous.scan (h : t.Unambiguous) {s : String} {rows : List User}
    (hperm : rows.Perm t.users.rows) : rows.find? (fun u => u.answersTo s) = t.resolve s := by
  cases hf : t.resolve s with
  | none =>
    refine List.find?_eq_none.mpr fun u hu => ?_
    exact List.find?_eq_none.mp hf u (hperm.mem_iff.mp hu)
  | some u =>
    obtain ⟨hu, hs⟩ := answersTo_of_find? hf
    exact h.find?_eq (fun v hv => hperm.mem_iff.mp hv) (hperm.mem_iff.mpr hu) hs

/-- Without ambiguities before and after, users that stay keep their identifiers. -/
lemma resolves_of_unambiguous (h : t.Unambiguous) (h' : t'.Unambiguous)
    (hkept : ∀ u ∈ t.users, u ∈ t'.users) : t.Resolves t' := by
  refine ⟨h', fun s rows hperm => h'.scan hperm, fun u hu s hs => ?_⟩
  have hold : t.resolve s = some u := h.find?_eq (fun _ => id) hu hs
  have hnew : t'.resolve s = some u := h'.find?_eq (fun _ => id) (hkept u hu) hs
  exact hnew.trans hold.symm

/-- Ambiguity is a matter of the users. -/
lemma unambiguous_of_users (h : t'.users = t.users) : t'.Unambiguous ↔ t.Unambiguous := by
  unfold Unambiguous
  rw [h]

/-- The username of a user is the email of another one, or the other way round. -/
def ClashesWith (t : Tables) (new : User) : Prop :=
  ∃ q ∈ t.users, q.email = new.username ∨ q.username = new.email

variable [CaseMapping] {new : User}

/-- A user that can be added and answers to an identifier of a stored one clashes with it. -/
lemma FreeUser.clashes_of_answersTo (hfree : t.FreeUser new) {q : User} (hq : q ∈ t.users)
    {s : String} (hqs : q.answersTo s = true) (hs : new.answersTo s = true) :
    t.ClashesWith new := by
  simp only [User.answersTo, Bool.or_eq_true, decide_eq_true_eq] at hqs hs
  rcases hqs with rfl | rfl
  · rcases hs with hname | hemail
    · exact absurd hname.symm (hfree.username q hq)
    · exact ⟨q, hq, Or.inr hemail.symm⟩
  · rcases hs with hname | hemail
    · exact ⟨q, hq, Or.inl hname.symm⟩
    · exact absurd (congrArg CaseMapping.lower hemail.symm) (hfree.email q hq)

/-- Adding a user creates an ambiguity exactly when it clashes. -/
lemma unambiguous_addUser (h : t.Unambiguous) (hfree : t.FreeUser new) :
    (t.addUser new).Unambiguous ↔ ¬ t.ClashesWith new := by
  constructor
  · rintro hafter ⟨q, hq, hclash⟩
    have hne : q ≠ new := by
      rintro rfl
      have hstored := hasUser_iff.mpr ⟨q, hq, rfl⟩
      rw [hfree.id] at hstored
      cases hstored
    have hq' := (mem_addUser hfree).mpr (Or.inl hq)
    have hnew := (mem_addUser hfree).mpr (Or.inr rfl)
    rcases hclash with hemail | hname
    · exact hne (hafter q.email q hq' new hnew (by simp [User.answersTo])
        (by simp [User.answersTo, hemail]))
    · exact hne (hafter q.username q hq' new hnew (by simp [User.answersTo])
        (by simp [User.answersTo, hname]))
  · intro hsafe s u hu v hv hus hvs
    rcases (mem_addUser hfree).mp hu with hold | rfl
    · rcases (mem_addUser hfree).mp hv with hold' | rfl
      · exact h s u hold v hold' hus hvs
      · exact absurd (hfree.clashes_of_answersTo hold hus hvs) hsafe
    · rcases (mem_addUser hfree).mp hv with hold | rfl
      · exact absurd (hfree.clashes_of_answersTo hold hvs hus) hsafe
      · rfl

end Tables

/-! ## Seeding the first administrator -/

section Bootstrap
variable {w v : World} {input : SeedAdminInput} {hash : String}

/-- What follows the user: its role row and the audit event. -/
def seedMembership (input : SeedAdminInput) (userId orgId : Uuid) :
    Action SeedAdminError SeedAdminOutput := do
  match ← (findRoleId input.roleCode).mapErr (fun _ => SeedAdminError.internal) with
  | none => .fail .internal
  | some roleId =>
    (execute (fun w => do
      let t ← w.tables.assignRole ⟨userId, orgId, roleId, w.now⟩
      return ((), t))).mapErr (fun _ => SeedAdminError.internal)
    let stamp ← newStamp
    (insertAuditEvent (.adminSeeded stamp userId orgId input.roleCode)).mapErr
      (fun _ => SeedAdminError.internal)
    return ⟨userId⟩

/-- What follows the user leaves the users alone. -/
lemma reads_seedMembership {userId orgId : Uuid} :
    Prog.Reads (fun w => w.tables.users) (seedMembership input userId orgId) := by
  refine Prog.Reads.bind (Prog.Reads.mapErr (reads_query fun _ => rfl)) fun found => ?_
  cases found with
  | none => exact Prog.Reads.fail
  | some roleId =>
    refine Prog.Reads.bind (Prog.Reads.mapErr (reads_execute (fun _ => rfl) ?_)) fun _ => ?_
    · intro w a t h
      obtain ⟨hassign, -⟩ := return_eq_ok.mp h
      by_cases hadd : w.tables.Addable ⟨userId, orgId, roleId, w.now⟩
      · rw [Tables.assignRole_of_addable hadd] at hassign
        cases hassign
        exact Tables.addRole_users
      · rw [Tables.assignRole_eq_ok hassign hadd]
    · refine Prog.Reads.bind (Prog.Reads.bind (reads_nowV7 fun _ _ => rfl)
        fun _ => Prog.Reads.bind reads_utcNow fun _ => Prog.Reads.ret) fun stamp => ?_
      refine Prog.Reads.bind (Prog.Reads.mapErr (reads_execute (fun _ => rfl) ?_))
        fun _ => Prog.Reads.ret
      intro w a t h
      rw [(Tables.insertAuditEvent_eq_ok (return_eq_ok.mp h).1).2.2]

variable [CaseMapping]

/-- The world in which the user has been stored. -/
def userSeeded (w : World) (input : SeedAdminInput) (hash : String) : World :=
  { w.tick.tick.tick with
    tables := w.tables.addUser (newUser w input.username input.email hash)
    uuids := w.uuids.tail
    random := w.random.tail }

/-- A user that is refused ends the call and leaves the tables alone. -/
lemma storeUser_fails {new : World → User} {k : Unit → Action SeedAdminError SeedAdminOutput}
    (h : w.answers = true → ¬ w.tables.FreeUser (new w)) :
    ∃ e v, ((execute (fun w => do
      let t ← w.tables.insertUser (new w)
      return ((), t))).mapErr (fun _ => SeedAdminError.internal) >>= k).run w = (.error e, v) ∧
        v.tables = w.tables := by
  rw [run_execute_bind]
  split
  · rename_i hw
    split
    · rename_i a t heffect
      obtain ⟨hinsert, -⟩ := return_eq_ok.mp heffect
      exact absurd (Tables.insertUser_eq_ok hinsert).1 (h hw)
    · exact ⟨_, _, rfl, rfl⟩
  · exact ⟨_, _, rfl, rfl⟩

variable [Argon2]

/-- Seeding an administrator gets as far as storing the user. -/
structure Bootstraps (w : World) (input : SeedAdminInput) (hash : String) : Prop where
  answered : w.answersAll 3 = true
  organisation : (w.tables.organisations.rows.find?
    (fun o => o.name = input.operatorOrgName)).isSome = true
  untaken : w.tables.users.any (fun u => u.email = input.email) = false
  hashed : Argon2.hashPassword input.password ((w.random.headD []).takeD 16 0) = some hash
  free : w.tables.FreeUser (newUser w input.username input.email hash)

/-- Then the call stores the user and goes on from there. -/
lemma run_bootstrapSeedAdmin (h : Bootstraps w input hash) :
    ∃ o, w.tables.organisations.rows.find? (fun o => o.name = input.operatorOrgName) = some o ∧
      (bootstrapSeedAdmin input).run w =
        (seedMembership input (w.uuids.headD 0) o.id).run (userSeeded w input hash) := by
  have ha := h.answered
  simp only [World.answersAll_succ, World.answersAll_zero, Bool.and_true, Bool.and_eq_true] at ha
  obtain ⟨h₁, h₂, h₃⟩ := ha
  obtain ⟨o, ho⟩ := Option.isSome_iff_exists.mp h.organisation
  refine ⟨o, ho, ?_⟩
  unfold bootstrapSeedAdmin organisationByName emailExists
  rw [run_query_bind, if_pos h₁, ho]
  simp only [Option.map_some]
  rw [run_query_bind, if_pos h₂, World.tick_tables, h.untaken, run_require_bind]
  simp only [Bool.not_false, if_true]
  have hhash := hashPassword_ok (w := w.tick.tick) h.hashed
  have hinsert := return_eq_ok.mpr ⟨Tables.insertUser_of_free h.free, Eq.refl ()⟩
  rw [Prog.run_bind_ok (Prog.run_mapErr_ok hhash) rfl, run_nowV7_bind]
  exact Prog.run_bind_ok (Prog.run_mapErr_ok (run_execute_ok h₃ hinsert)) rfl

/-- Otherwise the call fails and leaves the tables alone. -/
lemma bootstrapSeedAdmin_fails (h : ∀ hash, ¬ Bootstraps w input hash) :
    ∃ e v, (bootstrapSeedAdmin input).run w = (.error e, v) ∧ v.tables = w.tables := by
  unfold bootstrapSeedAdmin organisationByName emailExists
  rw [run_query_bind]
  split
  · rename_i h₁
    cases ho : w.tables.organisations.rows.find? (fun o => o.name = input.operatorOrgName) with
    | none => exact ⟨_, _, rfl, rfl⟩
    | some o =>
      simp only [Option.map_some]
      rw [run_query_bind]
      split
      · rename_i h₂
        rw [run_require_bind]
        split
        · rename_i huntaken
          rw [Prog.run_bind]
          cases hrun : ((hashPassword input.password).mapErr
              (fun _ => SeedAdminError.internal)).run w.tick.tick with
          | mk r v =>
            have hv : v.tables = w.tick.tick.tables := (Prog.Reads.mapErr reads_hashPassword).of_run hrun
            cases r with
            | error e => exact ⟨e, v, rfl, hv⟩
            | ok hash =>
              obtain ⟨hashed, rfl⟩ := hashPassword_eq_ok (Prog.mapErr_eq_ok hrun)
              simp only [run_nowV7_bind]
              -- the user is refused, as the call would have got through otherwise
              refine storeUser_fails fun h₃ hfree => h hash ⟨?_, ?_, ?_, hashed, hfree⟩
              · have h₃' : w.tick.tick.answers = true := h₃
                simp [World.answersAll_succ, h₁, h₂, h₃']
              · rw [ho]
                rfl
              · simpa using huntaken
        · exact ⟨_, _, rfl, rfl⟩
      · exact ⟨_, _, rfl, rfl⟩
  · exact ⟨_, _, rfl, rfl⟩

/-- A bootstrap that takes effect adds its user. -/
lemma bootstrapSeedAdmin_of_bootstraps (h : Bootstraps w input hash) :
    ((bootstrapSeedAdmin input).run w).2.tables.users =
      (w.tables.addUser (newUser w input.username input.email hash)).users := by
  obtain ⟨o, -, hrun⟩ := run_bootstrapSeedAdmin h
  rw [hrun]
  exact reads_seedMembership (userSeeded w input hash)

/-- Otherwise the users stay as they were. -/
lemma bootstrapSeedAdmin_of_not_bootstraps (h : ∀ hash, ¬ Bootstraps w input hash) :
    ((bootstrapSeedAdmin input).run w).2.tables.users = w.tables.users := by
  obtain ⟨e, v, hrun, hv⟩ := bootstrapSeedAdmin_fails h
  rw [hrun, hv]

end Bootstrap

/-! ## Accounts -/

/-- A request that creates an account. -/
inductive AccountRequest
  | register (caller : AuthedCaller) (kind : Caller) (req : RegisterRequest)
  | bootstrap (input : SeedAdminInput)
  | createServiceAccount (caller : AuthedCaller) (kind : Caller)
      (req : CreateServiceAccountRequest)

/-- A request with the world that it is served in. -/
structure AccountCall where
  world : World
  request : AccountRequest

namespace AccountCall
variable [Argon2] [CaseMapping]

/-- The world after the request has been served. -/
def serve (x : AccountCall) : World :=
  match x.request with
  | .register caller kind req => ((postRegister (caller.extensions kind) req).run x.world).2
  | .bootstrap input => ((bootstrapSeedAdmin input).run x.world).2
  | .createServiceAccount caller kind req =>
    ((postCreateServiceAccount (caller.extensions kind) req).run x.world).2

/-- One request over the tables; the rest of its world is supplied anew. -/
structure Step (t : Tables) (x : AccountCall) (t' : Tables) : Prop where
  pre : x.world.tables = t
  post : x.serve.tables = t'

/-- The request stores a new user. -/
def Creates (x : AccountCall) (new : User) : Prop :=
  match x.request with
  | .register caller kind req => ∃ hash role, Registers x.world caller kind req hash role ∧
      new = newUser x.world (trimWs req.username) (CaseMapping.toLowercase (trimWs req.email)) hash
  | .bootstrap input => ∃ hash, Bootstraps x.world input hash ∧
      new = newUser x.world input.username input.email hash
  | .createServiceAccount caller kind req =>
    caller.managesAccountsOf kind req.organisationId = true ∧
      Hires x.world ⟨req.organisationId, req.name, req.description, caller.claims.sub⟩ ∧
      new = serviceAccountUser x.world

/-- The request stores a user whose username is the email of a stored one, or the other way
round. -/
def Clashes (x : AccountCall) : Prop := ∃ new, x.Creates new ∧ x.world.tables.ClashesWith new

variable {x : AccountCall} {t t' : Tables} {new : User}

/-- A request that creates a user adds it and does nothing else to the users. -/
lemma users_of_creates (h : x.Creates new) :
    x.world.tables.FreeUser new ∧ x.serve.tables.users = (x.world.tables.addUser new).users := by
  obtain ⟨w, request⟩ := x
  cases request with
  | register caller kind req =>
    obtain ⟨hash, role, hregisters, rfl⟩ := h
    refine ⟨hregisters.enrols.free, ?_⟩
    show ((postRegister (caller.extensions kind) req).run w).2.tables.users = _
    rw [postRegister_of_registers hregisters]
    exact Tables.addRole_users
  | bootstrap input =>
    obtain ⟨hash, hbootstraps, rfl⟩ := h
    exact ⟨hbootstraps.free, bootstrapSeedAdmin_of_bootstraps hbootstraps⟩
  | createServiceAccount caller kind req =>
    obtain ⟨hgate, hhires, rfl⟩ := h
    refine ⟨hhires.free, ?_⟩
    show ((postCreateServiceAccount (caller.extensions kind) req).run w).2.tables.users = _
    rw [postCreateServiceAccount_tables, if_pos hgate, createServiceAccountRows_of_hires hhires]
    exact Tables.addServiceAccount_users

/-- Another request leaves the users as they were. -/
lemma users_of_not_creates (h : ∀ new, ¬ x.Creates new) :
    x.serve.tables.users = x.world.tables.users := by
  obtain ⟨w, request⟩ := x
  cases request with
  | register caller kind req =>
    show ((postRegister (caller.extensions kind) req).run w).2.tables.users = _
    rw [postRegister_of_not_registers fun hash role hreg => h _ ⟨hash, role, hreg, rfl⟩]
  | bootstrap input =>
    exact bootstrapSeedAdmin_of_not_bootstraps fun hash hboot => h _ ⟨hash, hboot, rfl⟩
  | createServiceAccount caller kind req =>
    show ((postCreateServiceAccount (caller.extensions kind) req).run w).2.tables.users = _
    rw [postCreateServiceAccount_tables]
    split
    · rename_i hgate
      rw [createServiceAccountRows_of_not_hires fun hhires => h _ ⟨hgate, hhires, rfl⟩]
    · rfl

/-- A request ends in an ambiguity exactly when the user it creates clashes. -/
lemma Step.unambiguous_iff (h : Step t x t') (ht : t.Unambiguous) :
    t'.Unambiguous ↔ ¬ x.Clashes := by
  obtain ⟨rfl, rfl⟩ := h
  constructor
  · rintro hafter ⟨new, hcreates, hclash⟩
    obtain ⟨hfree, husers⟩ := users_of_creates hcreates
    rw [Tables.unambiguous_of_users husers] at hafter
    exact (Tables.unambiguous_addUser ht hfree).mp hafter hclash
  · intro hsafe
    by_cases hcreates : ∃ new, x.Creates new
    · obtain ⟨new, hcreates⟩ := hcreates
      obtain ⟨hfree, husers⟩ := users_of_creates hcreates
      rw [Tables.unambiguous_of_users husers]
      exact (Tables.unambiguous_addUser ht hfree).mpr fun hclash => hsafe ⟨new, hcreates, hclash⟩
    · have husers := users_of_not_creates fun new h => hcreates ⟨new, h⟩
      exact (Tables.unambiguous_of_users husers).mpr ht

/-- No request removes a user. -/
lemma Step.users_kept (h : Step t x t') : ∀ u ∈ t.users, u ∈ t'.users := by
  obtain ⟨rfl, rfl⟩ := h
  intro u hu
  by_cases hcreates : ∃ new, x.Creates new
  · obtain ⟨new, hcreates⟩ := hcreates
    obtain ⟨hfree, husers⟩ := users_of_creates hcreates
    rw [husers]
    exact (Tables.mem_addUser hfree).mpr (Or.inl hu)
  · rw [users_of_not_creates fun new h => hcreates ⟨new, h⟩]
    exact hu

/-- From tables in which identifiers are unambiguous, every request of a run leaves identifiers
denoting whom they denoted, and one account each, exactly when no request creates an account that
clashes with a stored one. -/
theorem resolves_iff (start : Tables) (ms : List (Move Tables AccountCall)) (t : Tables)
    (hstart : start.Unambiguous) (run : Run Step start ms t) :
    (∀ m ∈ ms, m.pre.Resolves m.post) ↔ ∀ m ∈ ms, ¬ m.label.Clashes := by
  constructor
  · intro hall
    have hmoves := run.forall_moves Tables.Unambiguous (fun m => m.pre.Resolves m.post) hstart
      (fun _ _ _ _ hres _ => hres.unambiguous) hall
    intro m hm
    obtain ⟨step, hpre⟩ := hmoves m hm
    exact (step.unambiguous_iff hpre).mp (hall m hm).unambiguous
  · intro hsafe
    have hmoves := run.forall_moves Tables.Unambiguous (fun m => ¬ m.label.Clashes) hstart
      (fun _ _ _ step hs hpre => (step.unambiguous_iff hpre).mpr hs) hsafe
    intro m hm
    obtain ⟨step, hpre⟩ := hmoves m hm
    exact Tables.resolves_of_unambiguous hpre ((step.unambiguous_iff hpre).mpr (hsafe m hm))
      step.users_kept

end AccountCall

section Runs
open AccountCall

/-- In the seeded tables every text names one user at most. -/
lemma Tables.unambiguous_seededTables {now : Timestamp} : (seededTables now).Unambiguous :=
  fun _ _ hu => absurd hu Table.not_mem_empty

/-- The first administrator. -/
def seeding : AccountCall where
  world := .calm (.seededTables 0) 0
  request := .bootstrap
    ⟨"admin@egras.example", "admin", "changeme", "operator_admin", "operator"⟩

/-- Identifiers are unambiguous after the first administrator has been seeded. -/
theorem resolves_iff_seeding :
    (Tables.seededTables 0).Resolves
      (@serve plainPlatform.toArgon2 plainPlatform.toCaseMapping seeding).tables := by
  let _ : Platform := plainPlatform
  have hstep : Step (.seededTables 0) seeding seeding.serve.tables := ⟨rfl, rfl⟩
  have hsafe : ∀ m ∈ [Move.mk (Tables.seededTables 0) seeding seeding.serve.tables],
      ¬ m.label.Clashes := by
    rintro m hm ⟨new, -, q, hq, -⟩
    rw [List.mem_singleton.mp hm] at hq
    exact absurd hq Table.not_mem_empty
  exact (resolves_iff _ _ _ Tables.unambiguous_seededTables (Run.single hstep)).mpr hsafe _
    (List.mem_singleton.mpr rfl)

/-- The administrator registers a member whose username is the administrator's email. -/
def shadowing (t : Tables) : AccountCall where
  world := { World.calm t 0 with uuids := [0x31, 0x32] }
  request := .register (.loaded t 0x21 1) (.user 0x21 1 0x31)
    ⟨"admin@egras.example", "mallory@egras.example", "changeme", 1, "org_member"⟩

/-- After the first administrator has been seeded, a member is registered that answers to its
email. -/
theorem member_shadows_admin :
    ∃ ms t, Run (@Step plainPlatform.toArgon2 plainPlatform.toCaseMapping) (.seededTables 0) ms t ∧
      ∃ u ∈ t.users, ∃ v ∈ t.users, u ≠ v ∧ u.answersTo "admin@egras.example" = true ∧
        v.answersTo "admin@egras.example" = true := by
  let _ : Platform := plainPlatform
  have hseeds : Step (.seededTables 0) seeding seeding.serve.tables := ⟨rfl, rfl⟩
  have hregisters : Step seeding.serve.tables (shadowing seeding.serve.tables)
      (shadowing seeding.serve.tables).serve.tables := ⟨rfl, rfl⟩
  refine ⟨_, _, (Run.single hseeds).snoc hregisters, ?_⟩
  have hclash : ∃ u ∈ (shadowing seeding.serve.tables).serve.tables.users.rows,
      ∃ v ∈ (shadowing seeding.serve.tables).serve.tables.users.rows,
        u ≠ v ∧ u.answersTo "admin@egras.example" = true ∧
          v.answersTo "admin@egras.example" = true := by
    decide +kernel
  exact hclash

end Runs
end Egras
