import Egras.Service.Admission

/-!
# Who is turned away

A gate asks for a human caller first, then for a permission, then for the own organisation, and the
first of these that fails decides on the error (`Gate.TurnsAway`). The handlers turn away those callers
and no others: what they do behind the gate fails with other errors, but for the switch of a session,
which asks whether the user is a member of the organisation (`Route.Strays`). So in every state that a
run reaches a valid credential is answered with a denial exactly when the gate says so (`denied_iff`).
-/

namespace Egras
open Lib

/-- An error that denies a request for who its caller is. -/
def AppError.denies : AppError → Bool
  | .requiresUserCredentials | .permissionDenied _ => true
  | _ => false

/-! ## The checks of a gate -/

/-- The checks that are left after the one for a human caller. -/
def needsHuman (kind : Caller) (rest : Option AppError) : Option AppError :=
  if kind.isHuman then rest else some .requiresUserCredentials

/-- The checks that are left after the one for a permission; the error names the first one. -/
def needsAny (codes : List String) (s : PermissionSet) (rest : Option AppError) : Option AppError :=
  if codes.any s.has then rest else some (.permissionDenied (codes.headD ""))

/-- The check for the own organisation. -/
def needsOwn (c : AuthedCaller) (org : Uuid) : Option AppError :=
  if c.mayName org then none else some (.notFound "organisation")

/-- The error of the first check of a gate that fails. -/
def Gate.refusal (g : Gate) (c : AuthedCaller) (kind : Caller) : Option AppError :=
  let own := g.organisation.elim none (needsOwn c)
  let permitted := g.anyOf.elim own (fun codes => needsAny codes c.permissions own)
  bif g.human then needsHuman kind permitted else permitted

/-- A program makes some checks first, of which the first that fails decides, and denies nothing
behind them but for `D`. -/
def Checks {α : Type} (r : Option AppError) (D : World → AppError → Prop) (p : Action AppError α) :
    Prop :=
  ∀ w, (∀ e, r = some e → p.run w = (.error e, w)) ∧
    (r = none → ∀ e v, p.run w = (.error e, v) → e.denies = true → D w e)

section Checks
variable {α β : Type} {r : Option AppError} {D : World → AppError → Prop} {c : AuthedCaller}
  {kind : Caller}

/-- Nothing is checked, and no error is a denial. -/
lemma checks_none {p : Action AppError α} (h : Prog.FailsIn (fun e => e.denies = false) p) :
    Checks none D p := by
  refine fun w => ⟨fun e he => (by cases he), fun _ e v hrun hdenies => ?_⟩
  have hmild : e.denies = false := h w e v hrun
  rw [hdenies] at hmild
  cases hmild

/-- The gate for humans is a check. -/
lemma checks_human {k : Unit → Action AppError α} (hk : Checks r D (k ())) :
    Checks (needsHuman kind r) D
      (Prog.ofExcept (requireHumanCaller (c.extensions kind)) >>= k) := by
  intro w
  rw [run_requireHumanCaller_bind]
  unfold needsHuman
  by_cases hhuman : kind.isHuman = true
  · rw [if_pos hhuman, if_pos hhuman]
    exact hk w
  · rw [if_neg hhuman, if_neg hhuman]
    refine ⟨fun e he => ?_, fun hnone => by cases hnone⟩
    obtain rfl := Option.some.inj he
    rfl

/-- A permission marker accepts the callers that hold one of some codes, and names the first one. -/
structure Permission.Asks (p : Permission) (codes : List String) : Prop where
  accepts : ∀ s, p.accepts s = codes.any s.has
  code : p.code = codes.headD ""

/-- A direct permission asks for its code. -/
lemma asks_direct {code : String} : (Permission.direct code).Asks [code] :=
  ⟨fun _ => (Bool.or_false _).symm, rfl⟩

/-- A permission that operators have too asks for its code or theirs. -/
lemma asks_orOperator {code : String} :
    (Permission.orOperator code).Asks [code, "tenants.manage_all"] :=
  ⟨fun s => congrArg (s.has code || ·) (Bool.or_false _).symm, rfl⟩

/-- Reading service accounts asks for reading or managing them, or for an operator. -/
lemma asks_serviceAccountsRead : Permission.serviceAccountsRead.Asks
    ["service_accounts.read", "service_accounts.manage", "tenants.manage_all"] := by
  refine ⟨fun s => ?_, rfl⟩
  show (_ || _ || _) = (_ || (_ || (_ || false)))
  rw [Bool.or_false, Bool.or_assoc]
  rfl

/-- Reading users asks for the members or for all users. -/
lemma asks_usersRead : Permission.usersRead.Asks ["tenants.members.list", "users.manage_all"] :=
  ⟨fun s => congrArg (s.has "tenants.members.list" || ·) (Bool.or_false _).symm, rfl⟩

/-- The gate of a permission is a check. -/
lemma checks_perm {p : Permission} {codes : List String} {k : Unit → Action AppError α}
    (hp : p.Asks codes) (hk : Checks r D (k ())) :
    Checks (needsAny codes c.permissions r) D
      (Prog.ofExcept (perm p (c.extensions kind)) >>= k) := by
  intro w
  rw [run_perm_bind, hp.accepts, hp.code]
  unfold needsAny
  by_cases hany : codes.any c.permissions.has = true
  · rw [if_pos hany, if_pos hany]
    exact hk w
  · rw [if_neg hany, if_neg hany]
    refine ⟨fun e he => ?_, fun hnone => by cases hnone⟩
    obtain rfl := Option.some.inj he
    rfl

/-- The gate of the own organisation is a check. -/
lemma checks_own {org : Uuid} {k : Unit → Action AppError α}
    (hk : Prog.FailsIn (fun e => e.denies = false) (k ())) :
    Checks (needsOwn c org) D (Prog.ofExcept (requireOwnOrganisation c org) >>= k) := by
  intro w
  rw [run_requireOwnOrganisation_bind]
  unfold needsOwn
  by_cases hmay : c.mayName org = true
  · rw [if_pos hmay, if_pos hmay]
    exact checks_none hk w
  · rw [if_neg hmay, if_neg hmay]
    refine ⟨fun e he => ?_, fun hnone => by cases hnone⟩
    obtain rfl := Option.some.inj he
    rfl

/-- Behind the caller come the same checks. -/
lemma checks_caller {k : AuthedCaller → Action AppError α} (hk : Checks r D (k c)) :
    Checks r D (Prog.ofExcept (authedCaller (c.extensions kind)) >>= k) := hk

/-- What is made of the answer fails no more. -/
lemma Checks.map {p : Action AppError α} {f : α → β} (hp : Checks r D p) :
    Checks r D (p >>= fun a => .ret (f a)) := by
  intro w
  obtain ⟨hrefused, hpassed⟩ := hp w
  refine ⟨fun e he => ?_, fun hr e v hrun hdenies => ?_⟩
  · rw [Prog.run_bind, hrefused e he]
  · rw [Prog.run_bind] at hrun
    cases hfirst : p.run w with
    | mk answer u =>
      rw [hfirst] at hrun
      cases answer with
      | ok a => cases hrun
      | error e' =>
        cases hrun
        exact hpassed hr e v hfirst hdenies

end Checks

/-! ## What is behind the gates -/

section Mild
variable {α β : Type} {c : AuthedCaller} {kind : Caller}

/-- A failure that denies nothing. -/
abbrev Mild (p : Action AppError α) : Prop := Prog.FailsIn (fun e => e.denies = false) p

/-- A validation denies nothing. -/
lemma mild_validateFields {errors : List (String × List String)} :
    Mild (Prog.ofExcept (validateFields errors)) := by
  refine .ofExcept fun e he => ?_
  unfold validateFields at he
  split at he
  · cases he
  · cases he
    rfl

/-- A requirement denies nothing when its error does not. -/
lemma mild_require {b : Bool} {e : AppError} (h : e.denies = false) : Mild (require b e) := by
  intro w e' v hrun
  rw [run_require] at hrun
  cases b with
  | true => cases hrun
  | false =>
    cases hrun
    exact h

variable [Platform]

/-- A cursor that does not decode is an invalid field. -/
lemma denies_decodeSaCursor {s : String} {e : AppError} (h : decodeSaCursor s = .error e) :
    e.denies = false := by
  unfold decodeSaCursor at h
  dsimp only at h
  split at h
  · cases h
    rfl
  split at h
  · cases h
    rfl
  split at h
  · split at h
    · cases h
      rfl
    split at h
    · cases h
      rfl
    · cases h
  · cases h
    rfl

/-- The requests for guarded resources make the checks of their gates. -/
lemma checks_serve {n : Names} {action : ResourceAction} {D : World → AppError → Prop} :
    Checks ((action.gate n).refusal c kind) D (action.serve (c.extensions kind) n) := by
  cases action with
  | createChannel req =>
    refine .map (checks_caller (checks_perm asks_orOperator (checks_own ?_)))
    refine mild_validateFields.bind fun _ => .bind (.mapErr fun e => ?_) fun _ => .ret
    cases e <;> rfl
  | listChannels q =>
    refine .map (checks_caller (checks_perm asks_orOperator (checks_own ?_)))
    refine .bind (.mapErr fun e => ?_) fun _ => .ret
    cases e <;> rfl
  | getChannel =>
    refine .map (checks_caller (checks_perm asks_orOperator (checks_own ?_)))
    refine .mapErr fun e => ?_
    cases e <;> rfl
  | updateChannel req =>
    refine .map (checks_caller (checks_perm asks_orOperator (checks_own ?_)))
    refine mild_validateFields.bind fun _ => .mapErr fun e => ?_
    cases e <;> rfl
  | deleteChannel =>
    refine .map (checks_caller (checks_perm asks_orOperator (checks_own ?_)))
    refine .bind (.mapErr fun e => ?_) fun _ => .ret
    cases e <;> rfl
  | listFeatures =>
    refine .map (checks_caller (checks_perm asks_orOperator (checks_own ?_)))
    exact .mapErr fun _ => rfl
  | putFeature slug value =>
    refine .map (checks_caller (checks_perm asks_orOperator (checks_own ?_)))
    refine .bind (.mapErr fun e => ?_) fun _ => .bind (.mapErr fun _ => rfl) fun features => ?_
    · cases e <;> rfl
    · cases features.find? (fun f => f.slug = slug) with
      | none => exact .fail rfl
      | some evaluated => exact .ret
  | deleteFeature slug =>
    refine .map (checks_caller (checks_perm asks_orOperator (checks_own ?_)))
    refine .bind (.mapErr fun e => ?_) fun _ => .ret
    cases e <;> rfl
  | createServiceAccount name description =>
    refine .map (checks_human (checks_caller (checks_perm asks_orOperator (checks_own ?_))))
    refine .bind (.mapErr fun e => ?_) fun _ => .ret
    cases e <;> rfl
  | listServiceAccounts limit after =>
    refine .map (checks_human (checks_caller (checks_perm asks_serviceAccountsRead (checks_own ?_))))
    refine .bind (.ofExcept fun e he => ?_) fun _ => .bind (.mapErr fun _ => rfl) fun _ => .ret
    cases after with
    | none => cases he
    | some s =>
      have he : (decodeSaCursor s).map some = .error e := he
      cases hdecode : decodeSaCursor s with
      | ok cursor =>
        rw [hdecode] at he
        cases he
      | error e' =>
        rw [hdecode] at he
        cases he
        exact denies_decodeSaCursor hdecode
  | getServiceAccount =>
    refine .map (checks_human (checks_caller (checks_perm asks_serviceAccountsRead (checks_none ?_))))
    refine .bind (.mapErr fun _ => rfl) fun found => ?_
    cases found with
    | none => exact .fail rfl
    | some sa => exact .ret
  | deleteServiceAccount =>
    refine .map (checks_human (checks_caller (checks_perm asks_orOperator (checks_none ?_))))
    refine .bind (.mapErr fun e => ?_) fun _ => .ret
    cases e <;> rfl
  | createApiKey req =>
    refine .map (checks_human (checks_caller (checks_perm asks_orOperator (checks_none ?_))))
    refine .bind (.mapErr fun e => ?_) fun _ => .ret
    cases e <;> rfl
  | listApiKeys =>
    refine .map (checks_human (checks_caller (checks_perm asks_serviceAccountsRead (checks_none ?_))))
    refine .bind (.mapErr fun e => ?_) fun _ => .ret
    cases e <;> rfl
  | deleteApiKey =>
    refine .map (checks_human (checks_caller (checks_perm asks_orOperator (checks_none ?_))))
    refine .bind (.mapErr fun e => ?_) fun _ => .ret
    cases e <;> rfl
  | rotateApiKey req =>
    refine .map (checks_human (checks_caller (checks_perm asks_orOperator (checks_none ?_))))
    refine .bind (.mapErr fun e => ?_) fun _ => .ret
    cases e <;> rfl
  | listUsers after limit named q =>
    refine .map (checks_caller (checks_perm asks_usersRead (checks_none ?_)))
    refine (mild_require rfl).bind fun _ => .bind (.mapErr fun e => ?_) fun _ =>
      .bind record_failsIn fun _ => .ret
    cases e <;> rfl

/-- Switching the session asks whether the user is a member, which is a denial too. -/
def Route.Strays (route : Route) (user : Uuid) (t : Tables) (e : AppError) : Prop :=
  ∃ org, route = .switchOrg org ∧ t.isMember user org = false ∧ e = .permissionDenied "not_member"

/-- For a member a switch of the session fails with internal errors only. -/
lemma switchOrg_fails {config : JwtConfig} {user org target : Uuid} {w v : World}
    {e : SwitchOrgError} (hmember : w.tables.isMember user target = true)
    (h : (switchOrg config user org target).run w = (.error e, v)) : e = .internal := by
  unfold switchOrg at h
  rw [Prog.run_bind] at h
  cases hquery : ((isMember user target).mapErr (fun _ => SwitchOrgError.internal)).run w with
  | mk r u =>
    rw [hquery] at h
    cases r with
    | error e' =>
      cases h
      have hfails : Prog.FailsIn (· = SwitchOrgError.internal)
        ((isMember user target).mapErr fun _ => SwitchOrgError.internal) := .mapErr fun _ => rfl
      exact hfails _ _ _ hquery
    | ok member =>
      obtain ⟨rfl, -, -⟩ := query_eq_ok (Prog.mapErr_eq_ok (Prog.mapErr_eq_ok hquery))
      dsimp only at h
      rw [hmember] at h
      have hfails : Prog.FailsIn (· = SwitchOrgError.internal) (do
          let token ← (encodeAccessToken config user target).mapErr
            (fun _ => SwitchOrgError.internal)
          record (fun s => .sessionSwitchedOrg s user org target)
          return token) :=
        .bind (.mapErr fun _ => rfl) fun _ => .bind record_failsIn fun _ => .ret
      exact hfails _ _ _ h

/-- A switch of the session is denied to a user who is not a member, and to no other one. -/
lemma denies_switchOrg {config : JwtConfig} {user org target : Uuid} {w v : World} {e : AppError}
    (h : ((switchOrg config user org target).mapErr SwitchOrgError.toApp).run w = (.error e, v))
    (hdenies : e.denies = true) :
    w.tables.isMember user target = false ∧ e = .permissionDenied "not_member" := by
  rw [Prog.run_mapErr] at h
  cases hrun : (switchOrg config user org target).run w with
  | mk r u =>
    rw [hrun] at h
    cases r with
    | ok token => cases h
    | error e' =>
      obtain ⟨he, -⟩ := Prod.mk.inj h
      obtain rfl := Except.error.inj he
      cases e' with
      | internal => cases hdenies
      | notMember =>
        refine ⟨?_, rfl⟩
        cases hmember : w.tables.isMember user target with
        | false => rfl
        | true => cases switchOrg_fails hmember hrun

/-- The handlers make the checks of their gates. -/
theorem checks_handler {config : JwtConfig} {route : Route} :
    Checks (route.gate.refusal c kind) (fun w e => route.Strays c.claims.sub w.tables e)
      (route.handler config (c.extensions kind)) := by
  cases route with
  | createOrganisation req =>
    refine .map (checks_caller (checks_perm asks_direct (checks_none ?_)))
    refine mild_validateFields.bind fun _ => .bind (.mapErr fun e => ?_) fun _ => .ret
    cases e <;> rfl
  | listMyOrganisations q =>
    refine .map (checks_caller (checks_none ?_))
    refine .bind (.mapErr fun e => ?_) fun _ => .ret
    cases e <;> rfl
  | listMembers org q =>
    refine .map (checks_perm asks_orOperator (checks_caller (checks_none ?_)))
    refine .bind (.mapErr fun e => ?_) fun _ => .ret
    cases e <;> rfl
  | assignRole org req =>
    refine .map (checks_perm asks_orOperator (checks_caller (checks_none ?_)))
    refine mild_validateFields.bind fun _ => .bind (.mapErr fun e => ?_) fun _ => .ret
    cases e <;> rfl
  | addUser req =>
    refine .map (checks_caller (checks_perm asks_orOperator (checks_none ?_)))
    refine .bind (.mapErr fun e => ?_) fun _ => .ret
    cases e <;> rfl
  | removeUser req =>
    refine .map (checks_caller (checks_perm asks_orOperator (checks_none ?_)))
    refine .bind (.mapErr fun e => ?_) fun _ => .ret
    cases e <;> rfl
  | register req =>
    refine .map (checks_human (checks_caller (checks_perm asks_orOperator (checks_none ?_))))
    refine .bind (.mapErr fun e => ?_) fun _ => .ret
    cases e <;> rfl
  | logout =>
    refine .map (checks_human (checks_caller (checks_none ?_)))
    refine .bind .lift fun now => .bind (.mapErr fun _ => rfl) fun _ => .ret
  | changePassword req =>
    refine .map (checks_human (checks_caller (checks_none ?_)))
    refine .bind (.mapErr fun e => ?_) fun _ => .ret
    cases e <;> rfl
  | switchOrg org =>
    refine .map (checks_human (checks_caller fun w => ⟨fun e he => (by cases he), ?_⟩))
    intro _ e v hrun hdenies
    obtain ⟨hmember, rfl⟩ := denies_switchOrg hrun hdenies
    exact ⟨org, rfl, hmember, rfl⟩
  | definitions =>
    refine .map (checks_perm asks_direct (checks_none ?_))
    exact .mapErr fun _ => rfl
  | resource n action => exact checks_serve.map
  | getEcho | postEcho body =>
    refine .map (checks_perm asks_direct (checks_none ?_))
    exact .bind .lift fun _ => .ret

end Mild

/-! ## Principals -/

/-- How a gate turns away a principal: the first check that fails decides. -/
inductive Gate.TurnsAway (g : Gate) (p : Principal) (t : Tables) : AppError → Prop
  | key (asks : g.human = true) (uses : p.kind.isHuman = false) :
      g.TurnsAway p t .requiresUserCredentials
  | permission {codes} (human : g.human = true → p.kind.isHuman = true)
      (asks : g.anyOf = some codes) (lacks : ∀ code ∈ codes, ¬ p.Entitled t code) :
      g.TurnsAway p t (.permissionDenied (codes.headD ""))
  | organisation {org} (human : g.human = true → p.kind.isHuman = true)
      (permitted : ∀ codes, g.anyOf = some codes → ∃ code ∈ codes, p.Entitled t code)
      (asks : g.organisation = some org) (other : org ≠ p.organisation)
      (lacks : ¬ p.Entitled t "tenants.manage_all") : g.TurnsAway p t (.notFound "organisation")

section Principals
variable {g : Gate} {c : AuthedCaller} {p : Principal} {t : Tables} {e : AppError}

/-- A caller has one of the codes when its principal is entitled to one. -/
lemma any_has_iff (hc : c.Represents p t) {codes : List String} :
    codes.any c.permissions.has = true ↔ ∃ code ∈ codes, p.Entitled t code := by
  rw [List.any_eq_true]
  refine exists_congr fun code => and_congr_right fun _ => ?_
  exact PermissionSet.has_iff.trans (hc.permissions code)

/-- A caller may name its own organisation, or every one as an operator. -/
lemma mayName_iff (hc : c.Represents p t) {org : Uuid} :
    c.mayName org = true ↔ org = p.organisation ∨ p.Entitled t "tenants.manage_all" := by
  constructor
  · intro h
    exact (own_of_mayName h).imp (·.trans hc.organisation) (hc.permissions _).mp
  · intro h
    refine (Bool.or_eq_true _ _).mpr ?_
    rcases h with rfl | hall
    · exact Or.inr (decide_eq_true hc.organisation)
    · exact Or.inl (PermissionSet.has_iff.mpr ((hc.permissions _).mpr hall))

/-- The checks of a gate turn away a principal as the caller that represents it. -/
lemma Gate.TurnsAway.refusal (hc : c.Represents p t) (h : g.TurnsAway p t e) :
    g.refusal c p.kind = some e := by
  obtain ⟨human, anyOf, organisation⟩ := g
  -- the check for a human caller is passed unless it decides
  have hpassed {r : Option AppError} (hhuman : human = true → p.kind.isHuman = true) :
      (bif human then needsHuman p.kind r else r) = r := by
    cases human with
    | false => rfl
    | true => exact if_pos (hhuman rfl)
  cases h with
  | key asks uses =>
    obtain rfl : human = true := asks
    exact if_neg (by rw [uses]; exact Bool.false_ne_true)
  | @permission codes hhuman asks lacks =>
    obtain rfl : anyOf = some codes := asks
    refine (hpassed hhuman).trans (if_neg fun hany => ?_)
    obtain ⟨code, hmem, hentitled⟩ := (any_has_iff hc).mp hany
    exact lacks code hmem hentitled
  | @organisation org hhuman permitted asks other lacks =>
    obtain rfl : organisation = some org := asks
    have hown : needsOwn c org = some (.notFound "organisation") :=
      if_neg fun hmay => ((mayName_iff hc).mp hmay).elim other lacks
    refine (hpassed hhuman).trans ?_
    cases anyOf with
    | none => exact hown
    | some codes => exact (if_pos ((any_has_iff hc).mpr (permitted codes rfl))).trans hown

/-- A gate that every check of is passed refuses nobody. -/
lemma Gate.Passes.refusal (hc : c.Represents p t) (h : g.Passes p t) : g.refusal c p.kind = none := by
  obtain ⟨human, anyOf, organisation⟩ := g
  have hown : organisation.elim none (needsOwn c) = none := by
    cases organisation with
    | none => rfl
    | some org => exact if_pos ((mayName_iff hc).mpr (h.own org rfl))
  have hpermitted : anyOf.elim (organisation.elim none (needsOwn c))
      (fun codes => needsAny codes c.permissions (organisation.elim none (needsOwn c))) = none := by
    cases anyOf with
    | none => exact hown
    | some codes => exact (if_pos ((any_has_iff hc).mpr (h.permitted codes rfl))).trans hown
  cases human with
  | false => exact hpermitted
  | true => exact (if_pos (h.human rfl)).trans hpermitted

/-- A principal passes a gate, or it is turned away. -/
lemma Gate.passes_or (g : Gate) (p : Principal) (t : Tables) :
    g.Passes p t ∨ ∃ e, g.TurnsAway p t e := by
  by_cases hhuman : g.human = true → p.kind.isHuman = true
  · by_cases hpermitted : ∀ codes, g.anyOf = some codes → ∃ code ∈ codes, p.Entitled t code
    · by_cases hown : ∀ org, g.organisation = some org →
        org = p.organisation ∨ p.Entitled t "tenants.manage_all"
      · exact Or.inl ⟨hhuman, hpermitted, hown⟩
      · push Not at hown
        obtain ⟨org, asks, other, lacks⟩ := hown
        exact Or.inr ⟨_, .organisation hhuman hpermitted asks other lacks⟩
    · push Not at hpermitted
      obtain ⟨codes, asks, lacks⟩ := hpermitted
      exact Or.inr ⟨_, .permission hhuman asks lacks⟩
  · push Not at hhuman
    obtain ⟨asks, uses⟩ := hhuman
    exact Or.inr ⟨_, .key asks (eq_false_of_ne_true uses)⟩

end Principals

section Denied
variable [Platform] {config : JwtConfig} {headers : Headers} {route : Route} {p : Principal}
  {w v : World}

/-- Authenticating a request leaves the database answering. -/
lemma healthy_call : Prog.Keeps World.Healthy (call config headers) := by
  have hquery : ∀ {α : Type} {f : World → α}, Prog.Keeps World.Healthy (query f) := healthy_execute
  obtain ⟨_, _, h⟩ | ⟨_, _, _, _, _, h⟩ | ⟨_, _, _, h⟩ := call_cases config headers
  · rw [h]
    exact Prog.Keeps.fail
  · rw [h]
    refine Prog.Keeps.bind (Prog.Keeps.bind hquery.mapErr fun found => ?_) fun found => ?_
    · cases found with
      | none => exact Prog.Keeps.ret
      | some row =>
        refine Prog.Keeps.bind Prog.Keeps.ofExcept.mapErr fun ok => ?_
        split <;> exact Prog.Keeps.ret
    · cases found with
      | none => exact Prog.Keeps.fail
      | some verified =>
        refine Prog.Keeps.bind (Prog.Keeps.mapErr ?_) fun value => ?_
        · refine Prog.Keeps.bind (Prog.Keeps.lift fun _ hw => hw) fun now => ?_
          refine Prog.Keeps.bind (Prog.Keeps.lift fun _ hw => hw) fun entry => ?_
          cases entry.filter (fun entry => now < entry.expiresAt) with
          | some entry => exact Prog.Keeps.ret
          | none =>
            refine Prog.Keeps.bind (Prog.Keeps.bind hquery.mapErr.mapErr fun ov => ?_) fun value => ?_
            · cases ov with
              | some ov => exact Prog.Keeps.ret
              | none =>
                refine Prog.Keeps.bind hquery.mapErr.mapErr fun definition => ?_
                cases definition with
                | some definition => exact Prog.Keeps.ret
                | none => exact Prog.Keeps.fail
            · exact Prog.Keeps.bind (Prog.Keeps.lift fun _ hw => hw) fun _ => Prog.Keeps.ret
        · refine Prog.Keeps.bind Prog.Keeps.ofExcept fun allowed => ?_
          refine Prog.Keeps.bind keeps_require fun _ => Prog.Keeps.bind hquery.mapErr fun _ => ?_
          refine Prog.Keeps.bind (Prog.Keeps.lift fun _ hw => hw) fun _ => ?_
          exact Prog.Keeps.bind (Prog.Keeps.lift fun _ hw => hw) fun _ => Prog.Keeps.ret
  · rw [h]
    refine Prog.Keeps.bind (Prog.Keeps.lift fun _ hw => hw) fun now => ?_
    split
    · exact Prog.Keeps.fail
    · refine Prog.Keeps.bind hquery.mapErr fun revoked => Prog.Keeps.bind keeps_require fun _ => ?_
      exact Prog.Keeps.bind hquery.mapErr fun _ => Prog.Keeps.ret

/-- A switch of the session by a user who is not a member is denied. -/
lemma switchOrg_denied {user org target : Uuid} (hw : w.answers = true)
    (hmember : w.tables.isMember user target = false) :
    ((switchOrg config user org target).mapErr SwitchOrgError.toApp).run w =
      (.error (.permissionDenied "not_member"), w.tick) := by
  have hquery : ((isMember user target).mapErr (fun _ => SwitchOrgError.internal)).run w =
      (.ok false, w.tick) := Prog.run_mapErr_ok (Prog.run_mapErr_ok (run_query_of hw hmember))
  rw [Prog.run_mapErr, show (switchOrg config user org target).run w =
    (.error .notMember, w.tick) from Prog.run_bind_ok hquery rfl]
  rfl

variable [Sha256] [AuditCursorText] {i j : Instant} {ms : List (Move Instant Arrival)}

/-- In every state that a run reaches, while the database answers: a request with a valid credential is
turned away by the first check of its gate that fails for its principal; and it is denied, as one that
takes a human caller or for want of a permission, exactly if the gate says so or the session is switched
to an organisation that the user is not a member of. -/
theorem denied_iff (run : Run (Arrival.Step config) i ms j) (hdistinct : i.tables.PrefixesDistinct)
    (htables : w.tables = j.tables) (hw : w.Healthy) (hp : Principal.Presented config headers w p) :
    (∀ e, route.gate.TurnsAway p w.tables e →
      ((respond config headers route).run w).1 = .error (.app e)) ∧
    ∀ e, e.denies = true →
      (((respond config headers route).run w).1 = .error (.app e) ↔
        route.gate.TurnsAway p w.tables e ∨
          p.kind.isHuman = true ∧ route.Strays p.user w.tables e) := by
  have hdistinct' : w.tables.PrefixesDistinct := htables ▸ Arrival.prefixesDistinct_run run hdistinct
  obtain ⟨ext, u, hcall⟩ := call_of_presented hw hdistinct' hp
  obtain ⟨q, c, hq, hc, rfl⟩ := call_presents hcall
  obtain rfl := hq.unique hdistinct' hp
  have hu : u.Healthy := healthy_call.of_run hw hcall
  have hledger : u.ledger = w.ledger := reads_call.of_run hcall
  have hutables : u.tables = w.tables := congrArg Ledger.tables hledger
  have hchecks : Checks (route.gate.refusal c q.kind)
    (fun w e => route.Strays c.claims.sub w.tables e)
    (route.handler config (c.extensions q.kind)) := checks_handler
  obtain ⟨hrefused, hpassed⟩ := hchecks u
  have hrespond {e : AppError} {v : World}
      (hrun : (route.handler config (c.extensions q.kind)).run u = (.error e, v)) :
      ((respond config headers route).run w).1 = .error (.app e) := by
    rw [respond, Prog.run_bind_ok hcall rfl, Prog.run_mapErr, hrun]
    rfl
  have hturns : ∀ e, route.gate.TurnsAway q w.tables e →
      ((respond config headers route).run w).1 = .error (.app e) :=
    fun e he => hrespond (hrefused e (he.refusal hc))
  refine ⟨hturns, fun e hdenies => ⟨fun h => ?_, fun h => ?_⟩⟩
  · rcases route.gate.passes_or q w.tables with hpasses | ⟨e', he'⟩
    · right
      rw [respond, Prog.run_bind_ok hcall rfl, Prog.run_mapErr] at h
      cases hrun : (route.handler config (c.extensions q.kind)).run u with
      | mk r v =>
        rw [hrun] at h
        cases r with
        | ok reply => cases h
        | error e' =>
          obtain rfl := Rejection.app.inj (Except.error.inj h)
          have hstrays : route.Strays c.claims.sub u.tables e' :=
            hpassed (hpasses.refusal hc) e' v hrun hdenies
          rw [hc.user, hutables] at hstrays
          obtain ⟨org, rfl, -, -⟩ := id hstrays
          exact ⟨hpasses.human rfl, hstrays⟩
    · left
      obtain rfl := Rejection.app.inj (Except.error.inj (h.symm.trans (hturns e' he')))
      exact he'
  · rcases h with hgate | ⟨hhuman, org, rfl, hmember, rfl⟩
    · exact hturns e hgate
    · rw [← hc.user, ← hutables] at hmember
      have hpost : (postSwitchOrg config (c.extensions q.kind) org).run u =
          (.error (.permissionDenied "not_member"), u.tick) := by
        rw [postSwitchOrg, run_requireHumanCaller_bind, if_pos hhuman]
        exact switchOrg_denied hu.answers hmember
      refine hrespond (v := u.tick) ?_
      show (postSwitchOrg config (c.extensions q.kind) org >>= _).run u = _
      rw [Prog.run_bind, hpost]

end Denied

/-- The owner of `acme` is not a member of the other organisation, and so denied to switch to it. -/
theorem denied_iff_ownerChanged :
    ((@respond (signingPlatform ownerSession) runConfig ownerHeaders
      (.switchOrg 0xb)).run (.calm ownerChanged 0)).1 =
      .error (.app (.permissionDenied "not_member")) := by
  let _ : Platform := signingPlatform ownerSession
  let _ : Sha256 := ⟨id⟩
  let _ : AuditCursorText := ⟨fun _ => "", fun _ => none⟩
  have hstep : Arrival.Step runConfig ⟨ownerTables, 0⟩ ownerChanges ⟨ownerChanged, 0⟩ :=
    ⟨rfl, le_rfl, rfl, rfl⟩
  have hdistinct : ownerTables.PrefixesDistinct := fun _ h => absurd h List.not_mem_nil
  have hhealthy : (World.calm ownerChanged 0).Healthy := fun n => by simp [World.answersAll, World.calm]
  have hpresented : Principal.Presented runConfig ownerHeaders (.calm ownerChanged 0)
      ⟨.user 0x11 0xa 0x21, 0x11, 0xa, none⟩ :=
    @Principal.Presented.token _ _ runConfig ownerHeaders (.calm ownerChanged 0) "session" ownerSession
      (by decide +kernel) (by decide +kernel) (by decide +kernel) (by decide +kernel)
  have hdenied := @denied_iff _ runConfig ownerHeaders (.switchOrg 0xb) _ (.calm ownerChanged 0) _ _ _
    _ _ (.single hstep) hdistinct rfl hhealthy hpresented
  refine (hdenied.2 (.permissionDenied "not_member") rfl).mpr (.inr ⟨rfl, 0xb, rfl, ?_, rfl⟩)
  decide +kernel

end Egras
