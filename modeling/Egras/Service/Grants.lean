import Egras.Resources.Confinement
import Egras.Service.Provenance

/-!
# Who changes permissions and flags

What the provenance of facts says about authority. The catalogue of roles never changes, so that a
permission is gained or lost with a membership only: over every run by a demand that `Grants` or
`Withdraws` it (`Arrival.permission_authority`). An override of a flag changes by a demand that `Sets`
the flag only (`Arrival.flag_authority`).
-/

namespace Egras
open Lib Relation

/-! ## The catalogue -/

section Catalogue
variable {t t' : Tables}

/-- The same catalogue grants the same. -/
lemma roleGrants_congr (h : t'.catalogue = t.catalogue) {roleId : Uuid} {code : String} :
    t'.RoleGrants roleId code ↔ t.RoleGrants roleId code := by
  obtain ⟨-, hcatalogue⟩ := Prod.mk.inj h
  obtain ⟨hpermissions, hcatalogue⟩ := Prod.mk.inj hcatalogue
  obtain ⟨hroles, -⟩ := Prod.mk.inj hcatalogue
  unfold Tables.RoleGrants
  rw [Table.ext hpermissions, Table.ext hroles]

/-- The same catalogue has the same codes. -/
lemma codes_congr (h : t'.catalogue = t.catalogue) {code : String} {roleId : Uuid} :
    t'.Codes code roleId ↔ t.Codes code roleId := by
  obtain ⟨hroles, -⟩ := Prod.mk.inj h
  unfold Tables.Codes Tables.roleByCode
  rw [hroles]

/-- The same catalogue has the same flags in self-service. -/
lemma selfService_congr (h : t'.catalogue = t.catalogue) {slug : String} :
    t'.SelfService slug ↔ t.SelfService slug := by
  obtain ⟨-, hcatalogue⟩ := Prod.mk.inj h
  obtain ⟨-, hcatalogue⟩ := Prod.mk.inj hcatalogue
  obtain ⟨-, hdefinitions⟩ := Prod.mk.inj hcatalogue
  unfold Tables.SelfService
  rw [Table.ext hdefinitions]

end Catalogue

namespace AuthedCaller.Represents
variable {c : AuthedCaller} {p : Principal} {t : Tables}

/-- A caller that operates on all tenants is one that may. -/
lemma operator (hc : c.Represents p t) (h : c.permissions.isOperatorOverTenants = true) :
    p.Entitled t "tenants.manage_all" := (hc.permissions _).mp (PermissionSet.has_iff.mp h)

/-- A principal that is not entitled as an operator presents no operator. -/
lemma not_operator (hc : c.Represents p t) (h : ¬ p.Entitled t "tenants.manage_all") :
    c.permissions.isOperatorOverTenants = false := Bool.eq_false_iff.mpr fun hop => h (hc.operator hop)

/-- A flag may be set in self-service or by an operator. -/
lemma maySet (hc : c.Represents p t) {slug : String}
    (h : t.MaySet c.permissions.isOperatorOverTenants slug) :
    t.SelfService slug ∨ p.Entitled t "tenants.manage_all" := by
  cases hop : c.permissions.isOperatorOverTenants with
  | true => exact Or.inr (hc.operator hop)
  | false =>
    rw [hop] at h
    exact Or.inl h.selfService

end AuthedCaller.Represents

namespace Arrival
variable [Platform] [Sha256] {config : JwtConfig} {x : Arrival} {t : Tables}

/-- A demand is a request for a route by a principal that passes its gate. -/
structure Acts (config : JwtConfig) (x : Arrival) (route : Route) (p : Principal) : Prop where
  presented : ∃ headers, x.demand = .guarded headers route ∧
    Principal.Presented config headers x.world p
  passes : route.gate.Passes p x.world.tables

/-! ## Memberships -/

/-- A demand gives a membership. -/
inductive Grants (config : JwtConfig) (x : Arrival) (r : UserOrganisationRole) : Prop
  /-- Whoever creates an organisation owns it. -/
  | creates {req : CreateOrganisationRequest} {p : Principal}
      (acts : x.Acts config (.createOrganisation req) p) (own : r.userId = p.user)
      (new : x.world.tables.hasOrganisation r.organisationId = false)
      (role : x.world.tables.Codes "org_owner" r.roleId)
  | adds {req : AddUserToOrganisationRequest} {p : Principal} (acts : x.Acts config (.addUser req) p)
      (user : r.userId = req.userId) (organisation : r.organisationId = req.orgId)
      (role : x.world.tables.Codes req.roleCode r.roleId)
  /-- A role is assigned among the members, by one of them or by an operator. -/
  | assigns {req : AssignRoleRequest} {p : Principal}
      (acts : x.Acts config (.assignRole r.organisationId req) p) (user : r.userId = req.userId)
      (role : x.world.tables.Codes req.roleCode r.roleId)
      (member : x.world.tables.isMember r.userId r.organisationId = true)
      (actor : ¬ p.Entitled x.world.tables "tenants.manage_all" →
        x.world.tables.isMember p.user r.organisationId = true)
  | registers {req : RegisterRequest} {p : Principal} (acts : x.Acts config (.register req) p)
      (new : x.world.tables.hasUser r.userId = false) (organisation : r.organisationId = req.orgId)
      (role : x.world.tables.Codes req.roleCode r.roleId)
  | seeds {input : SeedAdminInput} {free : (Operation.bootstrapSeedAdmin input).needsCaller = false}
      (demand : x.demand = .unguarded (.bootstrapSeedAdmin input) free)
      (new : x.world.tables.hasUser r.userId = false)
      (organisation : ∃ org ∈ x.world.tables.organisations,
        org.name = input.operatorOrgName ∧ org.id = r.organisationId)
      (role : x.world.tables.Codes input.roleCode r.roleId)

/-- A demand takes the memberships of a user in an organisation. -/
inductive Withdraws (config : JwtConfig) (x : Arrival) (u organisationId : Uuid) : Prop
  | removes {req : RemoveUserFromOrganisationRequest} {p : Principal}
      (acts : x.Acts config (.removeUser req) p) (user : req.userId = u)
      (organisation : req.orgId = organisationId)
  /-- A service account is deleted by its own organisation. -/
  | dismisses {n : Names} {p : Principal}
      (acts : x.Acts config (.resource n .deleteServiceAccount) p) (user : n.serviceAccount = u)
      (homed : (x.world.tables.serviceAccount p.organisation u).isSome = true)
      (account : ∃ user ∈ x.world.tables.users, user.id = u ∧ user.kind = .serviceAccount)

/-- Whoever adds a role row grants the membership. -/
lemma Entitles.grants {r : UserOrganisationRole} (h : x.Entitles config t (.addRole r))
    (hcatalogue : t.catalogue = x.world.tables.catalogue) : x.Grants config r := by
  obtain ⟨w, demand⟩ := x
  cases demand with
  | guarded headers route =>
    obtain ⟨p, c, hpresented, hc, hpasses, hpermits⟩ := h
    have hacts : Acts config ⟨w, .guarded headers route⟩ route p := ⟨⟨headers, rfl, hpresented⟩, hpasses⟩
    cases route with
    | createOrganisation req =>
      obtain ⟨huser, hnew, hcode⟩ := hpermits
      exact .creates hacts (huser.trans hc.user) hnew ((codes_congr hcatalogue).mp hcode)
    | addUser req =>
      obtain ⟨huser, horg, hcode⟩ := hpermits
      exact .adds hacts huser horg ((codes_congr hcatalogue).mp hcode)
    | assignRole orgId req =>
      obtain ⟨huser, rfl, hcode, hmember, hactor⟩ := hpermits
      refine .assigns hacts huser ((codes_congr hcatalogue).mp hcode) (huser ▸ hmember) fun hop => ?_
      exact hc.user ▸ hactor (hc.not_operator hop)
    | register req =>
      obtain ⟨horg, hnew, hcode⟩ := hpermits
      exact .registers hacts hnew horg ((codes_congr hcatalogue).mp hcode)
    | resource n action => cases action <;> exact False.elim hpermits
    | _ => exact False.elim hpermits
  | unguarded operation free =>
    cases operation with
    | request _ _ _ | call _ => cases free
    | bootstrapSeedAdmin input =>
      obtain ⟨hnew, hcode, horg⟩ := h
      exact .seeds rfl hnew horg ((codes_congr hcatalogue).mp hcode)
    | _ => exact False.elim h

/-- Whoever ends a membership withdraws it. -/
lemma Ends.withdraws {m : Move Instant Arrival} {r : UserOrganisationRole}
    (h : Ends config m (.membership r)) :
    m.label.Withdraws config r.userId r.organisationId := by
  obtain ⟨t, e, t', ⟨-, hentitled, -, -⟩, -, -, htakes⟩ := h
  obtain ⟨i, ⟨w, demand⟩, j⟩ := m
  cases e with
  | removeMember u o =>
    obtain ⟨rfl, rfl⟩ := htakes
    cases demand with
    | guarded headers route =>
      obtain ⟨p, c, hpresented, -, hpasses, hpermits⟩ := hentitled
      cases route with
      | removeUser req =>
        obtain ⟨huser, horg⟩ := hpermits
        exact .removes ⟨⟨headers, rfl, hpresented⟩, hpasses⟩ huser.symm horg.symm
      | resource n action => cases action <;> exact False.elim hpermits
      | _ => exact False.elim hpermits
    | unguarded operation free =>
      cases operation with
      | request _ _ _ | call _ => cases free
      | _ => exact False.elim hentitled
  | deleteUser u =>
    obtain rfl := Option.some.inj htakes
    cases demand with
    | guarded headers route =>
      obtain ⟨p, c, hpresented, hc, hpasses, hpermits⟩ := hentitled
      cases route with
      | resource n action =>
        cases action with
        | deleteServiceAccount =>
          obtain ⟨huser, hhomed, haccount⟩ := hpermits
          refine .dismisses ⟨⟨headers, rfl, hpresented⟩, hpasses⟩ huser.symm ?_ haccount
          rw [huser, ← hc.organisation]
          exact hhomed
        | _ => exact False.elim hpermits
      | _ => exact False.elim hpermits
    | unguarded operation free =>
      cases operation with
      | request _ _ _ | call _ => cases free
      | _ => exact False.elim hentitled
  | _ => exact False.elim htakes

/-! ## Flags -/

/-- A demand writes a flag of an organisation: on behalf of a principal of it or of an operator, and
of an operator if the flag is not for self-service. -/
def Sets (config : JwtConfig) (x : Arrival) (organisationId : Uuid) (slug : String) : Prop :=
  ∃ n action p, x.Acts config (.resource n action) p ∧ n.organisation = organisationId ∧
    (action = .deleteFeature slug ∨ ∃ value, action = .putFeature slug value) ∧
    (x.world.tables.SelfService slug ∨ p.Entitled x.world.tables "tenants.manage_all")

/-- Whoever overrides a flag sets it. -/
lemma Entitles.sets {f : OrgFeatureOverride} (h : x.Entitles config t (.setFlag f)) :
    x.Sets config f.organisationId f.slug := by
  obtain ⟨w, demand⟩ := x
  cases demand with
  | guarded headers route =>
    obtain ⟨p, c, hpresented, hc, hpasses, hpermits⟩ := h
    cases route with
    | resource n action =>
      cases action with
      | putFeature slug value =>
        obtain ⟨horg, rfl, -, -, hmay⟩ := hpermits
        exact ⟨n, _, p, ⟨⟨headers, rfl, hpresented⟩, hpasses⟩, horg.symm, Or.inr ⟨value, rfl⟩,
          hc.maySet hmay⟩
      | _ => exact False.elim hpermits
    | _ => exact False.elim hpermits
  | unguarded operation free =>
    cases operation with
    | request _ _ _ | call _ => cases free
    | _ => exact False.elim h

/-- Whoever clears an override sets the flag. -/
lemma Entitles.clears {organisationId : Uuid} {slug : String}
    (h : x.Entitles config t (.clearFlag organisationId slug)) :
    x.Sets config organisationId slug := by
  obtain ⟨w, demand⟩ := x
  cases demand with
  | guarded headers route =>
    obtain ⟨p, c, hpresented, hc, hpasses, hpermits⟩ := h
    cases route with
    | resource n action =>
      cases action with
      | deleteFeature slug =>
        obtain ⟨horg, rfl, hmay⟩ := hpermits
        exact ⟨n, _, p, ⟨⟨headers, rfl, hpresented⟩, hpasses⟩, horg.symm, Or.inl rfl,
          hc.maySet hmay⟩
      | _ => exact False.elim hpermits
    | _ => exact False.elim hpermits
  | unguarded operation free =>
    cases operation with
    | request _ _ _ | call _ => cases free
    | _ => exact False.elim h

/-- Whoever ends an override sets the flag. -/
lemma Ends.sets_override {m : Move Instant Arrival} {f : OrgFeatureOverride}
    (h : Ends config m (.override f)) : m.label.Sets config f.organisationId f.slug := by
  obtain ⟨t, e, t', ⟨-, hentitled, -, -⟩, -, -, htakes⟩ := h
  cases e with
  | setFlag g =>
    obtain ⟨horg, hslug⟩ := Prod.mk.inj htakes
    rw [horg, hslug]
    exact hentitled.sets
  | clearFlag organisationId slug =>
    obtain ⟨horg, hslug⟩ := Prod.mk.inj htakes
    rw [horg, hslug]
    exact hentitled.clears
  | deleteUser u => cases htakes
  | _ => exact False.elim htakes

/-- Whoever ends the absence of an override sets the flag. -/
lemma Ends.sets_noOverride {m : Move Instant Arrival} {organisationId : Uuid} {slug : String}
    (h : Ends config m (.noOverride organisationId slug)) :
    m.label.Sets config organisationId slug := by
  obtain ⟨t, e, t', ⟨-, hentitled, -, -⟩, -, -, htakes⟩ := h
  cases e with
  | setFlag g =>
    obtain ⟨rfl, rfl⟩ := Prod.mk.inj htakes
    exact hentitled.sets
  | deleteUser u => cases htakes
  | _ => exact False.elim htakes

/-! ## Runs -/

variable [AuditCursorText] {i j : Instant} {ms : List (Move Instant Arrival)}

/-- Over every run, whoever sends what and whatever fails on the way: a permission that a user has
gained in an organisation came with a role that grants it and that a demand of the run gave there, and
one that it has lost went when a demand of the run took its memberships there. -/
theorem permission_authority (run : Run (Step config) i ms j) (u o : Uuid) (code : String) :
    (j.tables.Holds u o code → i.tables.Holds u o code ∨
      ∃ m ∈ ms, ∃ r : UserOrganisationRole, r.userId = u ∧ r.organisationId = o ∧
        i.tables.RoleGrants r.roleId code ∧ m.label.Grants config r) ∧
    (i.tables.Holds u o code → j.tables.Holds u o code ∨ ∃ m ∈ ms, m.label.Withdraws config u o) := by
  obtain ⟨hextends, hfacts⟩ := frame_run run
  constructor
  · rintro ⟨r, hr, rfl, rfl, hgrants⟩
    have hgrants' := (roleGrants_congr hextends.catalogue).mp hgrants
    rcases origin_run run (f := .membership r) hr with
      ⟨m, hm, s, e, s', ⟨hpath, hentitled, -, -⟩, -, -, hmakes⟩ | hold
    · cases e with
      | addRole q =>
        obtain rfl : r = q := hmakes
        rw [← (run.step_of_mem hm).pre] at hpath
        have hcatalogue := (Effect.extends_of_follows hpath).catalogue
        exact Or.inr ⟨m, hm, r, rfl, rfl, hgrants', hentitled.grants hcatalogue⟩
      | _ => exact False.elim hmakes
    · exact Or.inl ⟨r, hold, rfl, rfl, hgrants'⟩
  · rintro ⟨r, hr, rfl, rfl, hgrants⟩
    rcases hfacts (.membership r) hr with ⟨m, hm, hends⟩ | hkept
    · exact Or.inr ⟨m, hm, hends.withdraws⟩
    · exact Or.inl ⟨r, hkept, rfl, rfl, (roleGrants_congr hextends.catalogue).mpr hgrants⟩

/-- Over every run, whoever sends what and whatever fails on the way: the override of a flag for an
organisation is the same at the end, unless a demand of the run sets the flag; in particular that of a
flag that is not for self-service, unless a demand of an operator does. -/
theorem flag_authority {o : Uuid} {slug : String} (run : Run (Step config) i ms j)
    (h : j.tables.override o slug ≠ i.tables.override o slug) :
    ∃ m ∈ ms, m.label.Sets config o slug ∧
      (¬ i.tables.SelfService slug → ∃ route p, m.label.Acts config route p ∧
        p.Entitled m.label.world.tables "tenants.manage_all") := by
  have hends : ∃ m ∈ ms, m.label.Sets config o slug := by
    cases hold : i.tables.override o slug with
    | none =>
      have hfact : i.tables.Records (.noOverride o slug) := Table.find?_eq_none.mp hold
      rcases (frame_run run).2 _ hfact with ⟨m, hm, hends⟩ | hkept
      · exact ⟨m, hm, hends.sets_noOverride⟩
      · exact absurd ((Table.find?_eq_none.mpr hkept).trans hold.symm) h
    | some f =>
      obtain ⟨hf, hkey⟩ := Table.find?_eq_some.mp hold
      obtain ⟨rfl, rfl⟩ := Prod.mk.inj hkey
      rcases (frame_run run).2 (.override f) hf with ⟨m, hm, hends⟩ | hkept
      · exact ⟨m, hm, hends.sets_override⟩
      · exact absurd ((Table.find?_key hkept).trans hold.symm) h
  obtain ⟨m, hm, hsets⟩ := hends
  refine ⟨m, hm, hsets, fun hnot => ?_⟩
  obtain ⟨n, action, p, hacts, -, -, hself | hoperator⟩ := hsets
  · obtain ⟨before, after, -, first, -⟩ := run.split hm
    rw [(run.step_of_mem hm).pre] at hself
    exact absurd ((selfService_congr (frame_run first).1.catalogue).mp hself) hnot
  · exact ⟨_, p, hacts, hoperator⟩

end Arrival

/-! ## Two runs -/

section Runs

/-- The owner of `acme` makes `bob` a member. -/
def ownerAdds : Arrival :=
  ⟨.calm ownerTables 0, .guarded ownerHeaders (.addUser ⟨0x12, 0xa, "org_member"⟩)⟩

/-- The tables after that. -/
def ownerAdded : Tables :=
  (@Arrival.serve (signingPlatform ownerSession) ⟨id⟩ ⟨fun _ => "", fun _ => none⟩ runConfig
    ownerAdds).tables

/-- What `bob` may do in `acme` then was granted. -/
theorem permission_authority_ownerAdds :
    ∃ r : UserOrganisationRole, r.userId = 0x12 ∧ r.organisationId = 0xa ∧
      ownerTables.RoleGrants r.roleId "tenants.members.list" ∧
      @Arrival.Grants (signingPlatform ownerSession) runConfig ownerAdds r := by
  let _ : Platform := signingPlatform ownerSession
  let _ : Sha256 := ⟨id⟩
  let _ : AuditCursorText := ⟨fun _ => "", fun _ => none⟩
  have hstep : Arrival.Step runConfig ⟨ownerTables, 0⟩ ownerAdds ⟨ownerAdded, 0⟩ :=
    ⟨rfl, le_rfl, rfl, rfl⟩
  have hnew : ownerAdded.Holds 0x12 0xa "tenants.members.list" :=
    Tables.mem_granted.mp (by decide +kernel)
  have hold : ¬ ownerTables.Holds 0x12 0xa "tenants.members.list" := by
    rw [← Tables.mem_granted]
    decide +kernel
  obtain hsame | ⟨m, hm, r, huser, horg, hgrants, hgranted⟩ :=
    (Arrival.permission_authority (.single hstep) 0x12 0xa "tenants.members.list").1 hnew
  · exact absurd hsame hold
  · obtain rfl := List.mem_singleton.mp hm
    exact ⟨r, huser, horg, hgrants, hgranted⟩

/-- The owner of `acme` is an operator as well. -/
def operatorOwner : Tables := ownerTables.addRole ⟨0x11, 0xa, 0x101, 0⟩

/-- The owner allows one header for API keys. -/
def operatorSets : Arrival :=
  ⟨.calm operatorOwner 0, .guarded ownerHeaders
    (.resource ⟨0xa, 0, 0, 0⟩ (.putFeature "auth.api_key_headers" (.array [.string "x-api-key"])))⟩

/-- The tables after that. -/
def operatorSet : Tables :=
  (@Arrival.serve (signingPlatform ownerSession) ⟨id⟩ ⟨fun _ => "", fun _ => none⟩ runConfig
    operatorSets).tables

/-- The flag was the operator's to set. -/
theorem flag_authority_operatorSets :
    @Arrival.Sets (signingPlatform ownerSession) runConfig operatorSets 0xa
      "auth.api_key_headers" := by
  let _ : Platform := signingPlatform ownerSession
  let _ : Sha256 := ⟨id⟩
  let _ : AuditCursorText := ⟨fun _ => "", fun _ => none⟩
  have hstep : Arrival.Step runConfig ⟨operatorOwner, 0⟩ operatorSets ⟨operatorSet, 0⟩ :=
    ⟨rfl, le_rfl, rfl, rfl⟩
  have hdiffers : operatorSet.override 0xa "auth.api_key_headers" ≠
      operatorOwner.override 0xa "auth.api_key_headers" := by
    intro hsame
    have hset : (operatorSet.override 0xa "auth.api_key_headers").isSome = true := by decide +kernel
    rw [hsame] at hset
    revert hset
    decide +kernel
  obtain ⟨m, hm, hsets, -⟩ := Arrival.flag_authority (.single hstep) hdiffers
  obtain rfl := List.mem_singleton.mp hm
  exact hsets

end Runs
end Egras
