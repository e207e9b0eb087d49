import Egras.Security.ResetRequests
import Egras.Service.Admission
import Egras.Service.Grants

/-!
# How long sessions last

A login, or a switch to another organisation, opens a session. Its token is admitted until it has
expired, whoever sends what and whichever statements fail, unless a request in the very session has
logged out (`Arrival.session_lasts`); what it lets the caller do is what the tables say at that moment.
-/

namespace Egras
open Lib Relation

/-! ## Sessions that are opened -/

section Open
variable [JsonWebToken] {config : JwtConfig} {w v : World} {u org : Uuid} {token : String}

/-- What the token of a session says. -/
lemma encodeAccessToken_eq_ok (h : (encodeAccessToken config u org).run w = (.ok token, v)) :
    ∃ jti, JsonWebToken.encodeToken config.secret (accessClaims config u org jti w.now) =
      some token := by
  obtain ⟨now, w₁, hclock, h⟩ := Prog.bind_eq_ok h
  cases hclock
  obtain ⟨jti, w₂, -, h⟩ := Prog.bind_eq_ok h
  split at h
  · rename_i encoded hencode
    cases h
    exact ⟨jti, hencode⟩
  · cases h

/-- The token of a move was signed for the user in the target. -/
lemma switchOrg_opens {target : Uuid} (h : (switchOrg config u org target).run w = (.ok token, v)) :
    ∃ jti, JsonWebToken.encodeToken config.secret (accessClaims config u target jti w.now) =
      some token := by
  obtain ⟨member, w₁, hmember, h⟩ := Prog.bind_eq_ok h
  obtain ⟨-, rfl, -⟩ := query_eq_ok (Prog.mapErr_eq_ok (Prog.mapErr_eq_ok hmember))
  obtain ⟨_, w₂, hrequire, h⟩ := Prog.bind_eq_ok h
  obtain ⟨-, rfl⟩ := require_eq_ok hrequire
  obtain ⟨token', w₃, hencode, h⟩ := Prog.bind_eq_ok h
  obtain ⟨_, w₄, -, h⟩ := Prog.bind_eq_ok h
  cases h
  exact encodeAccessToken_eq_ok (w := w.tick) (Prog.mapErr_eq_ok hencode)

variable [Argon2]

/-- The token of a login was signed for the user that it tells. -/
lemma login_opens {input : LoginInput} {out : LoginOutput}
    (h : (login config input).run w = (.ok out, v)) :
    ∃ jti, JsonWebToken.encodeToken config.secret
      (accessClaims config out.userId out.activeOrgId jti w.now) = some out.token := by
  obtain ⟨user, w₁, hauth, h⟩ := Prog.bind_eq_ok h
  obtain ⟨_, w₂, hrehash, h⟩ := Prog.bind_eq_ok h
  obtain ⟨memberships, w₃, hlist, h⟩ := Prog.bind_eq_ok h
  have hnow : w₃.now = w.now :=
    (reads_execute_aside.of_run (Prog.mapErr_eq_ok hlist)).trans
      ((reads_opportunisticRehash.of_run hrehash).trans ((reads_authenticate fun _ _ => rfl).of_run hauth))
  cases memberships with
  | nil => cases h
  | cons first rest =>
    obtain ⟨token, w₄, hencode, h⟩ := Prog.bind_eq_ok h
    obtain ⟨_, w₅, -, h⟩ := Prog.bind_eq_ok h
    cases h
    rw [← hnow]
    exact encodeAccessToken_eq_ok (Prog.mapErr_eq_ok hencode)

end Open

/-! ## Sessions over runs -/

/-- A request that carries the token of a session is one of its user while the token has neither
expired nor been revoked, and of nobody otherwise. -/
lemma presented_iff_live [Platform] {config : JwtConfig} {headers : Headers} {w : World}
    {p : Principal} {token : String} {u org jti : Uuid} {issued : Timestamp} (signs : SignsTokens)
    (encoded : JsonWebToken.encodeToken config.secret (accessClaims config u org jti issued) = some token)
    (carried : headers.credential = some (token, .authorizationBearer)) :
    Principal.Presented config headers w p ↔
      (timestampSecs w.now ≤ timestampSecs issued + config.ttlSecs ∧
        w.tables.revoked jti w.now = false) ∧ p = ⟨.user u org jti, u, org, none⟩ := by
  have hdecode : decodeAccessToken config.secret config.issuer token w.now =
      if timestampSecs w.now ≤ timestampSecs issued + config.ttlSecs then
        some (accessClaims config u org jti issued) else none := by
    unfold decodeAccessToken
    rw [signs.decodes encoded]
    simp [accessClaims]
  constructor
  · intro h
    cases h with
    | token carried' noKey' decoded' notRevoked' =>
      cases carried.symm.trans carried'
      rw [hdecode] at decoded'
      split at decoded'
      · rename_i hlive
        cases decoded'
        exact ⟨⟨hlive, notRevoked'⟩, rfl⟩
      · cases decoded'
    | key carried' parses' =>
      cases carried.symm.trans carried'
      cases (signs.parse_eq_none encoded).symm.trans parses'
  · rintro ⟨⟨hlive, hkept⟩, rfl⟩
    rw [if_pos hlive] at hdecode
    exact .token carried (signs.parse_eq_none encoded) hdecode hkept

namespace Arrival
variable [Platform] [Sha256] {config : JwtConfig} {x : Arrival} {t : Tables} {token : String}
  {u org jti : Uuid}

/-- A demand opens a session: it is answered with the token of a session of a user in an
organisation. -/
inductive Opens (config : JwtConfig) (x : Arrival) (token : String) (u org : Uuid) : Prop
  | logsIn {req : LoginInput} {free : (Operation.login req).needsCaller = false} {out : LoginOutput}
      (demand : x.demand = .unguarded (.login req) free)
      (answer : ((postLogin config req).run x.world).1 = .ok out)
      (token : out.token = token) (user : out.userId = u) (organisation : out.activeOrgId = org)
  | switches {headers : Headers} {p : Principal} (demand : x.demand = .guarded headers (.switchOrg org))
      (presented : Principal.Presented config headers x.world p)
      (answer : ((respond config headers (.switchOrg org)).run x.world).1 = .ok (.token token))
      (user : p.user = u)

/-- A demand leaves a session: it logs out in the session itself. -/
def Leaves (config : JwtConfig) (x : Arrival) (jti : Uuid) : Prop :=
  ∃ userId organisationId p, x.Acts config .logout p ∧ p.kind = .user userId organisationId jti

omit [Sha256] in
/-- The token of a session names its user, its organisation and the time at which it was opened. -/
lemma Opens.encoded (hdistinct : x.world.tables.PrefixesDistinct) (h : x.Opens config token u org) :
    ∃ jti, JsonWebToken.encodeToken config.secret (accessClaims config u org jti x.world.now) =
      some token := by
  cases h with
  | logsIn demand answer htoken huser horg =>
    obtain rfl := htoken
    obtain rfl := huser
    obtain rfl := horg
    exact login_opens (Prog.mapErr_eq_ok (Prod.ext answer rfl))
  | @switches headers p demand presented answer huser =>
    obtain rfl := huser
    obtain ⟨q, c, w₁, hq, hc, hnow, hhandler⟩ := respond_eq_ok (Prod.ext answer rfl)
    obtain rfl := hq.unique hdistinct presented
    obtain ⟨token', w₂, hpost, hret⟩ := Prog.bind_eq_ok hhandler
    cases hret
    obtain ⟨_, w₃, hhuman, hpost⟩ := Prog.bind_eq_ok hpost
    rw [Prog.run_ofExcept] at hhuman
    obtain ⟨-, rfl⟩ := Prod.mk.inj hhuman
    rw [← hnow, ← hc.user]
    exact switchOrg_opens (Prog.mapErr_eq_ok hpost)

/-- Whoever revokes a token leaves its session. -/
lemma Entitles.leaves {r : RevokedToken} (h : x.Entitles config t (.revokeToken r)) :
    x.Leaves config r.jti := by
  obtain ⟨w, demand⟩ := x
  cases demand with
  | guarded headers route =>
    obtain ⟨p, c, hpresented, hc, hpasses, hpermits⟩ := h
    cases route with
    | logout =>
      have hhuman : p.kind.isHuman = true := hpasses.human rfl
      have hacts : Acts config ⟨w, .guarded headers .logout⟩ .logout p :=
        ⟨⟨headers, rfl, hpresented⟩, hpasses⟩
      cases hkind : p.kind with
      | user userId organisationId jti =>
        refine ⟨userId, organisationId, p, hacts, ?_⟩
        rw [hkind, hpermits.1, hc.session _ _ _ hkind]
      | apiKey keyId saUserId organisationId =>
        rw [hkind] at hhuman
        cases hhuman
    | resource n action => cases action <;> exact False.elim hpermits
    | _ => exact False.elim hpermits
  | unguarded operation free =>
    cases operation with
    | request _ _ _ | call _ => cases free
    | _ => exact False.elim h

/-- Whoever ends a session leaves it. -/
lemma Ends.leaves {m : Move Instant Arrival} (h : Ends config m (.unrevoked jti)) :
    m.label.Leaves config jti := by
  obtain ⟨t, e, t', ⟨-, hentitled, -, -⟩, -, -, htakes⟩ := h
  cases e with
  | revokeToken r =>
    obtain rfl : r.jti = jti := htakes
    exact hentitled.leaves
  | deleteUser userId => cases htakes
  | _ => exact False.elim htakes

omit [Sha256] in
/-- A session is not left by the demand that opens it. -/
lemma Opens.stays (h : x.Opens config token u org) : ¬ x.Leaves config jti := by
  rintro ⟨_, _, _, ⟨⟨_, hdemand, -⟩, -⟩, -⟩
  cases h with
  | logsIn demand => cases demand.symm.trans hdemand
  | switches demand => cases demand.symm.trans hdemand

variable [AuditCursorText] {i s j : Instant} {ms : List (Move Instant Arrival)}

/-- Once a session has been opened, whoever sends what and whichever statements fail: unless a request
of the run has left the session, a request with its token is admitted, while the database answers,
exactly until the token expires, and is one of the user in the organisation of the session, with the
permissions that it holds there at that moment. The identifier of the session is taken to be new. -/
theorem session_lasts (signs : SignsTokens) (step : x.Step config i s)
    (opens : x.Opens config token u org) (hdistinct : i.tables.PrefixesDistinct) {claims : Claims}
    (decodes : JsonWebToken.decodeToken config.secret token = some claims)
    (fresh : i.tables.Records (.unrevoked claims.jti)) (run : Run (Step config) s ms j)
    (stays : ∀ m ∈ ms, ¬ m.label.Leaves config claims.jti) {w : World} (htables : w.tables = j.tables)
    (hw : w.Healthy) {headers : Headers}
    (carried : headers.credential = some (token, .authorizationBearer)) :
    ((∃ ext v, (call config headers).run w = (.ok ext, v)) ↔
      timestampSecs w.now ≤ timestampSecs x.world.now + config.ttlSecs) ∧
    ∀ ext v, (call config headers).run w = (.ok ext, v) →
      ∃ c, ext = c.extensions (.user u org claims.jti) ∧
        AuthedCaller.Represents c ⟨.user u org claims.jti, u, org, none⟩ w.tables := by
  obtain ⟨jti, hencoded⟩ := opens.encoded (step.pre ▸ hdistinct)
  obtain rfl := Option.some.inj ((signs.decodes hencoded).symm.trans decodes)
  have hopened : Run (Step config) i (⟨i, x, s⟩ :: ms) j := .cons step run
  have hunrevoked : j.tables.Records (.unrevoked jti) := by
    refine ((frame_run hopened).2 _ fresh).resolve_left ?_
    rintro ⟨m, hm, hends⟩
    rcases List.mem_cons.mp hm with rfl | hm
    · exact opens.stays hends.leaves
    · exact stays m hm hends.leaves
  have hlive : w.tables.revoked jti w.now = false := by
    rw [htables]
    refine Table.any_eq_false.mpr fun r hr => ?_
    simp [hunrevoked r hr]
  have hpresented : ∀ p, Principal.Presented config headers w p ↔
      (timestampSecs w.now ≤ timestampSecs x.world.now + config.ttlSecs ∧
        w.tables.revoked jti w.now = false) ∧ p = ⟨.user u org jti, u, org, none⟩ := fun p =>
    presented_iff_live signs hencoded carried
  constructor
  · constructor
    · rintro ⟨ext, v, hcall⟩
      obtain ⟨p, c, hp, -, -⟩ := call_presents hcall
      exact ((hpresented p).mp hp).1.1
    · intro htime
      refine call_of_presented hw ?_ ((hpresented _).mpr ⟨⟨htime, hlive⟩, rfl⟩)
      exact htables ▸ prefixesDistinct_run hopened hdistinct
  · intro ext v hcall
    obtain ⟨p, c, hp, hc, hext⟩ := call_presents hcall
    obtain ⟨-, rfl⟩ := (hpresented p).mp hp
    exact ⟨c, hext, hc⟩

end Arrival

/-! ## A run -/

section Runs

/-- A platform that signs the token of the owner's session. -/
@[reducible] def loginPlatform : Platform where
  __ := plainPlatform
  toJsonWebToken := sessionPlatform.toJsonWebToken

/-- A token decodes to the claims that it was signed for. -/
lemma loginPlatform_signsTokens : @SignsTokens loginPlatform :=
  @SignsTokens.mk loginPlatform (@SignsTokens.decodes sessionPlatform sessionPlatform_signsTokens)
    (@SignsTokens.header sessionPlatform sessionPlatform_signsTokens)
    (@SignsTokens.visible sessionPlatform sessionPlatform_signsTokens)

/-- The owner of `acme` logs in. -/
def aliceLogsIn : Arrival :=
  ⟨.calm ownerTables 0, .unguarded (.login ⟨"alice", "correct horse"⟩) rfl⟩

/-- The tables after that. -/
def aliceLoggedIn : Tables :=
  (@Arrival.serve loginPlatform ⟨id⟩ ⟨fun _ => "", fun _ => none⟩ runConfig aliceLogsIn).tables

/-- Somebody guesses the owner's password, which changes nothing. -/
def guesses : Arrival := ⟨.calm aliceLoggedIn 5, .unguarded (.login ⟨"alice", "battery staple"⟩) rfl⟩

/-- Tables with one user. -/
def guessed : Tables :=
  (@Arrival.serve loginPlatform ⟨id⟩ ⟨fun _ => "", fun _ => none⟩ runConfig guesses).tables

/-- An hour after the login the session is still open. -/
theorem session_lasts_aliceLogsIn :
    ∃ ext v, (@call loginPlatform.toArgon2 loginPlatform.toJsonWebToken runConfig
      (bearerHeaders sessionToken)).run (.calm guessed 3600000000) = (Except.ok ext, v) := by
  let _ : Platform := loginPlatform
  let _ : Sha256 := ⟨id⟩
  let _ : AuditCursorText := ⟨fun _ => "", fun _ => none⟩
  have hlogin : Arrival.Step runConfig ⟨ownerTables, 0⟩ aliceLogsIn ⟨aliceLoggedIn, 0⟩ :=
    ⟨rfl, le_rfl, rfl, rfl⟩
  have hguess : Arrival.Step runConfig ⟨aliceLoggedIn, 0⟩ guesses ⟨guessed, 5⟩ :=
    ⟨rfl, by decide, rfl, rfl⟩
  have hanswer : ((postLogin runConfig ⟨"alice", "correct horse"⟩).run aliceLogsIn.world).1 =
      .ok ⟨sessionToken, 0x11, 0xa, [⟨0xa, "acme", ["org_owner"], 0⟩]⟩ := by decide +kernel
  have opens : aliceLogsIn.Opens runConfig sessionToken 0x11 0xa := .logsIn rfl hanswer rfl rfl rfl
  have hdistinct : ownerTables.PrefixesDistinct := fun _ h => absurd h List.not_mem_nil
  have hfresh : ownerTables.Records (.unrevoked sessionClaims.jti) :=
    fun _ h => absurd h List.not_mem_nil
  have hstays : ∀ m ∈ [Move.mk (Instant.mk aliceLoggedIn 0) guesses ⟨guessed, 5⟩],
      ¬ m.label.Leaves runConfig sessionClaims.jti := by
    rintro m hm ⟨_, _, _, ⟨⟨_, hdemand, -⟩, -⟩, -⟩
    obtain rfl := List.mem_singleton.mp hm
    cases hdemand
  have hhealthy : (World.calm guessed 3600000000).Healthy := fun n => by
    simp [World.answersAll, World.calm]
  have hencoded : JsonWebToken.encodeToken runConfig.secret sessionClaims = some sessionToken := rfl
  have hdecoded := loginPlatform_signsTokens.decodes hencoded
  have hcarried := loginPlatform_signsTokens.credential_bearerHeaders hencoded
  exact (Arrival.session_lasts loginPlatform_signsTokens hlogin opens hdistinct hdecoded hfresh
    (.single hguess) hstays (w := .calm guessed 3600000000) rfl hhealthy hcarried).1.mpr (by decide)

end Runs
end Egras
