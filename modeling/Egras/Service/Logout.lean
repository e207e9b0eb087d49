import Egras.Service.Quiet

/-!
# Whether a logout is final

Two rules end an access token: `jsonwebtoken` rejects it from the second after `exp` on, and after a
logout its revocation rejects it until the instant `exp` itself. Between the two lies the second of
`exp`, in which neither does. So after a logout a token is never admitted exactly before `exp` and
from the second after it on (`logout_final_iff`), when its user is not deleted and `exp` is an
instant that `chrono` knows; else the revocation is gone at once.
-/

namespace Egras
open Lib

/-! ## Revocations -/

/-- All revocations under the identifier of a token are by logouts with it. -/
def Instant.Traced (i : Instant) (claims : Claims) : Prop :=
  ∀ r ∈ i.tables.revokedTokens, r.jti = claims.jti → ∃ past ≤ i.now, r = claims.revocation past

/-- A logout with a token has stored its revocation. -/
def Instant.Revoked (i : Instant) (claims : Claims) : Prop :=
  ∃ past ≤ i.now, claims.revocation past ∈ i.tables.revokedTokens

/-- How long a revocation is in force. -/
lemma Instant.Revoked.revoked_iff {i : Instant} {claims : Claims} {now : Timestamp}
    (h : i.Revoked claims) (hnow : i.now ≤ now) :
    i.tables.revoked claims.jti now = true ↔
      (fromTimestamp claims.exp).isSome = true ∧ now < claims.exp * 1000000 := by
  obtain ⟨past, hpast, hr⟩ := h
  -- the identifier is the key of the revocations, so that there is no other
  have hunique : i.tables.revoked claims.jti now = true ↔
      now < (claims.revocation past).expiresAt := by
    unfold Tables.revoked
    rw [Table.any_eq_true]
    constructor
    · rintro ⟨q, hq, hp⟩
      simp only [Bool.and_eq_true, decide_eq_true_eq] at hp
      obtain ⟨hjti, hactive⟩ := hp
      rwa [Table.eq_of_key hq hr hjti] at hactive
    · intro hactive
      exact ⟨_, hr, (Bool.and_eq_true _ _).mpr ⟨decide_eq_true rfl, decide_eq_true hactive⟩⟩
  rw [hunique]
  show now < (fromTimestamp claims.exp).getD past ↔ _
  unfold fromTimestamp
  split
  · simp
  · simp only [Option.getD_none, Option.isSome_none, Bool.false_eq_true, false_and, iff_false]
    exact not_lt.mpr (hpast.trans hnow)

/-- A new service account leaves the revoked tokens alone. -/
@[simp] lemma Tables.addServiceAccount_revokedTokens {t : Tables} {sa : ServiceAccount} :
    (t.addServiceAccount sa).revokedTokens = t.revokedTokens := by
  unfold addServiceAccount
  split <;> rfl

/-- A new key leaves the revoked tokens alone. -/
@[simp] lemma Tables.addKey_revokedTokens {t : Tables} {k : ApiKeyRecord} :
    (t.addKey k).revokedTokens = t.revokedTokens := by
  unfold addKey
  split <;> rfl

/-- What a request for guarded resources does to the revocations. -/
lemma ResourceAction.Changes.revocations [CaseMapping] {c : AuthedCaller} {kind : Caller}
    {n : Names} {act : ResourceAction} {t t' : Tables} (h : act.Changes c kind n t t') :
    t'.revokedTokens = t.revokedTokens ∨
      act = .deleteServiceAccount ∧
        t'.revokedTokens = t.revokedTokens.deleteWhere (fun r => r.userId = n.serviceAccount) := by
  cases h with
  | channels _ h =>
    obtain ⟨rows, rfl, -⟩ := h
    exact Or.inl rfl
  | flags _ h =>
    obtain ⟨rows, rfl, -⟩ := h
    exact Or.inl rfl
  | hires w _ _ _ _ tables _ h =>
    rw [h, ← tables]
    exact Or.inl (Tables.addServiceAccount_revokedTokens.trans Tables.addUser_revokedTokens)
  | dismisses names _ _ _ h =>
    rw [Tables.deleteUser_eq_ok h]
    exact Or.inr ⟨names, rfl⟩
  | adds k _ _ _ _ h => exact Or.inl (h ▸ Tables.addKey_revokedTokens)
  | rotates k now _ _ _ _ _ h => exact Or.inl (h ▸ Tables.addKey_revokedTokens)
  | revokes now _ _ h => exact Or.inl (h ▸ rfl)

namespace OperationCall

/-- A request of a caller with these claims to log out is answered. -/
def LogsOut (x : OperationCall) (claims : Claims) : Prop :=
  ∃ c kind code v, x.operation = .request c kind .logout ∧ c.claims = claims ∧
    (postLogout (c.extensions kind)).run x.world = (.ok code, v)

/-- Whoever logs out with the identifier of a token has its claims. -/
def Owns (x : OperationCall) (claims : Claims) : Prop :=
  ∀ c kind, x.operation = .request c kind .logout → c.claims.jti = claims.jti → c.claims = claims

end OperationCall

/-! ## When a token is admitted -/

section Admit
variable [Platform]

/-- `jsonwebtoken` decodes what it has encoded, into texts of visible ASCII that begin with the
base64 of an opening brace. -/
structure SignsTokens : Prop where
  decodes : ∀ {secret token : String} {claims : Claims},
    JsonWebToken.encodeToken secret claims = some token →
      JsonWebToken.decodeToken secret token = some claims
  header : ∀ {secret token : String} {claims : Claims},
    JsonWebToken.encodeToken secret claims = some token → "eyJ".toList <+: token.toList
  visible : ∀ {secret token : String} {claims : Claims},
    JsonWebToken.encodeToken secret claims = some token →
      ∀ c ∈ token.toList, 32 < c.toNat ∧ c.toNat < 127

/-- A request that carries a token reaches the inner service at an instant. -/
def Instant.Admits (i : Instant) (config : JwtConfig) (token : String) : Prop :=
  ∃ w headers source ext v, w.tables = i.tables ∧ w.now = i.now ∧
    headers.credential = some (token, source) ∧ (call config headers).run w = (.ok ext, v)

/-- The headers of a request with a bearer token. -/
def bearerHeaders (token : String) : Headers :=
  [("authorization", ("Bearer " ++ token).toList.map (fun c => UInt8.ofNat c.toNat))]

variable {config : JwtConfig} {claims : Claims} {token : String} {i : Instant}

/-- An access token is no API key. -/
lemma SignsTokens.parse_eq_none (signs : SignsTokens)
    (h : JsonWebToken.encodeToken config.secret claims = some token) :
    ParsedKey.parse token = none := by
  obtain ⟨rest, hrest⟩ := signs.header h
  have hstrip : stripPrefix "egras_" token = none := by
    unfold stripPrefix
    rw [← hrest]
    rfl
  unfold ParsedKey.parse
  rw [hstrip]

/-- A header can carry an access token. -/
lemma SignsTokens.credential_bearerHeaders (signs : SignsTokens)
    (h : JsonWebToken.encodeToken config.secret claims = some token) :
    (bearerHeaders token).credential = some (token, .authorizationBearer) := by
  have hkey : (bearerHeaders token).text "x-api-key" = none := rfl
  have hbearer : (bearerHeaders token).text "authorization" = some ("Bearer " ++ token) := by
    refine headerToStr_visible fun c hc => ?_
    rw [String.toList_append] at hc
    rcases List.mem_append.mp hc with hc | hc
    · have hscheme : "Bearer ".toList.all (fun c => 32 ≤ c.toNat && c.toNat < 127) = true := by
        decide
      simpa using List.all_eq_true.mp hscheme c hc
    · have hvisible := signs.visible h c hc
      omega
  have hstrip : stripPrefix "Bearer " ("Bearer " ++ token) = some token := by
    unfold stripPrefix
    rw [String.toList_append, if_pos (by simp), List.drop_left', String.ofList_toList]
    rfl
  unfold Headers.credential
  rw [hkey, hbearer]
  show (stripPrefix "Bearer " ("Bearer " ++ token)).map _ = _
  rw [hstrip]
  rfl

/-- A token that decodes and is not revoked is accepted when the database answers. -/
lemma handleJwt_of_live {w : World} (h : w.answersAll 2 = true)
    (hdecode : decodeAccessToken config.secret config.issuer token w.now = some claims)
    (hlive : w.tables.revoked claims.jti w.now = false) :
    ∃ ext v, (handleJwt config token).run w = (.ok ext, v) := by
  simp only [World.answersAll_succ, World.answersAll_zero, Bool.and_true, Bool.and_eq_true] at h
  obtain ⟨h₁, h₂⟩ := h
  refine Prog.bind_returns rfl ?_
  rw [hdecode]
  refine Prog.bind_returns (Prog.run_mapErr_ok (run_query_of h₁ hlive)) ?_
  refine Prog.bind_returns rfl ?_
  exact Prog.bind_returns (Prog.run_mapErr_ok (run_query_ok h₂)) ⟨_, _, rfl⟩

/-- When the token with some claims is admitted. -/
lemma admits_iff (signs : SignsTokens)
    (h : JsonWebToken.encodeToken config.secret claims = some token)
    (hiss : claims.iss = config.issuer) (htyp : claims.typ = "access") :
    i.Admits config token ↔
      timestampSecs i.now ≤ claims.exp ∧ i.tables.revoked claims.jti i.now = false := by
  have hdecode : ∀ now, decodeAccessToken config.secret config.issuer token now =
      if timestampSecs now ≤ claims.exp then some claims else none := by
    intro now
    unfold decodeAccessToken
    rw [signs.decodes h]
    simp [hiss, htyp]
  constructor
  · rintro ⟨w, headers, source, ext, v, htables, hnow, hcredential, hrun⟩
    obtain ⟨tables, now⟩ := i
    obtain rfl := htables
    obtain rfl := hnow
    obtain ⟨r, -, hcall⟩ | ⟨plaintext, source', parsed, hcredential', hparsed, -⟩ |
      ⟨token', hcredential', -, hcall⟩ := call_cases config headers
    · rw [hcall] at hrun
      cases hrun
    · -- a token is not taken for an API key
      cases hcredential.symm.trans hcredential'
      rw [signs.parse_eq_none h] at hparsed
      cases hparsed
    · cases hcredential.symm.trans hcredential'
      rw [hcall] at hrun
      obtain ⟨claims', hadmits, -⟩ := handleJwt_eq_ok hrun
      have hdecoded := hadmits.decoded
      rw [hdecode] at hdecoded
      split at hdecoded
      · rename_i hvalid
        cases hdecoded
        exact ⟨hvalid, hadmits.notRevoked⟩
      · cases hdecoded
  · rintro ⟨hvalid, hlive⟩
    have hcredential := signs.credential_bearerHeaders h
    obtain ⟨ext, v, hrun⟩ := handleJwt_of_live (w := .calm i.tables i.now) rfl
      ((hdecode i.now).trans (if_pos hvalid)) hlive
    have hcall : call config (bearerHeaders token) = handleJwt config token := by
      simp [call, hcredential, signs.parse_eq_none h]
    exact ⟨.calm i.tables i.now, bearerHeaders token, _, ext, v, rfl, rfl, hcredential,
      hcall ▸ hrun⟩

/-! ## What a run leaves of a revocation -/

/-- A token is issued with some claims at an instant, under an identifier that is new. -/
structure Issues (config : JwtConfig) (claims : Claims) (token : String) (i : Instant) : Prop where
  encoded : ∃ w v userId orgId, w.tables = i.tables ∧ w.now = i.now ∧
    (encodeAccessToken config userId orgId).run w = (.ok token, v) ∧
    claims = accessClaims config userId orgId (w.uuids.headD 0) i.now
  fresh : ∀ r ∈ i.tables.revokedTokens, r.jti ≠ claims.jti

/-- What the claims of an issued token are. -/
lemma Issues.claims_eq (h : Issues config claims token i) :
    JsonWebToken.encodeToken config.secret claims = some token ∧
      claims.iss = config.issuer ∧ claims.typ = "access" := by
  obtain ⟨w, v, userId, orgId, -, hnow, hrun, rfl⟩ := h.encoded
  obtain ⟨now, w₁, hclock, h₁⟩ := Prog.bind_eq_ok hrun
  cases hclock
  obtain ⟨jti, w₂, hid, h₂⟩ := Prog.bind_eq_ok h₁
  obtain ⟨rfl, rfl⟩ := nowV7_eq_ok hid
  split at h₂
  · rename_i encoded hencode
    cases h₂
    rw [← hnow]
    exact ⟨hencode, rfl, rfl⟩
  · cases h₂

variable [Sha256] [AuditCursorText] {j : Instant} {x : OperationCall}

/-- Only a logout with the token adds a revocation under its identifier. -/
lemma Instant.Traced.step (h : i.Traced claims) (step : x.Step config i j) (own : x.Owns claims) :
    j.Traced claims := by
  have houtcome := step.outcome
  obtain ⟨-, hlater, -, hnow⟩ := step
  intro r hr hjti
  -- a revocation that was there already is one of an earlier logout
  have hold : r ∈ i.tables.revokedTokens → ∃ past ≤ j.now, r = claims.revocation past := by
    intro hr
    obtain ⟨past, hpast, hrevocation⟩ := h r hr hjti
    exact ⟨past, hnow ▸ hpast.trans hlater, hrevocation⟩
  cases houtcome with
  | quiet h => exact hold (h.revocations ▸ hr)
  | revokes c kind op h =>
    rcases (Tables.insertRevokedToken_eq_ok h).2 with ⟨hsame, -⟩ | hadds
    · exact hold (hsame ▸ hr)
    · rcases (hadds r).mp hr with hr | rfl
      · exact hold hr
      · exact ⟨x.world.now, hnow.ge, by rw [own c kind op hjti]⟩
  | resource c kind n action _ _ h =>
    rcases h.revocations with hsame | ⟨-, hdelete⟩
    · exact hold (hsame ▸ hr)
    · rw [hdelete] at hr
      exact hold (Table.mem_deleteWhere.mp hr).1

/-- A logout with the token leaves its revocation behind. -/
lemma Instant.Traced.logsOut (h : i.Traced claims) (step : x.Step config i j)
    (logout : x.LogsOut claims) : j.Revoked claims := by
  obtain ⟨hpre, hlater, hpost, hnow⟩ := step
  obtain ⟨w, operation⟩ := x
  obtain ⟨c, kind, code, v, rfl, rfl, hrun⟩ := logout
  obtain ⟨hinsert, -⟩ := postLogout_eq_ok hrun
  have hv : v.tables = j.tables := by
    rw [← hpost]
    show v.tables = ((postLogout (c.extensions kind)).run w).2.tables
    rw [hrun]
  rw [hpre, hv] at hinsert
  rcases (Tables.insertRevokedToken_eq_ok hinsert).2 with ⟨hsame, q, hq, hjti⟩ | hadds
  · obtain ⟨past, hpast, rfl⟩ := h q hq hjti
    exact ⟨past, hnow ▸ hpast.trans hlater, hsame ▸ hq⟩
  · exact ⟨w.now, hnow.ge, (hadds _).mpr (Or.inr rfl)⟩

/-- Only the deletion of its user takes a revocation away. -/
lemma Instant.Revoked.step (h : i.Revoked claims) (step : x.Step config i j)
    (kept : ¬ x.Deletes claims.sub) : j.Revoked claims := by
  have houtcome := step.outcome
  obtain ⟨-, hlater, -, hnow⟩ := step
  obtain ⟨past, hpast, hr⟩ := h
  refine ⟨past, hnow ▸ hpast.trans hlater, ?_⟩
  cases houtcome with
  | quiet h => exact h.revocations ▸ hr
  | revokes c kind op h =>
    rcases (Tables.insertRevokedToken_eq_ok h).2 with ⟨hsame, -⟩ | hadds
    · exact hsame ▸ hr
    · exact (hadds _).mpr (Or.inl hr)
  | resource c kind n action _ deletes h =>
    rcases h.revocations with hsame | ⟨hdelete, hrows⟩
    · exact hsame ▸ hr
    · rw [hrows]
      refine Table.mem_deleteWhere.mpr ⟨hr, ?_⟩
      have hother : claims.sub ≠ n.serviceAccount := fun h => kept (h ▸ deletes hdelete)
      exact decide_eq_false hother

/-- In every run in which a token is issued and later a logout with it is answered, whatever comes
before and after, the token is not admitted at an instant afterwards exactly when this is before its
`exp`, where `exp` is an instant that `chrono` knows, or after the second of `exp`; given that the
token's identifier is its own and that its user is not deleted after the logout. -/
theorem logout_final_iff (signs : SignsTokens) {i₀ : Instant}
    (issued : Issues config claims token i₀) {before after : List (Move Instant OperationCall)}
    {m : Move Instant OperationCall}
    (run : Run (OperationCall.Step config) i₀ (before ++ m :: after) i)
    (logout : m.label.LogsOut claims) (own : ∀ n ∈ before, n.label.Owns claims)
    (kept : ∀ n ∈ after, ¬ n.label.Deletes claims.sub) {now : Timestamp} (later : i.now ≤ now) :
    ¬ Instant.Admits ⟨i.tables, now⟩ config token ↔
      (fromTimestamp claims.exp).isSome = true ∧ now < claims.exp * 1000000 ∨
        (claims.exp + 1) * 1000000 ≤ now := by
  obtain ⟨u, first, rest⟩ := run.of_append
  obtain ⟨rfl, hlogout, rest⟩ := rest.of_cons
  have htraced : m.pre.Traced claims :=
    first.invariant (fun i => i.Traced claims) (fun n => n.label.Owns claims)
      (fun r hr hjti => absurd hjti (issued.fresh r hr))
      (fun _ _ _ step hown h => h.step step hown) own
  have hrevoked : i.Revoked claims :=
    rest.invariant (fun i => i.Revoked claims) (fun n => ¬ n.label.Deletes claims.sub)
      (htraced.logsOut hlogout logout) (fun _ _ _ step hkept h => h.step step hkept) kept
  obtain ⟨hencode, hiss, htyp⟩ := issued.claims_eq
  rw [admits_iff signs hencode hiss htyp, not_and_or, Bool.not_eq_false,
    hrevoked.revoked_iff later, or_comm]
  rw [timestampSecs_le_iff, not_lt]

end Admit

section Runs

/-- The claims of a session of the owner of `acme`. -/
def sessionClaims : Claims := ⟨0x11, 0xa, 0, 3600, 0x21, "egras", "access"⟩

/-- Their token under HS256 with the secret `secret`. -/
def sessionToken : String :=
  "eyJ0eXAiOiJKV1QiLCJhbGciOiJIUzI1NiJ9." ++
  "eyJzdWIiOiIwMDAwMDAwMC0wMDAwLTAwMDAtMDAwMC0wMDAwMDAwMDAwMTEiLCJvcmciOiIwMDAwMDAwMC0wMDAwLTAwMDAt" ++
  "MDAwMC0wMDAwMDAwMDAwMGEiLCJpYXQiOjAsImV4cCI6MzYwMCwianRpIjoiMDAwMDAwMDAtMDAwMC0wMDAwLTAwMDAtMDAw" ++
  "MDAwMDAwMDIxIiwiaXNzIjoiZWdyYXMiLCJ0eXAiOiJhY2Nlc3MifQ." ++
  "lTk3Fd9I3zpf7mSPhOsx_6yxEnaHFZWpQliktMnCOAw"

/-- A platform that signs this token. -/
@[reducible] def sessionPlatform : Platform where
  __ := asciiPlatform
  encodeToken secret claims :=
    if secret = "secret" ∧ claims = sessionClaims then some sessionToken else none
  decodeToken secret token :=
    if secret = "secret" ∧ token = sessionToken then some sessionClaims else none

/-- A configuration of the tokens. -/
def sessionConfig : JwtConfig := ⟨"secret", "egras", 3600⟩

/-- The owner ends the session after five microseconds. -/
def endsSession : OperationCall where
  world := .calm .twoTenants 5
  operation := .request ⟨sessionClaims, ⟨∅⟩⟩ (.user 0x11 0xa 0x21) .logout

/-- The tables after that. -/
def sessionEnded : Tables :=
  (@OperationCall.serve sessionPlatform ⟨id⟩ ⟨fun _ => "", fun _ => none⟩ sessionConfig
    endsSession).tables

/-- The platform signs one token only. -/
lemma encodeToken_sessionPlatform {secret token : String} {claims : Claims}
    (h : @JsonWebToken.encodeToken sessionPlatform.toJsonWebToken secret claims = some token) :
    secret = "secret" ∧ claims = sessionClaims ∧ token = sessionToken := by
  have hsplit : (if secret = "secret" ∧ claims = sessionClaims then some sessionToken else none) =
      some token := h
  split at hsplit
  · rename_i heq
    cases hsplit
    exact ⟨heq.1, heq.2, rfl⟩
  · cases hsplit

/-- A token decodes to the claims that it was signed for. -/
lemma sessionPlatform_signsTokens : @SignsTokens sessionPlatform := by
  let _ : Platform := sessionPlatform
  constructor
  case decodes =>
    intro secret token claims h
    obtain ⟨rfl, rfl, rfl⟩ := encodeToken_sessionPlatform h
    exact if_pos ⟨rfl, rfl⟩
  case header =>
    intro secret token claims h
    obtain ⟨-, -, rfl⟩ := encodeToken_sessionPlatform h
    have hheader : "eyJ".toList.isPrefixOf sessionToken.toList = true := by
      unfold sessionToken
      iterate 4 rw [String.toList_append]
      iterate 6 rw [String.toList_ofList]
      decide +kernel
    exact List.isPrefixOf_iff_prefix.mp hheader
  case visible =>
    intro secret token claims h
    obtain ⟨-, -, rfl⟩ := encodeToken_sessionPlatform h
    have hall : sessionToken.toList.all (fun c => 32 < c.toNat && c.toNat < 127) = true := by
      unfold sessionToken
      iterate 4 rw [String.toList_append]
      iterate 5 rw [String.toList_ofList]
      decide +kernel
    intro c hc
    simpa using List.all_eq_true.mp hall c hc

/-- The session is issued, with no statement failing. -/
lemma session_issued :
    @Issues sessionPlatform sessionConfig sessionClaims sessionToken ⟨.twoTenants, 0⟩ := by
  let _ : Platform := sessionPlatform
  exact ⟨⟨.calm .twoTenants 0, _, 0x11, 0xa, rfl, rfl, rfl, rfl⟩, by decide⟩

/-- The request ends the session. -/
lemma session_ends :
    @OperationCall.Step sessionPlatform ⟨id⟩ ⟨fun _ => "", fun _ => none⟩ sessionConfig
        ⟨.twoTenants, 0⟩ endsSession ⟨sessionEnded, 5⟩ ∧
      endsSession.LogsOut sessionClaims :=
  ⟨@OperationCall.Step.mk sessionPlatform ⟨id⟩ ⟨fun _ => "", fun _ => none⟩ _ _ _ _ rfl (by decide)
    rfl rfl, ⟨_, _, _, _, rfl, rfl, rfl⟩⟩

/-- Half a second into the second of `exp` the session is open again. -/
theorem session_reopened :
    @Issues sessionPlatform sessionConfig sessionClaims sessionToken ⟨.twoTenants, 0⟩ ∧
      @OperationCall.Step sessionPlatform ⟨id⟩ ⟨fun _ => "", fun _ => none⟩ sessionConfig
        ⟨.twoTenants, 0⟩ endsSession ⟨sessionEnded, 5⟩ ∧
      endsSession.LogsOut sessionClaims ∧
      @Instant.Admits sessionPlatform ⟨sessionEnded, 3600500000⟩ sessionConfig sessionToken := by
  refine ⟨session_issued, session_ends.1, session_ends.2, ?_⟩
  let _ : Platform := sessionPlatform
  have hencode : JsonWebToken.encodeToken sessionConfig.secret sessionClaims = some sessionToken :=
    rfl
  exact (admits_iff sessionPlatform_signsTokens hencode rfl rfl).mpr ⟨by decide, by decide⟩

/-- Half an hour after the session has ended it is closed. -/
theorem logout_final_iff_session :
    ¬ @Instant.Admits sessionPlatform ⟨sessionEnded, 1800000000⟩ sessionConfig sessionToken := by
  let _ : Platform := sessionPlatform
  let _ : Sha256 := ⟨id⟩
  let _ : AuditCursorText := ⟨fun _ => "", fun _ => none⟩
  have hrun : Run (OperationCall.Step sessionConfig) ⟨.twoTenants, 0⟩
      ([] ++ ⟨⟨.twoTenants, 0⟩, endsSession, ⟨sessionEnded, 5⟩⟩ :: []) ⟨sessionEnded, 5⟩ :=
    .single session_ends.1
  exact (logout_final_iff sessionPlatform_signsTokens session_issued hrun session_ends.2
    (by simp) (by simp) (by decide)).mpr (Or.inl ⟨rfl, by decide⟩)

end Runs
end Egras
