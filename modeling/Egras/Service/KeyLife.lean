import Egras.Security.KeyFormat
import Egras.Service.Admission
import Egras.Service.Grants

/-!
# How long API keys last

The other side of revocation: a key that the service has handed out keeps working, whoever sends what
and whichever statements fail, until a request of its own organisation deletes or rotates it or
dismisses its service account (`Arrival.key_lasts`). What it lets its bearer do is what the tables say
at that moment.
-/

namespace Egras
open Lib Relation

/-! ## Keys that are handed out -/

section Keys
variable [Argon2] [Base64] {w v : World}

/-- A text opens a key: it spells the prefix of the key and a secret whose hash is stored. -/
def ApiKeyRecord.OpenedBy (k : ApiKeyRecord) (plaintext : String) : Prop :=
  ∃ secret, ParsedKey.parse plaintext = some ⟨"live", k.keyPrefix, secret⟩ ∧ HashOf secret k.secretHash

/-- Encoded secrets are not empty. -/
def EncodesSecrets : Prop := ∀ bytes : List UInt8, bytes.length = 32 → Base64.urlSafeEncode bytes ≠ ""

omit [Argon2] in
/-- A generated key parses to its own parts. -/
lemma parse_generateKey {ε : Type} (encodes : EncodesSecrets) {g : GeneratedKey}
    (h : (generateKey : Action ε GeneratedKey).run w = (.ok g, v)) :
    ParsedKey.parse g.plaintext = some ⟨"live", g.keyPrefix, g.secret⟩ := by
  obtain ⟨prefixBytes, w₁, hpre, h⟩ := Prog.bind_eq_ok h
  obtain ⟨secretBytes, w₂, hsecret, h⟩ := Prog.bind_eq_ok h
  cases hpre
  cases hsecret
  cases h
  have hlive : '_' ∉ "live".toList := by decide
  refine ParsedKey.parse_eq_some_iff.mpr ⟨rfl, hlive, ?_, fun c => mem_hexEncode, ?_⟩
  · rw [length_hexEncode, List.takeD_length]
  · exact encodes _ (List.takeD_length _ _ _)

/-- A fresh row is opened by the plaintext that comes with it. -/
lemma freshKeyRow_opens (encodes : EncodesSecrets) {saUserId createdBy : Uuid} {name : String}
    {scopes : Option (List String)} {g : GeneratedKey} {row : NewApiKeyRow} {now : Timestamp}
    (h : (freshKeyRow saUserId name scopes createdBy).run w = (.ok (g, row), v)) :
    (row.record now).OpenedBy g.plaintext := by
  have hhash := freshKeyRow_hashed h
  obtain ⟨g', w₁, hgenerate, h⟩ := Prog.bind_eq_ok h
  obtain ⟨id, w₂, -, h⟩ := Prog.bind_eq_ok h
  obtain ⟨hash, w₃, -, h⟩ := Prog.bind_eq_ok h
  cases h
  exact ⟨g.secret, parse_generateKey encodes hgenerate, hhash⟩

/-- A key that is handed out is stored, active, of the service account, and opened by the
plaintext. -/
structure ApiKeyMaterial.Handed (mat : ApiKeyMaterial) (saUserId : Uuid) (t : Tables)
    (k : ApiKeyRecord) : Prop where
  stored : k ∈ t.apiKeys
  shown : mat.key = k.toApiKey
  account : k.serviceAccountUserId = saUserId
  home : ∃ sa ∈ t.serviceAccounts, sa.userId = saUserId
  active : k.revokedAt = none
  opened : k.OpenedBy mat.plaintext

/-- A fresh row that is inserted is handed out with its plaintext. -/
lemma handed_of_fresh (encodes : EncodesSecrets) {saUserId createdBy : Uuid} {name : String}
    {scopes : Option (List String)} {g : GeneratedKey} {row : NewApiKeyRow} {now : Timestamp}
    {t : Tables} (h : (freshKeyRow saUserId name scopes createdBy).run w = (.ok (g, row), v))
    (hins : t.Insertable (row.record now)) :
    ApiKeyMaterial.Handed ⟨(row.record now).toApiKey, g.plaintext⟩ saUserId
      (t.addKey (row.record now)) (row.record now) where
  stored := hins.mem_addKey.mpr (Or.inr rfl)
  shown := rfl
  account := (newKey_of_fresh h).account
  home := by
    have hnew : NewKey saUserId createdBy (row.record now) := newKey_of_fresh h
    rw [Tables.addKey_serviceAccounts, ← hnew.account]
    exact hins.account
  active := rfl
  opened := freshKeyRow_opens encodes h

/-- The loop of a creation hands out the key that it stores. -/
lemma createApiKeyLoop_hands (encodes : EncodesSecrets) {input : CreateApiKeyInput} {attempts : ℕ}
    {mat : ApiKeyMaterial} (h : (createApiKeyLoop input attempts).run w = (.ok mat, v)) :
    ∃ k, mat.Handed input.saUserId v.tables k := by
  rw [createApiKeyLoop_eq] at h
  obtain ⟨g, row, w₀, w₁, w₂, key, hfresh, -, hcreate, rfl, htables⟩ :=
    issueKey_eq_ok (fun _ => atomic_createKey) h
  obtain ⟨_, w₃, -, hinsert⟩ := Prog.bind_eq_ok hcreate
  obtain ⟨hins, rfl, rfl, -⟩ := insertKey_eq_ok hinsert
  rw [htables]
  exact ⟨_, handed_of_fresh encodes hfresh hins⟩

/-- The loop of a rotation hands out the key that it stores. -/
lemma rotateApiKeyLoop_hands (encodes : EncodesSecrets) {input : RotateApiKeyInput} {name : String}
    {scopes : Option (List String)} {attempts : ℕ} {mat : ApiKeyMaterial}
    (h : (rotateApiKeyLoop input name scopes attempts).run w = (.ok mat, v)) :
    ∃ k, mat.Handed input.saUserId v.tables k := by
  rw [rotateApiKeyLoop_eq] at h
  obtain ⟨g, row, w₀, w₁, w₂, key, hfresh, -, hrotate, rfl, htables⟩ :=
    issueKey_eq_ok (fun _ => atomic_transaction) h
  obtain ⟨hins, rfl, hstored, -⟩ := rotateKey_eq_ok hrotate
  rw [htables, hstored]
  exact ⟨_, handed_of_fresh encodes hfresh hins⟩

/-- A creation of a key hands out the key that it stores. -/
lemma createApiKey_hands (encodes : EncodesSecrets) {input : CreateApiKeyInput}
    {mat : ApiKeyMaterial} (h : (createApiKey input).run w = (.ok mat, v)) :
    ∃ k, mat.Handed input.saUserId v.tables k := by
  obtain ⟨_, _, -, h⟩ := Prog.bind_eq_ok h
  obtain ⟨_, _, -, h⟩ := Prog.bind_eq_ok h
  obtain ⟨_, _, -, h⟩ := Prog.bind_eq_ok h
  exact createApiKeyLoop_hands encodes h

/-- A rotation hands out the key that it stores. -/
lemma rotateApiKey_hands (encodes : EncodesSecrets) {input : RotateApiKeyInput}
    {mat : ApiKeyMaterial} (h : (rotateApiKey input).run w = (.ok mat, v)) :
    ∃ k, mat.Handed input.saUserId v.tables k := by
  obtain ⟨_, _, -, h⟩ := Prog.bind_eq_ok h
  obtain ⟨_, _, -, h⟩ := Prog.bind_eq_ok h
  obtain ⟨found, _, -, h⟩ := Prog.bind_eq_ok h
  cases found with
  | none => cases h
  | some old =>
    obtain ⟨_, _, -, h⟩ := Prog.bind_eq_ok h
    exact rotateApiKeyLoop_hands encodes h

end Keys

/-- The key that an answer shows is stored and opened by the plaintext in the answer. -/
structure CreateApiKeyResponse.Shows [Argon2] (body : CreateApiKeyResponse) (saUserId : Uuid)
    (t : Tables) (k : ApiKeyRecord) : Prop where
  stored : k ∈ t.apiKeys
  shown : body.key = k.toApiKey.toResponse
  account : k.serviceAccountUserId = saUserId
  home : ∃ sa ∈ t.serviceAccounts, sa.userId = saUserId
  active : k.revokedAt = none
  opened : k.OpenedBy body.plaintext

/-- A request that is answered with a key shows one that is stored. -/
lemma serve_shows [Platform] (encodes : EncodesSecrets) {c : AuthedCaller} {kind : Caller} {n : Names}
    {action : ResourceAction} {body : CreateApiKeyResponse} {w v : World}
    (h : (action.serve (c.extensions kind) n).run w = (.ok (.apiKey body), v)) :
    ∃ k, body.Shows n.serviceAccount v.tables k := by
  have hanswer : ∀ {α : Type} {p : Action AppError α} {reply : α → ResourceReply},
      (answering p reply).run w = (.ok (.apiKey body), v) →
        ∃ a, p.run w = (.ok a, v) ∧ reply a = .apiKey body := by
    intro α p reply h
    obtain ⟨a, _, ha, hret⟩ := Prog.bind_eq_ok h
    obtain ⟨hreply, rfl⟩ := Prod.mk.inj hret
    exact ⟨a, ha, Except.ok.inj hreply⟩
  cases action with
  | createApiKey req =>
    obtain ⟨⟨code, response⟩, hpost, hreply⟩ := hanswer h
    cases hreply
    obtain ⟨_, _, -, hpost⟩ := Prog.bind_eq_ok hpost
    obtain ⟨_, _, -, hpost⟩ := Prog.bind_eq_ok hpost
    obtain ⟨_, _, -, hpost⟩ := Prog.bind_eq_ok hpost
    obtain ⟨mat, _, hcreate, hpost⟩ := Prog.bind_eq_ok hpost
    cases hpost
    obtain ⟨k, hk⟩ := createApiKey_hands encodes (Prog.mapErr_eq_ok hcreate)
    exact ⟨k, hk.stored, congrArg ApiKey.toResponse hk.shown, hk.account, hk.home,
      hk.active, hk.opened⟩
  | rotateApiKey req =>
    obtain ⟨⟨code, response⟩, hpost, hreply⟩ := hanswer h
    cases hreply
    obtain ⟨_, _, -, hpost⟩ := Prog.bind_eq_ok hpost
    obtain ⟨_, _, -, hpost⟩ := Prog.bind_eq_ok hpost
    obtain ⟨_, _, -, hpost⟩ := Prog.bind_eq_ok hpost
    obtain ⟨mat, _, hrotate, hpost⟩ := Prog.bind_eq_ok hpost
    cases hpost
    obtain ⟨k, hk⟩ := rotateApiKey_hands encodes (Prog.mapErr_eq_ok hrotate)
    exact ⟨k, hk.stored, congrArg ApiKey.toResponse hk.shown, hk.account, hk.home,
      hk.active, hk.opened⟩
  | _ =>
    obtain ⟨_, -, hreply⟩ := hanswer h
    cases hreply

/-! ## Keys over runs -/

/-- The organisation lets keys come in a header, by what the service takes the flag to be. -/
def World.Allows (w : World) (organisationId : Uuid) (source : HeaderSource) : Prop :=
  ∃ entries, w.evaluated organisationId "auth.api_key_headers" = some (.array entries) ∧
    .string source.slug ∈ entries

/-- A request that carries the plaintext of an active key is one of its service account where the
organisation allows the header, and of nobody otherwise. -/
lemma presented_iff_allows [Argon2] [JsonWebToken] {config : JwtConfig} {headers : Headers}
    {w : World} {p : Principal} {plaintext : String} {source : HeaderSource} {k : ApiKeyRecord}
    {sa : ServiceAccount} (exact : Argon2Exact) (hdistinct : w.tables.PrefixesDistinct)
    (carried : headers.credential = some (plaintext, source)) (opened : k.OpenedBy plaintext)
    (stored : k ∈ w.tables.apiKeys) (active : k.revokedAt = none)
    (account : sa ∈ w.tables.serviceAccounts) (owner : k.serviceAccountUserId = sa.userId) :
    Principal.Presented config headers w p ↔ w.Allows sa.organisationId source ∧
      p = ⟨.apiKey k.id sa.userId sa.organisationId, sa.userId, sa.organisationId, k.scopes⟩ := by
  obtain ⟨secret, parses, salt, hashed⟩ := opened
  constructor
  · intro h
    cases h with
    | token carried' noKey =>
      cases carried.symm.trans carried'
      cases noKey.symm.trans parses
    | key carried' parses' stored' found' active' verified' account' owner' allows allowed =>
      cases carried.symm.trans carried'
      cases parses.symm.trans parses'
      obtain rfl := hdistinct _ stored _ stored' found'.symm
      obtain rfl := Table.eq_of_key account account' (owner.symm.trans owner')
      exact ⟨⟨_, allows, allowed⟩, rfl⟩
  · rintro ⟨⟨entries, allows, allowed⟩, rfl⟩
    have verified : Argon2.verifyPassword secret k.secretHash = some true := by
      rw [exact.hashed hashed, decide_eq_true rfl]
    exact .key carried parses stored rfl active verified account owner allows allowed

namespace Arrival
variable [Platform] [Sha256] {config : JwtConfig} {x : Arrival} {t : Tables}

/-- A demand is answered with an API key of a service account. -/
def HandsOut (config : JwtConfig) (x : Arrival) (saUserId : Uuid) (body : CreateApiKeyResponse) :
    Prop :=
  ∃ headers n action, x.demand = .guarded headers (.resource n action) ∧
    n.serviceAccount = saUserId ∧
    ((respond config headers (.resource n action)).run x.world).1 = .ok (.resource (.apiKey body))

/-- A demand may end a key of a service account, on behalf of the organisation of the account. -/
inductive EndsKey (config : JwtConfig) (x : Arrival) (saUserId keyId : Uuid) : Prop
  | deletes {n : Names} {p : Principal} (acts : x.Acts config (.resource n .deleteApiKey) p)
      (homed : (x.world.tables.serviceAccount p.organisation saUserId).isSome = true)
      (account : n.serviceAccount = saUserId) (key : n.key = keyId)
  | rotates {n : Names} {req : RotateApiKeyRequest} {p : Principal}
      (acts : x.Acts config (.resource n (.rotateApiKey req)) p)
      (homed : (x.world.tables.serviceAccount p.organisation n.serviceAccount).isSome = true)
      (held : x.world.tables.HoldsKey n.serviceAccount keyId) (key : n.key = keyId)
  | dismisses {n : Names} {p : Principal}
      (acts : x.Acts config (.resource n .deleteServiceAccount) p)
      (homed : (x.world.tables.serviceAccount p.organisation saUserId).isSome = true)
      (account : n.serviceAccount = saUserId)

/-- Whoever revokes a key may end it. -/
lemma Entitles.endsKey_revokes {owner : Option Uuid} {saUserId keyId : Uuid} {now : Timestamp}
    (h : x.Entitles config t (.revokeKey keyId owner now))
    (howner : ∀ u, owner = some u → saUserId = u) : x.EndsKey config saUserId keyId := by
  obtain ⟨w, demand⟩ := x
  cases demand with
  | guarded headers route =>
    obtain ⟨p, c, hpresented, hc, hpasses, hpermits⟩ := h
    have hacts : Acts config ⟨w, .guarded headers route⟩ route p := ⟨⟨headers, rfl, hpresented⟩, hpasses⟩
    cases route with
    | resource n action =>
      cases action with
      | deleteApiKey =>
        cases owner with
        | none => exact False.elim hpermits
        | some u =>
          obtain ⟨rfl, rfl, homes⟩ := hpermits
          obtain rfl := howner _ rfl
          exact .deletes hacts (hc.organisation ▸ homes) rfl rfl
      | rotateApiKey req =>
        cases owner with
        | none =>
          obtain ⟨rfl, homes, held⟩ := hpermits
          exact .rotates hacts (hc.organisation ▸ homes) held rfl
        | some u => exact False.elim hpermits
      | _ => exact False.elim hpermits
    | _ => exact False.elim hpermits
  | unguarded operation free =>
    cases operation with
    | request _ _ _ | call _ => cases free
    | _ => exact False.elim h

/-- Whoever deletes a service account may end its keys. -/
lemma Entitles.endsKey_dismisses {saUserId : Uuid} (h : x.Entitles config t (.deleteUser saUserId))
    (keyId : Uuid) : x.EndsKey config saUserId keyId := by
  obtain ⟨w, demand⟩ := x
  cases demand with
  | guarded headers route =>
    obtain ⟨p, c, hpresented, hc, hpasses, hpermits⟩ := h
    cases route with
    | resource n action =>
      cases action with
      | deleteServiceAccount =>
        obtain ⟨rfl, homes, -⟩ := hpermits
        exact .dismisses ⟨⟨headers, rfl, hpresented⟩, hpasses⟩ (hc.organisation ▸ homes) rfl
      | _ => exact False.elim hpermits
    | _ => exact False.elim hpermits
  | unguarded operation free =>
    cases operation with
    | request _ _ _ | call _ => cases free
    | _ => exact False.elim h

/-- Whatever ends the row of a key may end the key. -/
lemma Ends.endsKey {m : Move Instant Arrival} {k : ApiKeyRecord} (h : Ends config m (.key k)) :
    m.label.EndsKey config k.serviceAccountUserId k.id := by
  obtain ⟨t, e, t', ⟨-, hentitled, -, -⟩, -, -, htakes⟩ := h
  cases e with
  | revokeKey keyId owner now =>
    obtain ⟨rfl, -, howner⟩ := htakes
    exact hentitled.endsKey_revokes howner
  | deleteUser userId =>
    obtain rfl : k.serviceAccountUserId = userId := Option.some.inj htakes
    exact hentitled.endsKey_dismisses k.id
  | _ => exact False.elim htakes

/-- So may whatever ends the row of its service account. -/
lemma Ends.endsKey_of_account {m : Move Instant Arrival} {sa : ServiceAccount}
    (h : Ends config m (.serviceAccount sa)) (keyId : Uuid) :
    m.label.EndsKey config sa.userId keyId := by
  obtain ⟨t, e, t', ⟨-, hentitled, -, -⟩, -, -, htakes⟩ := h
  cases e with
  | deleteUser userId =>
    obtain rfl : sa.userId = userId := Option.some.inj htakes
    exact hentitled.endsKey_dismisses keyId
  | _ => exact False.elim htakes

variable [AuditCursorText] {i s j : Instant} {ms : List (Move Instant Arrival)} {saUserId : Uuid}
  {body : CreateApiKeyResponse}

/-- A key that is handed out is stored. -/
lemma HandsOut.shows (encodes : EncodesSecrets) (h : x.HandsOut config saUserId body) :
    ∃ k, body.Shows saUserId (x.serve config).tables k := by
  obtain ⟨w, demand⟩ := x
  obtain ⟨headers, n, action, rfl, rfl, hreply⟩ := h
  obtain ⟨p, c, u, -, -, -, hhandler⟩ := respond_eq_ok (Prod.ext hreply rfl)
  obtain ⟨a, v, hserved, hret⟩ := Prog.bind_eq_ok hhandler
  obtain ⟨hbody, hv⟩ := Prod.mk.inj hret
  cases Except.ok.inj hbody
  have hserve : Arrival.serve config ⟨w, .guarded headers (.resource n action)⟩ = v := hv.symm
  rw [hserve]
  exact serve_shows encodes hserved

/-- Once a key has been handed out, whoever sends what and whichever statements fail: unless a demand
of the run may end the key, a request with its plaintext is admitted, while the database answers,
exactly where the organisation of the service account allows the header, and is one of the service
account, with the permissions that it holds there at that moment and that the scopes let through. -/
theorem key_lasts (exact : Argon2Exact) (encodes : EncodesSecrets) (step : x.Step config i s)
    (handsOut : x.HandsOut config saUserId body) (hdistinct : i.tables.PrefixesDistinct)
    (run : Run (Step config) s ms j) (lasts : ∀ m ∈ ms, ¬ m.label.EndsKey config saUserId body.key.id)
    {w : World} (htables : w.tables = j.tables) (hw : w.Healthy) :
    ∃ sa ∈ w.tables.serviceAccounts, sa.userId = saUserId ∧
      ∀ headers source, headers.credential = some (body.plaintext, source) →
        ((∃ ext v, (call config headers).run w = (.ok ext, v)) ↔ w.Allows sa.organisationId source) ∧
        ∀ ext v, (call config headers).run w = (.ok ext, v) →
          ∃ c, ext = c.extensions (.apiKey body.key.id saUserId sa.organisationId) ∧
            AuthedCaller.Represents c ⟨.apiKey body.key.id saUserId sa.organisationId, saUserId,
              sa.organisationId, body.key.scopes⟩ w.tables := by
  obtain ⟨k, hstored, hshown, rfl, ⟨sa, hsa, howner⟩, hactive, hopened⟩ := handsOut.shows encodes
  have hid : body.key.id = k.id := congrArg ApiKeyResponse.id hshown
  have hscopes : body.key.scopes = k.scopes := congrArg ApiKeyResponse.scopes hshown
  rw [step.post] at hstored hsa
  -- the rows of the key and of its service account stay
  have hkey : j.tables.Records (.key k) := by
    refine ((frame_run run).2 (.key k) ⟨k, hstored, rfl⟩).resolve_left ?_
    rintro ⟨m, hm, hends⟩
    exact lasts m hm (hid ▸ hends.endsKey)
  have haccount : j.tables.Records (.serviceAccount sa) := by
    refine ((frame_run run).2 (.serviceAccount sa) ⟨sa, hsa, rfl⟩).resolve_left ?_
    rintro ⟨m, hm, hends⟩
    exact lasts m hm (howner ▸ hends.endsKey_of_account body.key.id)
  have hdistinct' : w.tables.PrefixesDistinct :=
    htables ▸ prefixesDistinct_run ((Run.single step).append run) hdistinct
  rw [← htables] at hkey haccount
  obtain ⟨q, hq, hqk⟩ := hkey
  obtain ⟨sa', hsa', hsame⟩ := haccount
  -- only the times of their last use may differ
  obtain ⟨_, rfl⟩ : ∃ used, k = { q with lastUsedAt := used } := ⟨_, hqk.symm⟩
  obtain ⟨_, rfl⟩ : ∃ used, sa = { sa' with lastUsedAt := used } := ⟨_, hsame.symm⟩
  refine ⟨sa', hsa', howner, fun headers source carried => ?_⟩
  have hpresented : ∀ p, Principal.Presented config headers w p ↔
      w.Allows sa'.organisationId source ∧ p = ⟨.apiKey q.id sa'.userId sa'.organisationId,
        sa'.userId, sa'.organisationId, q.scopes⟩ := fun p =>
    presented_iff_allows exact hdistinct' carried hopened hq hactive hsa' howner.symm
  constructor
  · constructor
    · rintro ⟨ext, v, hcall⟩
      obtain ⟨p, c, hp, -, -⟩ := call_presents hcall
      exact ((hpresented p).mp hp).1
    · intro hallows
      exact call_of_presented hw hdistinct' ((hpresented _).mpr ⟨hallows, rfl⟩)
  · intro ext v hcall
    obtain ⟨p, c, hp, hc, hext⟩ := call_presents hcall
    obtain ⟨-, rfl⟩ := (hpresented p).mp hp
    rw [hid, hscopes]
    rw [howner] at hc hext
    exact ⟨c, hext, hc⟩

end Arrival
/-! ## A run -/

section Runs

/-- A platform with the owner's session and the encoding of the service. -/
@[reducible] def keyPlatform : Platform where
  __ := signingPlatform ownerSession
  urlSafeEncode := base64Encode
  urlSafeDecode := base64Decode

/-- The owner of `acme` asks for another key of the service account. -/
def ownerIssues : Arrival where
  world := { World.calm twoKeys 0 with random := [[0xaa, 0xbb, 0xcc, 0xdd], List.replicate 32 255] }
  demand := .guarded ownerHeaders (.resource ⟨0xa, 0, 0x41, 0⟩ (.createApiKey ⟨"ci", none⟩))

/-- The plaintext of that key. -/
def issuedKey : String := "egras_live_aabbccdd___________________________________________8"

/-- The tables after that, and after the owner has ended the session. -/
def keyIssued : Tables :=
  (@Arrival.serve keyPlatform ⟨id⟩ ⟨fun _ => "", fun _ => none⟩ runConfig ownerIssues).tables

/-- The issuer of the key logs out. -/
def issuerLeaves : Arrival := ⟨.calm keyIssued 5, .guarded ownerHeaders .logout⟩

/-- The tables after that. -/
def issuerLeft : Tables :=
  (@Arrival.serve keyPlatform ⟨id⟩ ⟨fun _ => "", fun _ => none⟩ runConfig issuerLeaves).tables

/-- The plaintext in its own header. -/
def issuedHeaders : Headers := [("x-api-key", issuedKey.toUTF8.toList)]

/-- The key works after the session in which it was made. -/
theorem key_lasts_issuedKey :
    ∃ ext v, (@call keyPlatform.toArgon2 keyPlatform.toJsonWebToken runConfig issuedHeaders).run
      (.calm issuerLeft 9) = (Except.ok ext, v) := by
  let _ : Platform := keyPlatform
  let _ : Sha256 := ⟨id⟩
  let _ : AuditCursorText := ⟨fun _ => "", fun _ => none⟩
  have exact : Argon2Exact := argon2Exact_plain
  have encodes : EncodesSecrets := by
    intro bytes hlength hempty
    have hdecode : base64Decode (base64Encode bytes) = base64Decode "" := congrArg base64Decode hempty
    rw [base64Decode_encode] at hdecode
    cases hdecode
    cases hlength
  have hissues : Arrival.Step runConfig ⟨twoKeys, 0⟩ ownerIssues ⟨keyIssued, 0⟩ :=
    ⟨rfl, le_rfl, rfl, rfl⟩
  have hleaves : Arrival.Step runConfig ⟨keyIssued, 0⟩ issuerLeaves ⟨issuerLeft, 5⟩ :=
    ⟨rfl, by decide, rfl, rfl⟩
  have handsOut : ownerIssues.HandsOut runConfig 0x41
      ⟨⟨0x21, "aabbccdd", "ci", none, 0, none, none⟩, issuedKey⟩ := by
    refine ⟨ownerHeaders, ⟨0xa, 0, 0x41, 0⟩, .createApiKey ⟨"ci", none⟩, rfl, rfl, ?_⟩
    decide +kernel
  have hdistinct : twoKeys.PrefixesDistinct := by
    have hall : ∀ k ∈ twoKeys.apiKeys.rows, ∀ q ∈ twoKeys.apiKeys.rows,
        k.keyPrefix = q.keyPrefix → k = q := by decide +kernel
    exact hall
  have hlasts : ∀ m ∈ [Move.mk (Instant.mk keyIssued 0) issuerLeaves ⟨issuerLeft, 5⟩],
      ¬ m.label.EndsKey runConfig 0x41 0x21 := by
    intro m hm hends
    obtain rfl := List.mem_singleton.mp hm
    cases hends with
    | deletes acts | rotates acts | dismisses acts =>
      obtain ⟨_, hdemand, -⟩ := acts.presented
      cases hdemand
  have hhealthy : (World.calm issuerLeft 9).Healthy := fun n => by simp [World.answersAll, World.calm]
  obtain ⟨sa, hsa, howner, hadmits⟩ := Arrival.key_lasts exact encodes hissues handsOut hdistinct
    (.single hleaves) hlasts (w := .calm issuerLeft 9) rfl hhealthy
  have hcarried : issuedHeaders.credential = some (issuedKey, .xApiKey) := by decide +kernel
  have hhome : ∀ sa ∈ issuerLeft.serviceAccounts.rows, sa.organisationId = 0xa := by decide +kernel
  refine (hadmits _ _ hcarried).1.mpr ?_
  rw [hhome sa hsa]
  exact ⟨[.string "x-api-key", .string "authorization-bearer"], by decide +kernel,
    List.mem_cons_self⟩

end Runs
end Egras
