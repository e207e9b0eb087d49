import Egras.Auth.Middleware
import Mathlib.Logic.Basic

/-!
# Soundness of authentication

A request reaches the inner service in one of two ways only: by an access token that decodes and is
not revoked (`AdmitsToken`), or by an API key that is active, whose secret verifies and that came in
a header its organisation allows (`AdmitsKey`). Each states what the extensions then carry. The main
result `call_sound` is over every configuration, every headers and every state of the world, failing
statements included.

The proof follows the branches of `call` backwards: one inversion lemma for the evaluator, one for
the verifier, one for each of the two paths.
-/

namespace Egras
open Lib

/-- A request is admitted by an access token. -/
structure AdmitsToken [JsonWebToken] (config : JwtConfig) (token : String) (w : World)
    (ext : Extensions) (claims : Claims) : Prop where
  decoded : decodeAccessToken config.secret config.issuer token w.now = some claims
  notRevoked : w.tables.revoked claims.jti w.now = false
  claims_eq : ext.claims = some claims
  permissions_eq : ∃ perms, ext.permissions = some perms ∧
    ∀ code, code ∈ perms.codes ↔ w.tables.Holds claims.sub claims.org code
  caller_eq : ext.caller = some (.user claims.sub claims.org claims.jti)

/-- A request is admitted by an API key: `k` is the stored key and `sa` its service account. -/
structure AdmitsKey [Argon2] (issuer keyPrefix secret : String) (source : HeaderSource) (w : World)
    (ext : Extensions) (k : ApiKeyRecord) (sa : ServiceAccount) : Prop where
  stored : k ∈ w.tables.apiKeys
  prefix_eq : k.keyPrefix = keyPrefix
  active : k.revokedAt = none
  verified : Argon2.verifyPassword secret k.secretHash = some true
  account : sa ∈ w.tables.serviceAccounts
  owner : k.serviceAccountUserId = sa.userId
  allowed : ∃ entries,
    w.evaluated sa.organisationId "auth.api_key_headers" = some (.array entries) ∧
    .string source.slug ∈ entries
  claims_eq : ∃ claims, ext.claims = some claims ∧
    claims.sub = sa.userId ∧ claims.org = sa.organisationId ∧ claims.iss = issuer
  permissions_eq : ∃ perms, ext.permissions = some perms ∧
    ∀ code, code ∈ perms.codes ↔
      w.tables.Holds sa.userId sa.organisationId code ∧
      ∀ scopes, k.scopes = some scopes → code ∈ scopes
  caller_eq : ext.caller = some (.apiKey k.id sa.userId sa.organisationId)

section Branches
variable {w t : World}

/-- The row that a lookup by prefix returns: an active key and its service account. -/
lemma activeByPrefix_eq_some {tables : Tables} {keyPrefix : String} {row : ApiKeyRow}
    (h : tables.activeByPrefix keyPrefix = some row) :
    ∃ k ∈ tables.apiKeys, ∃ sa ∈ tables.serviceAccounts,
      k.keyPrefix = keyPrefix ∧ k.revokedAt = none ∧ sa.userId = k.serviceAccountUserId ∧
      row = ⟨k.toApiKey, k.secretHash, sa.organisationId⟩ := by
  obtain ⟨k, hk, hrow⟩ := List.exists_of_findSome?_eq_some h
  obtain ⟨sa, hsa, rfl⟩ := Option.map_eq_some_iff.mp hrow
  obtain ⟨hk, hp⟩ := Table.mem_select.mp hk
  obtain ⟨hsa, hid⟩ := Table.find?_eq_some.mp hsa
  simp only [Bool.and_eq_true, decide_eq_true_eq] at hp
  exact ⟨k, hk, sa, hsa, hp.1, hp.2, hid, rfl⟩

/-- A header in the allowlist is a string entry of the flag's value. -/
lemma mem_allowedHeaders {value : Value} {allowed : List String} {slug : String}
    (h : allowedHeaders value = .ok allowed) (hs : slug ∈ allowed) :
    ∃ entries, value = .array entries ∧ .string slug ∈ entries := by
  cases value with
  | array entries =>
    cases h
    obtain ⟨v, hv, he⟩ := List.mem_filterMap.mp hs
    cases v with
    | string s =>
      cases he
      exact ⟨entries, rfl, hv⟩
    | _ => cases he
  | _ => cases h

/-- The permissions of a key are those of its service account that its scopes let through. -/
lemma mem_restrict {verified : VerifiedKey} {perms : PermissionSet} {code : String} :
    code ∈ (verified.restrict perms).codes ↔
      code ∈ perms.codes ∧ ∀ scopes, verified.scopes = some scopes → code ∈ scopes := by
  unfold VerifiedKey.restrict
  cases verified.scopes with
  | none => simp
  | some scopes => simp

variable [Argon2]

/-- What a verified key tells. -/
lemma verifyKey_eq_ok {keyPrefix secret : String} {verified : VerifiedKey}
    (h : (verifyKey keyPrefix secret).run w = (.ok (some verified), t)) :
    ∃ k ∈ w.tables.apiKeys, ∃ sa ∈ w.tables.serviceAccounts,
      k.keyPrefix = keyPrefix ∧ k.revokedAt = none ∧ sa.userId = k.serviceAccountUserId ∧
      Argon2.verifyPassword secret k.secretHash = some true ∧
      verified = ⟨k.id, sa.userId, sa.organisationId, k.scopes⟩ ∧ t = w.tick := by
  obtain ⟨found, u, h₁, h₂⟩ := Prog.bind_eq_ok h
  obtain ⟨rfl, rfl, -⟩ := query_eq_ok (Prog.mapErr_eq_ok h₁)
  cases hrow : w.tables.activeByPrefix keyPrefix with
  | none =>
    rw [hrow] at h₂
    cases h₂
  | some row =>
    rw [hrow] at h₂
    obtain ⟨k, hk, sa, hsa, hp, hr, hid, rfl⟩ := activeByPrefix_eq_some hrow
    obtain ⟨ok, u, h₃, h₄⟩ := Prog.bind_eq_ok h₂
    have h₅ := Prog.mapErr_eq_ok h₃
    rw [Prog.run_ofExcept] at h₅
    obtain ⟨hv, rfl⟩ := Prod.mk.inj h₅
    cases ok with
    | false => cases h₄
    | true =>
      cases h₄
      exact ⟨k, hk, sa, hsa, hp, hr, hid, verifyPassword_eq_ok.mp hv, by rw [hid], rfl⟩

/-- What an accepted API key tells. -/
lemma handleApiKey_eq_ok {issuer keyPrefix secret : String} {source : HeaderSource}
    {ext : Extensions} (h : (handleApiKey issuer keyPrefix secret source).run w = (.ok ext, t)) :
    ∃ k sa, AdmitsKey issuer keyPrefix secret source w ext k sa ∧ t.tables = w.tables := by
  obtain ⟨found, u, h₁, h₂⟩ := Prog.bind_eq_ok h
  cases found with
  | none => cases h₂
  | some verified =>
    obtain ⟨k, hk, sa, hsa, hp, hr, hid, hv, rfl, rfl⟩ := verifyKey_eq_ok h₁
    obtain ⟨value, u, h₃, h₄⟩ := Prog.bind_eq_ok h₂
    obtain ⟨hvalue, htables, hnow⟩ := evaluate_eq_ok (Prog.mapErr_eq_ok h₃)
    obtain ⟨allowed, u', h₅, h₆⟩ := Prog.bind_eq_ok h₄
    rw [Prog.run_ofExcept] at h₅
    obtain ⟨hallowed, rfl⟩ := Prod.mk.inj h₅
    obtain ⟨_, u', h₇, h₈⟩ := Prog.bind_eq_ok h₆
    obtain ⟨hmem, rfl⟩ := require_eq_ok h₇
    obtain ⟨codes, u', h₉, h₁₀⟩ := Prog.bind_eq_ok h₈
    obtain ⟨rfl, rfl, -⟩ := query_eq_ok (Prog.mapErr_eq_ok h₉)
    obtain ⟨_, u', h₁₁, h₁₂⟩ := Prog.bind_eq_ok h₁₀
    cases h₁₁
    obtain ⟨_, u', h₁₃, h₁₄⟩ := Prog.bind_eq_ok h₁₂
    cases h₁₃
    cases h₁₄
    rw [World.tick_tables] at htables
    obtain ⟨entries, rfl, hentry⟩ := mem_allowedHeaders hallowed (decide_eq_true_eq.mp hmem)
    refine ⟨k, sa, ⟨hk, hp, hr, hv, hsa, hid.symm, ⟨entries, hvalue, hentry⟩, ?_, ?_, rfl⟩, htables⟩
    · exact ⟨_, rfl, rfl, rfl, rfl⟩
    · refine ⟨_, rfl, fun code => ?_⟩
      rw [mem_restrict, htables]
      exact and_congr_left' Tables.mem_granted

end Branches

section Rejections

/-- A rejection answers 401 or 500. -/
def Rejection.IsAuthFailure (r : Rejection) : Prop := r.status = 401 ∨ r.status = 500

/-- An internal error is a failure of authentication. -/
lemma isAuthFailure_internal : Rejection.internalError.IsAuthFailure := Or.inr rfl

/-- A refusal is a failure of authentication. -/
lemma isAuthFailure_unauthenticated {reason : String} :
    (Rejection.unauthenticated reason).IsAuthFailure := Or.inl rfl

/-- Reading the allowed headers fails in failures of authentication only. -/
lemma allowedHeaders_failsIn {value : Value} :
    Prog.FailsIn Rejection.IsAuthFailure (.ofExcept (allowedHeaders value) : Action _ _) := by
  refine Prog.FailsIn.ofExcept (fun e he => ?_)
  unfold allowedHeaders at he
  split at he
  · cases he
  · cases he
    exact isAuthFailure_internal

/-- A requirement fails in its refusal. -/
lemma require_failsIn {c : Bool} {reason : String} :
    Prog.FailsIn Rejection.IsAuthFailure (require c (.unauthenticated reason)) := by
  cases c with
  | true => exact Prog.FailsIn.ret
  | false => exact Prog.FailsIn.fail isAuthFailure_unauthenticated

variable [Argon2]

/-- Verifying a key fails in failures of authentication only. -/
lemma verifyKey_failsIn {keyPrefix secret : String} :
    Prog.FailsIn Rejection.IsAuthFailure (verifyKey keyPrefix secret) := by
  unfold verifyKey
  refine Prog.FailsIn.bind (Prog.FailsIn.mapErr fun _ => isAuthFailure_internal) (fun found => ?_)
  split
  · exact Prog.FailsIn.ret
  · refine Prog.FailsIn.bind (Prog.FailsIn.mapErr fun _ => isAuthFailure_internal) (fun ok => ?_)
    split <;> exact Prog.FailsIn.ret

/-- The path of API keys fails in failures of authentication only. -/
lemma handleApiKey_failsIn {issuer keyPrefix secret : String} {source : HeaderSource} :
    Prog.FailsIn Rejection.IsAuthFailure (handleApiKey issuer keyPrefix secret source) := by
  unfold handleApiKey
  refine Prog.FailsIn.bind verifyKey_failsIn (fun found => ?_)
  split
  · exact Prog.FailsIn.fail isAuthFailure_unauthenticated
  · refine Prog.FailsIn.bind (Prog.FailsIn.mapErr fun _ => isAuthFailure_internal) (fun v => ?_)
    refine Prog.FailsIn.bind allowedHeaders_failsIn (fun allowed => ?_)
    refine Prog.FailsIn.bind require_failsIn (fun _ => ?_)
    refine Prog.FailsIn.bind (Prog.FailsIn.mapErr fun _ => isAuthFailure_internal) (fun codes => ?_)
    refine Prog.FailsIn.bind Prog.FailsIn.lift (fun _ => ?_)
    exact Prog.FailsIn.bind Prog.FailsIn.lift (fun _ => Prog.FailsIn.ret)

/-- Verifying a key leaves blind views alone. -/
lemma reads_verifyKey {τ : Type} {V : World → τ} [Blind V] {keyPrefix secret : String} :
    Prog.Reads V (verifyKey keyPrefix secret) := by
  unfold verifyKey findActiveByPrefix
  refine Prog.Reads.bind (reads_query Blind.tick).mapErr (fun found => ?_)
  split
  · exact Prog.Reads.ret
  · refine Prog.Reads.bind Prog.Reads.ofExcept.mapErr (fun ok => ?_)
    split <;> exact Prog.Reads.ret

/-- The path of API keys leaves blind views alone. -/
lemma reads_handleApiKey {τ : Type} {V : World → τ} [Blind V] {issuer keyPrefix secret : String}
    {source : HeaderSource} :
    Prog.Reads V (handleApiKey issuer keyPrefix secret source) := by
  unfold handleApiKey loadPermissions
  refine Prog.Reads.bind reads_verifyKey (fun found => ?_)
  split
  · exact Prog.Reads.fail
  · refine Prog.Reads.bind reads_evaluate.mapErr (fun value => ?_)
    refine Prog.Reads.bind Prog.Reads.ofExcept (fun allowed => ?_)
    refine Prog.Reads.bind reads_require (fun _ => ?_)
    refine Prog.Reads.bind (reads_query Blind.tick).mapErr (fun codes => ?_)
    refine Prog.Reads.bind (reads_spawn Blind.spawned) (fun _ => ?_)
    exact Prog.Reads.bind reads_utcNow (fun _ => Prog.Reads.ret)

end Rejections

section AccessToken
variable [JsonWebToken] {w t : World}

/-- What an accepted access token tells. -/
lemma handleJwt_eq_ok {config : JwtConfig} {token : String} {ext : Extensions}
    (h : (handleJwt config token).run w = (.ok ext, t)) :
    ∃ claims, AdmitsToken config token w ext claims ∧ t.tables = w.tables := by
  obtain ⟨now, u, h₁, h₂⟩ := Prog.bind_eq_ok h
  cases h₁
  cases hdec : decodeAccessToken config.secret config.issuer token w.now with
  | none =>
    rw [hdec] at h₂
    cases h₂
  | some claims =>
    rw [hdec] at h₂
    obtain ⟨revoked, u, h₃, h₄⟩ := Prog.bind_eq_ok h₂
    obtain ⟨rfl, rfl, -⟩ := query_eq_ok (Prog.mapErr_eq_ok h₃)
    obtain ⟨_, u, h₅, h₆⟩ := Prog.bind_eq_ok h₄
    obtain ⟨hrev, rfl⟩ := require_eq_ok h₅
    obtain ⟨codes, u, h₇, h₈⟩ := Prog.bind_eq_ok h₆
    obtain ⟨rfl, rfl, -⟩ := query_eq_ok (Prog.mapErr_eq_ok h₇)
    cases h₈
    refine ⟨claims, ⟨hdec, by simpa using hrev, rfl, ?_, rfl⟩, rfl⟩
    exact ⟨_, rfl, fun code => Tables.mem_granted⟩

/-- The path of tokens fails in failures of authentication only. -/
lemma handleJwt_failsIn {config : JwtConfig} {token : String} :
    Prog.FailsIn Rejection.IsAuthFailure (handleJwt config token) := by
  unfold handleJwt
  refine Prog.FailsIn.bind Prog.FailsIn.lift (fun now => ?_)
  split
  · exact Prog.FailsIn.fail isAuthFailure_unauthenticated
  · refine Prog.FailsIn.bind (Prog.FailsIn.mapErr fun _ => isAuthFailure_internal) (fun rev => ?_)
    refine Prog.FailsIn.bind require_failsIn (fun _ => ?_)
    exact Prog.FailsIn.bind (Prog.FailsIn.mapErr fun _ => isAuthFailure_internal)
      (fun _ => Prog.FailsIn.ret)

/-- The path of tokens leaves blind views alone. -/
lemma reads_handleJwt {τ : Type} {V : World → τ} [Blind V] {config : JwtConfig} {token : String} :
    Prog.Reads V (handleJwt config token) := by
  unfold handleJwt isRevoked loadPermissions
  refine Prog.Reads.bind reads_utcNow (fun now => ?_)
  split
  · exact Prog.Reads.fail
  · refine Prog.Reads.bind (reads_query Blind.tick).mapErr (fun rev => ?_)
    refine Prog.Reads.bind reads_require (fun _ => ?_)
    exact Prog.Reads.bind (reads_query Blind.tick).mapErr (fun _ => Prog.Reads.ret)

end AccessToken

section Main
variable [Argon2] [JsonWebToken] {config : JwtConfig} {headers : Headers} {w : World}

/-- A credential is handled by the API-key path or by the access-token path, or refused at once. -/
lemma call_cases (config : JwtConfig) (headers : Headers) :
    (∃ r : Rejection, r.IsAuthFailure ∧ call config headers = .fail r) ∨
    (∃ plaintext source parsed, headers.credential = some (plaintext, source) ∧
      ParsedKey.parse plaintext = some parsed ∧
      call config headers = handleApiKey config.issuer parsed.keyPrefix parsed.secret source) ∨
    (∃ token, headers.credential = some (token, .authorizationBearer) ∧
      ParsedKey.parse token = none ∧ call config headers = handleJwt config token) := by
  unfold call
  cases hc : headers.credential with
  | none => exact Or.inl ⟨_, isAuthFailure_unauthenticated, rfl⟩
  | some credential =>
    obtain ⟨token, source⟩ := credential
    cases hp : ParsedKey.parse token with
    | some parsed => cases source <;> exact Or.inr (Or.inl ⟨token, _, parsed, rfl, hp, by simp [hp]⟩)
    | none =>
      cases source with
      | xApiKey => exact Or.inl ⟨_, isAuthFailure_unauthenticated, by simp [hp]; rfl⟩
      | authorizationBearer => exact Or.inr (Or.inr ⟨token, rfl, hp, by simp [hp]⟩)

/-- A request that reaches the inner service was admitted by an access token or by an API key, never
by both; any other request is answered 401 or 500. The tables are the same either way. -/
theorem call_sound :
    match (call config headers).run w with
    | (.ok ext, t) =>
      t.tables = w.tables ∧
      Xor
        (∃ token claims, headers.credential = some (token, .authorizationBearer) ∧
          AdmitsToken config token w ext claims)
        (∃ plaintext source parsed k sa, headers.credential = some (plaintext, source) ∧
          ParsedKey.parse plaintext = some parsed ∧
          AdmitsKey config.issuer parsed.keyPrefix parsed.secret source w ext k sa)
    | (.error r, t) => t.tables = w.tables ∧ r.IsAuthFailure := by
  obtain ⟨r, hr, e⟩ | ⟨plaintext, source, parsed, hc, hp, e⟩ | ⟨token, hc, hp, e⟩ :=
    call_cases config headers
  · rw [e]
    exact ⟨rfl, hr⟩
  · rw [e]
    cases hrun : (handleApiKey config.issuer parsed.keyPrefix parsed.secret source).run w with
    | mk r t =>
      cases r with
      | ok ext =>
        obtain ⟨k, sa, hadmits, htables⟩ := handleApiKey_eq_ok hrun
        -- a caller is tagged with the kind of its credential, so that it is not both
        refine ⟨htables, Or.inr ⟨⟨plaintext, source, parsed, k, sa, hc, hp, hadmits⟩, ?_⟩⟩
        rintro ⟨_, _, _, htoken⟩
        have he := htoken.caller_eq.symm.trans hadmits.caller_eq
        cases he
      | error r =>
        refine ⟨?_, handleApiKey_failsIn _ _ _ hrun⟩
        have hreads : Prog.Reads World.tables
            (handleApiKey config.issuer parsed.keyPrefix parsed.secret source) :=
          reads_handleApiKey
        have h := hreads w
        rw [hrun] at h
        exact h
  · rw [e]
    cases hrun : (handleJwt config token).run w with
    | mk r t =>
      cases r with
      | ok ext =>
        obtain ⟨claims, hadmits, htables⟩ := handleJwt_eq_ok hrun
        refine ⟨htables, Or.inl ⟨⟨token, claims, hc, hadmits⟩, ?_⟩⟩
        rintro ⟨_, _, _, k, sa, _, _, hkey⟩
        have he := hadmits.caller_eq.symm.trans hkey.caller_eq
        cases he
      | error r =>
        refine ⟨?_, handleJwt_failsIn _ _ _ hrun⟩
        have hreads : Prog.Reads World.tables (handleJwt config token) := reads_handleJwt
        have h := hreads w
        rw [hrun] at h
        exact h

end Main

end Egras
