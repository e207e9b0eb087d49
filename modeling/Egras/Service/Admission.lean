import Egras.Features.Agreement
import Egras.Service.Authority
import Egras.Service.Logout

/-!
# Who is admitted

`call_presents` says that a request that is admitted carries a valid credential. Here is the converse:
while the database answers, a request with a valid credential is admitted. The one thing that it takes
is that no two keys have the same prefix, since a lookup of a key reads one row only; this holds over
every run (`Arrival.prefixesDistinct_run`).
-/

namespace Egras
open Lib Relation

/-! ## Prefixes -/

/-- No two API keys have the same prefix. -/
def Tables.PrefixesDistinct (t : Tables) : Prop :=
  ∀ k ∈ t.apiKeys, ∀ q ∈ t.apiKeys, k.keyPrefix = q.keyPrefix → k = q

/-- A key that is stored after an effect has just been added, or it was there under its identifier and
with its prefix. -/
lemma Effect.key_origin [CaseMapping] {t t' : Tables} {e : Effect} {k : ApiKeyRecord}
    (h : Effect.apply t e = .ok t') (hk : k ∈ t'.apiKeys) (hnew : ∀ new, e ≠ .addKey new) :
    ∃ q ∈ t.apiKeys, q.id = k.id ∧ q.keyPrefix = k.keyPrefix := by
  have hfact : t'.Records (.keySecret k.id k.serviceAccountUserId k.keyPrefix k.secretHash) :=
    ⟨k, hk, rfl, rfl, rfl, rfl⟩
  rcases Effect.makes h hfact with hmakes | ⟨q, hq, hid, -, hsamePrefix, -⟩
  · cases e with
    | addKey new => exact absurd rfl (hnew new)
    | _ => exact False.elim hmakes
  · exact ⟨q, hq, hid, hsamePrefix⟩

/-- Prefixes stay distinct. -/
lemma Effect.prefixesDistinct [CaseMapping] {t t' : Tables} {e : Effect}
    (h : Effect.apply t e = .ok t') (ht : t.PrefixesDistinct) : t'.PrefixesDistinct := by
  intro k hk q hq hsame
  by_cases hnew : ∃ new, e = .addKey new
  · obtain ⟨new, rfl⟩ := hnew
    obtain ⟨hins, rfl⟩ := Tables.insertApiKey_eq_ok h
    rcases hins.mem_addKey.mp hk with hk' | rfl
    · rcases hins.mem_addKey.mp hq with hq' | rfl
      · exact ht k hk' q hq' hsame
      · exact absurd hsame (hins.keyPrefix k hk')
    · rcases hins.mem_addKey.mp hq with hq' | rfl
      · exact absurd hsame.symm (hins.keyPrefix q hq')
      · rfl
  · have hold : ∀ new, e ≠ .addKey new := fun new he => hnew ⟨new, he⟩
    obtain ⟨k', hk', hid, hsamePrefix⟩ := Effect.key_origin h hk hold
    obtain ⟨q', hq', hid', hsamePrefix'⟩ := Effect.key_origin h hq hold
    obtain rfl := ht k' hk' q' hq' (hsamePrefix.trans (hsame.trans hsamePrefix'.symm))
    exact Tables.key_eq_of_id hk hq (hid.symm.trans hid')

/-- Every run keeps the prefixes distinct. -/
lemma Arrival.prefixesDistinct_run [Platform] [Sha256] [AuditCursorText] {config : JwtConfig}
    {i j : Instant} {ms : List (Move Instant Arrival)} (run : Run (Arrival.Step config) i ms j)
    (h : i.tables.PrefixesDistinct) : j.tables.PrefixesDistinct :=
  Arrival.preserved (fun _ _ _ happly => Effect.prefixesDistinct happly) run h

/-! ## A valid credential is admitted -/

section Admit
variable [Platform] {config : JwtConfig} {headers : Headers} {w : World}

omit [Platform] in
/-- The lookup by prefix finds the active key. -/
lemma activeByPrefix_of {t : Tables} {k : ApiKeyRecord} {sa : ServiceAccount}
    (hdistinct : t.PrefixesDistinct) (hk : k ∈ t.apiKeys) (hactive : k.revokedAt = none)
    (hsa : sa ∈ t.serviceAccounts) (howner : k.serviceAccountUserId = sa.userId) :
    t.activeByPrefix k.keyPrefix = some ⟨k.toApiKey, k.secretHash, sa.organisationId⟩ := by
  have hmem : k ∈ t.apiKeys.select (fun q => q.keyPrefix = k.keyPrefix && q.revokedAt = none) :=
    Table.mem_select.mpr ⟨hk, by simp [hactive]⟩
  have hfind : t.serviceAccounts.find? k.serviceAccountUserId = some sa :=
    Table.find?_eq_some.mpr ⟨hsa, howner.symm⟩
  have hsome : (t.activeByPrefix k.keyPrefix).isSome = true := by
    unfold Tables.activeByPrefix
    rw [List.findSome?_isSome_iff]
    exact ⟨k, hmem, by rw [hfind]; rfl⟩
  obtain ⟨row, hrow⟩ := Option.isSome_iff_exists.mp hsome
  obtain ⟨q, hq, sa', hsa', hsamePrefix, -, howner', rfl⟩ := activeByPrefix_eq_some hrow
  obtain rfl := hdistinct q hq k hk hsamePrefix
  obtain rfl : sa' = sa := Table.eq_of_key hsa' hsa (howner'.trans howner)
  exact hrow

/-- A key that is stored, active and allowed is accepted. -/
lemma handleApiKey_of_valid {parsed : ParsedKey} {source : HeaderSource} {k : ApiKeyRecord}
    {sa : ServiceAccount} {entries : List Value} (hw : w.Healthy)
    (hdistinct : w.tables.PrefixesDistinct) (hk : k ∈ w.tables.apiKeys)
    (hsamePrefix : k.keyPrefix = parsed.keyPrefix) (hactive : k.revokedAt = none)
    (hverified : Argon2.verifyPassword parsed.secret k.secretHash = some true)
    (hsa : sa ∈ w.tables.serviceAccounts) (howner : k.serviceAccountUserId = sa.userId)
    (hallows : w.evaluated sa.organisationId "auth.api_key_headers" = some (.array entries))
    (hallowed : .string source.slug ∈ entries) :
    ∃ ext v, (handleApiKey config.issuer parsed.keyPrefix parsed.secret source).run w =
      (.ok ext, v) := by
  have hfound : (findActiveByPrefix parsed.keyPrefix).run w =
      (.ok (some ⟨k.toApiKey, k.secretHash, sa.organisationId⟩), w.tick) :=
    run_query_of hw.answers (hsamePrefix ▸ activeByPrefix_of hdistinct hk hactive hsa howner)
  have hverify : (Prog.ofExcept (verifyPassword parsed.secret k.secretHash) : Action Anyhow _).run
      w.tick = (.ok true, w.tick) := by
    rw [Prog.run_ofExcept, verifyPassword_eq_ok.mpr hverified]
  have hkey : (verifyKey parsed.keyPrefix parsed.secret).run w =
      (.ok (some ⟨k.id, k.serviceAccountUserId, sa.organisationId, k.scopes⟩), w.tick) :=
    Prog.run_bind_ok (Prog.run_mapErr_ok hfound) (Prog.run_bind_ok (Prog.run_mapErr_ok hverify) rfl)
  obtain ⟨u, hvalue, hu⟩ := evaluate_returns hw.tick hallows
  have hmem : source.slug ∈ entries.filterMap Value.asStr? :=
    List.mem_filterMap.mpr ⟨_, hallowed, rfl⟩
  refine Prog.bind_returns hkey (Prog.bind_returns (Prog.run_mapErr_ok hvalue) ?_)
  refine Prog.bind_returns (Prog.run_ofExcept (r := .ok _)) ?_
  have hrequire : (require (source.slug ∈ entries.filterMap Value.asStr?)
      (Rejection.unauthenticated ("api_key_header_not_allowed:" ++ source.slug))).run u =
        (.ok (), u) := by
    rw [run_require, if_pos (decide_eq_true hmem)]
  refine Prog.bind_returns hrequire ?_
  refine Prog.bind_returns (Prog.run_mapErr_ok (run_query_ok hu.answers)) ?_
  exact Prog.bind_returns rfl (Prog.bind_returns rfl ⟨_, _, rfl⟩)

/-- A request with a valid credential is admitted. -/
lemma call_of_presented {p : Principal} (hw : w.Healthy) (hdistinct : w.tables.PrefixesDistinct)
    (h : Principal.Presented config headers w p) :
    ∃ ext v, (call config headers).run w = (.ok ext, v) := by
  cases h with
  | @token token claims carried noKey decoded notRevoked =>
    have hcall : call config headers = handleJwt config token := by
      simp [call, carried, noKey]
    rw [hcall]
    exact handleJwt_of_live (hw 2) decoded notRevoked
  | @key plaintext source parsed k sa entries carried parses stored found active verified account
      owner allows allowed =>
    have hcall : call config headers =
        handleApiKey config.issuer parsed.keyPrefix parsed.secret source := by
      cases source <;> simp [call, carried, parses]
    rw [hcall]
    exact handleApiKey_of_valid hw hdistinct stored found active verified account owner allows allowed

omit [Platform] in
/-- A statement leaves the database answering. -/
lemma healthy_execute {α : Type} {f : World → Except SqlError (α × Tables)} :
    Prog.Keeps World.Healthy (execute f) := by
  intro v hv
  rw [run_execute]
  unfold World.exec
  split
  · split <;> exact hv.tick
  · exact hv.tick

/-- A credential is of one principal only. -/
lemma Principal.Presented.unique {p q : Principal} (hdistinct : w.tables.PrefixesDistinct)
    (hp : Principal.Presented config headers w p) (hq : Principal.Presented config headers w q) :
    p = q := by
  cases hp with
  | token carried noKey decoded =>
    cases hq with
    | token carried' noKey' decoded' =>
      obtain ⟨rfl, -⟩ := Prod.mk.inj (Option.some.inj (carried.symm.trans carried'))
      obtain rfl := Option.some.inj (decoded.symm.trans decoded')
      rfl
    | key carried' parses' =>
      obtain ⟨rfl, -⟩ := Prod.mk.inj (Option.some.inj (carried.symm.trans carried'))
      cases noKey.symm.trans parses'
  | key carried parses stored found active verified account owner =>
    cases hq with
    | token carried' noKey' =>
      obtain ⟨rfl, -⟩ := Prod.mk.inj (Option.some.inj (carried.symm.trans carried'))
      cases parses.symm.trans noKey'
    | key carried' parses' stored' found' active' verified' account' owner' =>
      obtain ⟨rfl, -⟩ := Prod.mk.inj (Option.some.inj (carried.symm.trans carried'))
      obtain rfl := Option.some.inj (parses.symm.trans parses')
      obtain rfl := hdistinct _ stored _ stored' (found.trans found'.symm)
      obtain rfl := Table.eq_of_key account account' (owner.symm.trans owner')
      rfl

variable [Sha256] [AuditCursorText] {i j : Instant} {ms : List (Move Instant Arrival)}

/-- In every state that a run reaches, while the database answers: a request is admitted exactly when
it carries a valid credential, and then of one principal only, whose permissions it is given. -/
theorem admitted_iff (run : Run (Arrival.Step config) i ms j)
    (hdistinct : i.tables.PrefixesDistinct) (htables : w.tables = j.tables) (hw : w.Healthy) :
    ((∃ ext v, (call config headers).run w = (.ok ext, v)) ↔
      ∃! p, Principal.Presented config headers w p) ∧
    ∀ ext v p, (call config headers).run w = (.ok ext, v) → Principal.Presented config headers w p →
      ∃ c, ext = c.extensions p.kind ∧ AuthedCaller.Represents c p w.tables := by
  have hdistinct' : w.tables.PrefixesDistinct := htables ▸ Arrival.prefixesDistinct_run run hdistinct
  constructor
  · constructor
    · rintro ⟨ext, v, hcall⟩
      obtain ⟨p, c, hpresented, -, -⟩ := call_presents hcall
      exact ⟨p, hpresented, fun q hq => hq.unique hdistinct' hpresented⟩
    · rintro ⟨p, hpresented, -⟩
      exact call_of_presented hw hdistinct' hpresented
  · intro ext v p hcall hpresented
    obtain ⟨q, c, hq, hc, hext⟩ := call_presents hcall
    obtain rfl := hq.unique hdistinct' hpresented
    exact ⟨c, hext, hc⟩

end Admit

/-- The owner of `acme` is admitted after the password has been changed in the same session. -/
theorem admitted_iff_ownerChanged :
    ∃! p, @Principal.Presented (signingPlatform ownerSession).toArgon2
      (signingPlatform ownerSession).toJsonWebToken runConfig ownerHeaders
      (.calm ownerChanged 0) p := by
  let _ : Platform := signingPlatform ownerSession
  let _ : Sha256 := ⟨id⟩
  let _ : AuditCursorText := ⟨fun _ => "", fun _ => none⟩
  have hstep : Arrival.Step runConfig ⟨ownerTables, 0⟩ ownerChanges ⟨ownerChanged, 0⟩ :=
    ⟨rfl, le_rfl, rfl, rfl⟩
  have hdistinct : ownerTables.PrefixesDistinct := fun _ h => absurd h List.not_mem_nil
  have hhealthy : (World.calm ownerChanged 0).Healthy := fun n => by simp [World.answersAll, World.calm]
  have hok : ((call runConfig ownerHeaders).run (.calm ownerChanged 0)).1.isOk = true := by
    decide +kernel
  refine (admitted_iff (w := .calm ownerChanged 0) (.single hstep) hdistinct rfl hhealthy).1.mp ?_
  cases hcall : (call runConfig ownerHeaders).run (.calm ownerChanged 0) with
  | mk r v =>
    rw [hcall] at hok
    cases r with
    | ok ext => exact ⟨ext, v, rfl⟩
    | error e => cases hok

end Egras
