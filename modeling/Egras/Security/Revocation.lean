import Egras.Auth.Soundness
import Egras.Db.Seeds
import Egras.Security.Keys

/-!
# Revocation of API keys

The operations on service accounts and their keys in any order (`KeyCall.Step`), from any state of
the tables. A key is revoked by `revoke_api_key`, by `rotate_api_key` or with its service account
(`KeyCall.Revokes`). From then on it is `Retired`: no active row carries its identifier and no later
operation draws it again, which is the uniqueness of `Uuid::now_v7`. Each operation keeps a retired
key retired, so that no later check of any prefix and secret returns it
(`revoked_key_never_verifies`).
-/

namespace Egras
open Lib

/-- What the background task of the API-key path does: two updates whose failures are only
logged. -/
def touchLastUsed (task : TouchTask) : Action Anyhow Unit := do
  let _ ← (touchKey task.keyId).attempt
  let _ ← (touchServiceAccount task.saUserId).attempt
  return ()

/-- An identifier that a world may hand out; when its supply is exhausted it hands out zero. -/
def World.MayDraw (w : World) (id : Uuid) : Prop := id = 0 ∨ id ∈ w.uuids

/-- No active key has this identifier. -/
def Tables.Inactive (t : Tables) (keyId : Uuid) : Prop :=
  ∀ k ∈ t.apiKeys, k.id = keyId → k.revokedAt ≠ none

/-- No active key has this identifier, and none will be given it. -/
structure World.Retired (keyId : Uuid) (w : World) : Prop where
  inactive : w.tables.Inactive keyId
  undrawn : ¬ w.MayDraw keyId

section Retired
variable {keyId : Uuid} {t t' : Tables} {w v : World}

/-- Retirement looks at the keys and at the identifiers left to draw. -/
lemma durable_retired : Durable (World.Retired keyId) where
  drawn h htables huuids := by
    refine ⟨by rw [htables]; exact h.inactive, fun hmay => h.undrawn ?_⟩
    exact hmay.imp_right fun hmem => huuids.subset hmem
  undone hw hu := ⟨hw.inactive, hu.undrawn⟩

/-- What is drawn next is another identifier. -/
lemma World.Retired.headD_ne (h : w.Retired keyId) : w.uuids.headD 0 ≠ keyId := by
  intro hdrawn
  refine h.undrawn ?_
  unfold World.MayDraw
  cases huuids : w.uuids with
  | nil =>
    rw [huuids] at hdrawn
    exact Or.inl hdrawn.symm
  | cons id uuids =>
    rw [huuids] at hdrawn
    exact Or.inr (hdrawn ▸ List.mem_cons_self)

namespace Tables

/-- A key that is inactive stays so when other keys than it appear and keys only go or are
revoked. -/
lemma Inactive.mono (h : t.Inactive keyId)
    (hkeys : ∀ q ∈ t'.apiKeys, q.id = keyId → q.revokedAt = none →
      ∃ k ∈ t.apiKeys, k.id = keyId ∧ k.revokedAt = none) : t'.Inactive keyId := by
  intro q hq hid hactive
  obtain ⟨k, hk, hkid, hkactive⟩ := hkeys q hq hid hactive
  exact h k hk hkid hkactive

/-- The same keys are active. -/
lemma Inactive.of_apiKeys (h : t.Inactive keyId) (hkeys : t'.apiKeys = t.apiKeys) :
    t'.Inactive keyId := by
  unfold Inactive
  rw [hkeys]
  exact h

/-- Another new key makes no key active. -/
lemma Inactive.addKey {k : ApiKeyRecord} (h : t.Inactive keyId) (hins : t.Insertable k)
    (hne : k.id ≠ keyId) : (t.addKey k).Inactive keyId := by
  refine h.mono fun q hq hid hactive => ?_
  rcases hins.mem_addKey.mp hq with hold | rfl
  · exact ⟨q, hold, hid, hactive⟩
  · exact absurd hid hne

/-- Revocations make no key active. -/
lemma Inactive.revokeKeys {p : ApiKeyRecord → Bool} {now : Timestamp} (h : t.Inactive keyId) :
    (t.revokeKeys p now).Inactive keyId := by
  refine h.mono fun q hq hid hactive => ?_
  obtain ⟨k, hk, rfl⟩ := mem_revokeKeys.mp hq
  split at hactive
  · cases hactive
  · rename_i hp
    rw [if_neg hp] at hid
    exact ⟨k, hk, hid, hactive⟩

/-- Deletions make no key active. -/
lemma Inactive.cascadeUser {userId : Uuid} (h : t.Inactive keyId) :
    (t.cascadeUser userId).Inactive keyId :=
  h.mono fun q hq hid hactive => ⟨q, (Table.mem_deleteWhere.mp hq).1, hid, hactive⟩

/-- Revoking the active rows with an identifier leaves none. -/
lemma inactive_revokeKeys {p : ApiKeyRecord → Bool} {now : Timestamp}
    (hp : ∀ k ∈ t.apiKeys, k.id = keyId → k.revokedAt = none → p k = true) :
    (t.revokeKeys p now).Inactive keyId := by
  intro q hq hid hactive
  obtain ⟨k, hk, rfl⟩ := mem_revokeKeys.mp hq
  split at hactive
  · cases hactive
  · rename_i hnot
    rw [if_neg hnot] at hid
    exact hnot (hp k hk hid hactive)

/-- With its service account a key is gone. -/
lemma inactive_cascadeUser {k : ApiKeyRecord} (hk : k ∈ t.apiKeys) :
    (t.cascadeUser k.serviceAccountUserId).Inactive k.id := by
  intro q hq hid hactive
  obtain ⟨hq, hother⟩ := Table.mem_deleteWhere.mp hq
  obtain rfl := key_eq_of_id hq hk hid
  simp at hother

end Tables

/-! ## Each statement -/

/-- A statement that leaves the keys alone keeps a retired key retired. -/
lemma keeps_execute_of_apiKeys {α : Type} {f : World → Except SqlError (α × Tables)}
    (hf : ∀ w a t, f w = .ok (a, t) → t.apiKeys = w.tables.apiKeys) :
    Prog.Keeps (World.Retired keyId) (execute f) := by
  refine keeps_execute durable_retired fun w a t hw heffect => ?_
  exact ⟨hw.inactive.of_apiKeys (hf w a t heffect), hw.undrawn⟩

/-- A new key under another id leaves a retired one retired. -/
lemma keeps_insertKey {new : NewApiKeyRow} (hne : new.id ≠ keyId) :
    Prog.Keeps (World.Retired keyId) (insertKey new) := by
  refine Prog.Keeps.mapErr (keeps_execute durable_retired fun w a t hw heffect => ?_)
  obtain ⟨hinsert, -⟩ := return_eq_ok.mp heffect
  obtain ⟨hins, rfl⟩ := Tables.insertApiKey_eq_ok hinsert
  exact ⟨hw.inactive.addKey hins hne, hw.undrawn⟩

/-- Creating a key under another id leaves a retired one retired. -/
lemma keeps_createKey {new : NewApiKeyRow} (hne : new.id ≠ keyId) :
    Prog.Keeps (World.Retired keyId) (createKey new) :=
  Prog.Keeps.bind (Prog.Keeps.mapErr (keeps_query durable_retired)) fun _ => keeps_insertKey hne

/-- Rotating into another id leaves a retired key retired. -/
lemma keeps_rotateKey {oldKeyId : Uuid} {new : NewApiKeyRow} (hne : new.id ≠ keyId) :
    Prog.Keeps (World.Retired keyId) (rotateKey oldKeyId new) := by
  refine keeps_transaction durable_retired (Prog.Keeps.bind (Prog.Keeps.mapErr ?_) fun _ =>
    keeps_insertKey hne)
  refine keeps_execute durable_retired fun w a t hw heffect => ?_
  cases heffect
  exact ⟨hw.inactive.revokeKeys, hw.undrawn⟩

/-- Revoking a key leaves a retired one retired. -/
lemma keeps_revokeKey {saUserId id : Uuid} :
    Prog.Keeps (World.Retired keyId) (revokeKey saUserId id) := by
  refine keeps_execute durable_retired fun w a t hw heffect => ?_
  cases heffect
  exact ⟨hw.inactive.revokeKeys, hw.undrawn⟩

/-- A use makes no key active. -/
lemma touchKey_inactive {now : Timestamp} {id : Uuid} {t t' : Tables} (h : t.Inactive keyId)
    (hkeys : t'.apiKeys = t.apiKeys.updateWhere (fun k => k.id = id && staleUse k.lastUsedAt now)
      (fun k => { k with lastUsedAt := some now }) (touchKey_key now)) : t'.Inactive keyId := by
  refine h.mono fun q hq hqid hactive => ?_
  rw [hkeys] at hq
  obtain ⟨k, hk, rfl⟩ := Table.mem_updateWhere.mp hq
  split at hqid
  · rename_i hp
    rw [if_pos hp] at hactive
    exact ⟨k, hk, hqid, hactive⟩
  · rename_i hp
    rw [if_neg hp] at hactive
    exact ⟨k, hk, hqid, hactive⟩

/-- A use leaves a retired key retired. -/
lemma keeps_touchKey {id : Uuid} : Prog.Keeps (World.Retired keyId) (touchKey id) := by
  refine keeps_execute durable_retired fun w a t hw heffect => ?_
  cases heffect
  exact ⟨touchKey_inactive hw.inactive rfl, hw.undrawn⟩

/-- Deleting a service account leaves a retired key retired. -/
lemma keeps_deleteServiceAccountRows {organisationId saUserId : Uuid} :
    Prog.Keeps (World.Retired keyId) (deleteServiceAccountRows organisationId saUserId) := by
  unfold deleteServiceAccountRows findServiceAccount
  refine Prog.Keeps.bind (keeps_query durable_retired) fun found => ?_
  cases found with
  | none => exact Prog.Keeps.ret
  | some sa =>
    refine keeps_execute durable_retired fun w a t hw heffect => ?_
    split at heffect
    · obtain ⟨hdelete, -⟩ := return_eq_ok.mp heffect
      obtain rfl := Tables.deleteUser_eq_ok hdelete
      exact ⟨hw.inactive.cascadeUser, hw.undrawn⟩
    · cases heffect
      exact hw

/-- Creating a service account leaves a retired key retired. -/
lemma keeps_createServiceAccountRows [CaseMapping] {req : NewServiceAccount} :
    Prog.Keeps (World.Retired keyId) (createServiceAccountRows req) := by
  refine keeps_transaction durable_retired ?_
  refine Prog.Keeps.bind (keeps_nowV7 durable_retired) fun userId => ?_
  refine Prog.Keeps.bind (Prog.Keeps.mapErr (keeps_execute_of_apiKeys fun w a t heffect => ?_))
    fun _ => Prog.Keeps.mapErr (keeps_execute_of_apiKeys fun w a t heffect => ?_)
  · obtain ⟨hinsert, -⟩ := return_eq_ok.mp heffect
    obtain ⟨-, rfl⟩ := Tables.insertUser_eq_ok hinsert
    exact Tables.addUser_apiKeys
  · obtain ⟨hinsert, -⟩ := return_eq_ok.mp heffect
    obtain ⟨rfl, -⟩ := Tables.insertServiceAccount_eq_ok hinsert
    exact Tables.addServiceAccount_apiKeys

/-! ## Each operation -/

/-- The background task leaves a retired key retired. -/
lemma keeps_touchLastUsed {task : TouchTask} :
    Prog.Keeps (World.Retired keyId) (touchLastUsed task) := by
  unfold touchLastUsed touchServiceAccount
  refine Prog.Keeps.bind keeps_touchKey.attempt fun _ => ?_
  refine Prog.Keeps.bind (Prog.Keeps.attempt (keeps_execute_of_apiKeys fun w a t heffect => ?_))
    fun _ => Prog.Keeps.ret
  cases heffect
  rfl

/-- The use case of a new service account leaves a retired key retired. -/
lemma keeps_createServiceAccount [CaseMapping] {input : CreateServiceAccountInput} :
    Prog.Keeps (World.Retired keyId) (createServiceAccount input) :=
  Prog.Keeps.bind keeps_createServiceAccountRows.mapErr fun _ =>
    Prog.Keeps.bind (keeps_record durable_retired) fun _ => Prog.Keeps.ret

/-- The use case of a deletion leaves a retired key retired. -/
lemma keeps_deleteServiceAccount {input : DeleteServiceAccountInput} :
    Prog.Keeps (World.Retired keyId) (deleteServiceAccount input) :=
  Prog.Keeps.bind keeps_deleteServiceAccountRows.mapErr fun _ =>
    Prog.Keeps.bind keeps_require fun _ => keeps_record durable_retired

/-- The use case of a revocation leaves a retired key retired. -/
lemma keeps_revokeApiKey {input : RevokeApiKeyInput} :
    Prog.Keeps (World.Retired keyId) (revokeApiKey input) := by
  refine Prog.Keeps.bind (keeps_query durable_retired).mapErr fun _ => ?_
  refine Prog.Keeps.bind keeps_require fun _ => ?_
  refine Prog.Keeps.bind keeps_revokeKey.mapErr fun _ => ?_
  exact Prog.Keeps.bind keeps_require fun _ => keeps_record durable_retired

variable [Argon2] [Base64]

/-- While a key is retired, a fresh row is one of another key. -/
lemma freshKeyRow_ensures {saUserId createdBy : Uuid} {name : String}
    {scopes : Option (List String)} :
    Prog.Ensures (World.Retired keyId) (freshKeyRow saUserId name scopes createdBy)
      (fun drawn _ => drawn.2.id ≠ keyId) := by
  rintro w ⟨g, row⟩ v hw hrun
  rw [(freshKeyRow_eq_ok hrun).1]
  exact hw.headD_ne

/-- Drawing a fresh key and storing it, whatever stores it. -/
lemma keeps_fresh {ε α : Type} {saUserId createdBy : Uuid} {name : String}
    {scopes : Option (List String)} {conv : Anyhow → ε}
    {k : GeneratedKey × NewApiKeyRow → Action ε α}
    (hk : ∀ drawn, drawn.2.id ≠ keyId → Prog.Keeps (World.Retired keyId) (k drawn)) :
    Prog.Keeps (World.Retired keyId)
      ((freshKeyRow saUserId name scopes createdBy).mapErr conv >>= k) :=
  Prog.Keeps.bind_of (keeps_freshKeyRow durable_retired).mapErr freshKeyRow_ensures.mapErr hk

/-- The loop in which a key is made keeps a retired key retired when storing one does. -/
lemma keeps_issueKey {ε : Type} {collision other : ε} {saUserId createdBy : Uuid} {name : String}
    {scopes : Option (List String)} {store : NewApiKeyRow → Action ApiKeyRepoError ApiKey}
    {event : ApiKey → Stamp → AuditEvent} {attempts : ℕ}
    (hstore : ∀ row, row.id ≠ keyId → Prog.Keeps (World.Retired keyId) (store row)) :
    Prog.Keeps (World.Retired keyId)
      (issueKey collision other saUserId name scopes createdBy store event attempts) := by
  induction attempts with
  | zero => exact Prog.Keeps.fail
  | succ attempts ih =>
    refine keeps_fresh fun drawn hne => ?_
    refine Prog.Keeps.bind (hstore _ hne).attempt fun outcome => ?_
    cases outcome with
    | ok key => exact Prog.Keeps.bind (keeps_record durable_retired) fun _ => Prog.Keeps.ret
    | error e =>
      cases e with
      | duplicatePrefix => exact ih
      | other e => exact Prog.Keeps.fail

/-- A creation of a key keeps a retired one retired. -/
lemma keeps_createApiKey {input : CreateApiKeyInput} :
    Prog.Keeps (World.Retired keyId) (createApiKey input) := by
  refine Prog.Keeps.bind keeps_require fun _ => ?_
  refine Prog.Keeps.bind (keeps_query durable_retired).mapErr fun _ => ?_
  exact Prog.Keeps.bind keeps_require fun _ =>
    createApiKeyLoop_eq ▸ keeps_issueKey fun _ => keeps_createKey

/-- A rotation keeps a retired key retired. -/
lemma keeps_rotateApiKey {input : RotateApiKeyInput} :
    Prog.Keeps (World.Retired keyId) (rotateApiKey input) := by
  refine Prog.Keeps.bind (keeps_query durable_retired).mapErr fun _ => ?_
  refine Prog.Keeps.bind keeps_require fun _ => ?_
  refine Prog.Keeps.bind (keeps_query durable_retired).mapErr fun found => ?_
  cases found with
  | none => exact Prog.Keeps.fail
  | some old =>
    exact Prog.Keeps.bind keeps_require fun _ =>
      rotateApiKeyLoop_eq ▸ keeps_issueKey fun _ => keeps_rotateKey

/-! ## What revokes a key -/

/-- A rotation that returns leaves the old key inactive. -/
lemma rotateApiKey_inactive {input : RotateApiKeyInput} {mat : ApiKeyMaterial}
    (h : (rotateApiKey input).run w = (.ok mat, v)) : v.tables.Inactive input.oldKeyId := by
  obtain ⟨-, ⟨q, hq, hid, -⟩, k, now, -, hins, -, htables, -⟩ := rotateApiKey_eq_ok h
  rw [htables]
  refine Tables.Inactive.addKey (Tables.inactive_revokeKeys fun k _ hid hactive => ?_) hins ?_
  · simp [hid, hactive]
  · -- the old key is still stored, so that the new one has another identifier
    have hne := hins.id _ (Tables.mem_revokeKeys.mpr ⟨q, hq, rfl⟩)
    intro hnew
    refine hne ?_
    split <;> exact hid.trans hnew.symm

omit [Argon2] [Base64] in
/-- A revocation that returns leaves the key inactive. -/
lemma revokeApiKey_inactive {input : RevokeApiKeyInput}
    (h : (revokeApiKey input).run w = (.ok (), v)) : v.tables.Inactive input.keyId := by
  obtain ⟨sa, w₁, hfind, h⟩ := Prog.bind_eq_ok h
  obtain ⟨-, rfl, -⟩ := query_eq_ok (Prog.mapErr_eq_ok hfind)
  obtain ⟨_, w₁, hrequire, h⟩ := Prog.bind_eq_ok h
  obtain ⟨-, rfl⟩ := require_eq_ok hrequire
  obtain ⟨revoked, w₂, hrevoke, h⟩ := Prog.bind_eq_ok h
  obtain ⟨hany, htables⟩ := revokeKey_eq_ok (Prog.mapErr_eq_ok hrevoke)
  obtain ⟨_, w₃, hrequire, hrecord⟩ := Prog.bind_eq_ok h
  obtain ⟨hrevoked, rfl⟩ := require_eq_ok hrequire
  rw [reads_tables_record.of_run hrecord, htables]
  -- one row carries the identifier, and it is the one that has been revoked
  obtain ⟨k, hk, hp⟩ := Table.any_eq_true.mp (hany.symm.trans hrevoked)
  simp only [Bool.and_eq_true, decide_eq_true_eq] at hp
  refine Tables.inactive_revokeKeys fun q hq hid hactive => ?_
  obtain rfl := Tables.key_eq_of_id hq hk (hid.trans hp.1.1.symm)
  simp [hp]

omit [Argon2] [Base64] in
/-- A deletion of its service account that returns leaves no key behind. -/
lemma deleteServiceAccount_inactive {input : DeleteServiceAccountInput} {k : ApiKeyRecord}
    (hk : k ∈ w.tables.apiKeys) (hsa : k.serviceAccountUserId = input.saUserId)
    (h : (deleteServiceAccount input).run w = (.ok (), v)) : v.tables.Inactive k.id := by
  obtain ⟨removed, w₁, hdelete, h⟩ := Prog.bind_eq_ok h
  obtain ⟨_, w₂, hrequire, hrecord⟩ := Prog.bind_eq_ok h
  obtain ⟨rfl, rfl⟩ := require_eq_ok hrequire
  rw [reads_tables_record.of_run hrecord]
  obtain ⟨found, w₃, hquery, hdelete⟩ := Prog.bind_eq_ok (Prog.mapErr_eq_ok hdelete)
  obtain ⟨-, rfl, -⟩ := query_eq_ok hquery
  cases found with
  | none => cases hdelete
  | some sa =>
    obtain ⟨t, heffect, rfl, -⟩ := execute_eq_ok hdelete
    split at heffect
    · obtain ⟨hcascade, -⟩ := return_eq_ok.mp heffect
      obtain rfl := Tables.deleteUser_eq_ok hcascade
      rw [← hsa]
      exact Tables.inactive_cascadeUser hk
    · cases heffect

end Retired

/-! ## Runs -/

/-- An operation on service accounts and their keys. -/
inductive KeyOperation
  | createApiKey (input : CreateApiKeyInput)
  | rotateApiKey (input : RotateApiKeyInput)
  | revokeApiKey (input : RevokeApiKeyInput)
  | createServiceAccount (input : CreateServiceAccountInput)
  | deleteServiceAccount (input : DeleteServiceAccountInput)
  | touchLastUsed (task : TouchTask)
deriving DecidableEq

/-- An operation with the world that it runs in. -/
structure KeyCall where
  world : World
  operation : KeyOperation
deriving DecidableEq

/-- Whether a program returns, and the world that it leaves. -/
def returning {ε α : Type} (p : Action ε α) (w : World) : Bool × World :=
  ((p.run w).1.isOk, (p.run w).2)

/-- A program that reports success has succeeded. -/
lemma returning_eq_ok {ε α : Type} {p : Action ε α} {w : World} (h : (returning p w).1 = true) :
    ∃ a, p.run w = (.ok a, (returning p w).2) := by
  unfold returning at h ⊢
  cases hrun : p.run w with
  | mk r v =>
    rw [hrun] at h
    cases r with
    | ok a => exact ⟨a, rfl⟩
    | error e => cases h

namespace KeyCall
variable [Argon2] [Base64] [CaseMapping]

/-- Whether the operation returned, and the world that it leaves. -/
def serve (x : KeyCall) : Bool × World :=
  match x.operation with
  | .createApiKey input => returning (createApiKey input) x.world
  | .rotateApiKey input => returning (rotateApiKey input) x.world
  | .revokeApiKey input => returning (revokeApiKey input) x.world
  | .createServiceAccount input => returning (createServiceAccount input) x.world
  | .deleteServiceAccount input => returning (deleteServiceAccount input) x.world
  | .touchLastUsed task => returning (touchLastUsed task) x.world

/-- The operation revokes a key: it returns, and it is a revocation or a rotation of the key or the
deletion of its service account. -/
def Revokes (x : KeyCall) (keyId : Uuid) : Prop :=
  x.serve.1 = true ∧
    match x.operation with
    | .revokeApiKey input => input.keyId = keyId
    | .rotateApiKey input => input.oldKeyId = keyId
    | .deleteServiceAccount input =>
      ∃ k ∈ x.world.tables.apiKeys, k.id = keyId ∧ k.serviceAccountUserId = input.saUserId
    | _ => False

/-- One operation over the tables; the rest of its world is supplied anew. -/
structure Step (t : Tables) (x : KeyCall) (t' : Tables) : Prop where
  pre : x.world.tables = t
  post : x.serve.2.tables = t'

variable {x : KeyCall} {t t' : Tables} {keyId : Uuid}

/-- A key that an operation revokes is inactive after it. -/
lemma Step.inactive (h : Step t x t') (hrevokes : x.Revokes keyId) : t'.Inactive keyId := by
  obtain ⟨w, operation⟩ := x
  obtain ⟨rfl, rfl⟩ := h
  obtain ⟨hreturns, hrevokes⟩ := hrevokes
  cases operation with
  | createApiKey input => cases hrevokes
  | rotateApiKey input =>
    obtain ⟨mat, hrun⟩ := returning_eq_ok hreturns
    obtain rfl : input.oldKeyId = keyId := hrevokes
    exact rotateApiKey_inactive hrun
  | revokeApiKey input =>
    obtain ⟨_, hrun⟩ := returning_eq_ok hreturns
    obtain rfl : input.keyId = keyId := hrevokes
    exact revokeApiKey_inactive hrun
  | createServiceAccount input => cases hrevokes
  | deleteServiceAccount input =>
    obtain ⟨_, hrun⟩ := returning_eq_ok hreturns
    obtain ⟨k, hk, rfl, hsa⟩ := hrevokes
    exact deleteServiceAccount_inactive hk hsa hrun
  | touchLastUsed task => cases hrevokes

/-- A key that is inactive stays so through an operation that does not draw its identifier. -/
lemma Step.inactive_kept (h : Step t x t') (hundrawn : ¬ x.world.MayDraw keyId)
    (hinactive : t.Inactive keyId) : t'.Inactive keyId := by
  obtain ⟨w, operation⟩ := x
  obtain ⟨rfl, rfl⟩ := h
  have hretired : w.Retired keyId := ⟨hinactive, hundrawn⟩
  cases operation with
  | createApiKey input => exact (keeps_createApiKey w hretired).inactive
  | rotateApiKey input => exact (keeps_rotateApiKey w hretired).inactive
  | revokeApiKey input => exact (keeps_revokeApiKey w hretired).inactive
  | createServiceAccount input => exact (keeps_createServiceAccount w hretired).inactive
  | deleteServiceAccount input => exact (keeps_deleteServiceAccount w hretired).inactive
  | touchLastUsed task => exact (keeps_touchLastUsed w hretired).inactive

/-- In every run of operations in any order, a key that has been revoked is never verified again,
with any prefix and any secret, when its identifier is not drawn a second time; and whatever is
verified is a stored key, with its service account and the home organisation of that account. -/
theorem revoked_key_never_verifies {t₀ t : Tables} {ms : List (Move Tables KeyCall)}
    (run : Run Step t₀ ms t) {w w' : World} (hw : w.tables = t) {keyPrefix secret : String}
    {verified : VerifiedKey}
    (hverify : (verifyKey keyPrefix secret).run w = (.ok (some verified), w')) :
    (∀ before m after keyId, ms = before ++ m :: after → m.label.Revokes keyId →
      (∀ later ∈ after, ¬ later.label.world.MayDraw keyId) → verified.keyId ≠ keyId) ∧
    ∃ k ∈ t.apiKeys, ∃ sa ∈ t.serviceAccounts,
      k.id = verified.keyId ∧ k.serviceAccountUserId = verified.saUserId ∧
      sa.userId = verified.saUserId ∧ sa.organisationId = verified.organisationId := by
  subst hw
  obtain ⟨k, hk, sa, hsa, -, hactive, hid, -, rfl, -⟩ := verifyKey_eq_ok hverify
  refine ⟨?_, k, hk, sa, hsa, rfl, hid.symm, rfl, rfl⟩
  rintro before m after keyId rfl hrevokes hundrawn hkey
  obtain ⟨u, -, rest⟩ := run.of_append
  obtain ⟨rfl, hstep, rest⟩ := rest.of_cons
  have hinactive : w.tables.Inactive keyId :=
    rest.invariant (fun t => t.Inactive keyId) (fun m => ¬ m.label.world.MayDraw keyId)
      (hstep.inactive hrevokes) (fun _ _ _ step hlater h => step.inactive_kept hlater h) hundrawn
  exact hinactive k hk hkey hactive

end KeyCall

section Runs

/-- A service account of `acme` with two active keys. -/
def twoKeys : Tables where
  __ := Tables.twoTenants
  users := ⟨Tables.twoTenants.users.rows ++
    [⟨0x41, "sa_deploy", "sa_deploy@service-account.invalid", "!", .serviceAccount, 0, 0⟩], by decide⟩
  serviceAccounts := ⟨[⟨0x41, 0xa, "deploy", none, 0, 0x11, none⟩], by decide⟩
  apiKeys := ⟨[⟨⟨0x51, 0x41, "00000051", "old", none, 0, 0x11, none, none⟩, "m=19456,t=2,p=1$first"⟩,
    ⟨⟨0x52, 0x41, "00000052", "new", none, 1, 0x11, none, none⟩, "m=19456,t=2,p=1$second"⟩], by decide⟩

/-- The owner of `acme` revokes the first key. -/
def revokesFirst : KeyCall := ⟨.calm twoKeys 5, .revokeApiKey ⟨0xa, 0x41, 0x51, 0x11, 0xa⟩⟩

/-- The tables after that. -/
def firstRevoked : Tables :=
  (@KeyCall.serve plainPlatform.toArgon2 plainPlatform.toBase64 plainPlatform.toCaseMapping
    revokesFirst).2.tables

/-- After the first key has been revoked the second one still verifies, and it is not the first. -/
theorem revoked_key_never_verifies_twoKeys :
    @KeyCall.Revokes plainPlatform.toArgon2 plainPlatform.toBase64 plainPlatform.toCaseMapping
      revokesFirst 0x51 ∧ (0x52 : Uuid) ≠ 0x51 ∧
    ∃ k ∈ firstRevoked.apiKeys, ∃ sa ∈ firstRevoked.serviceAccounts,
      k.id = 0x52 ∧ k.serviceAccountUserId = 0x41 ∧ sa.userId = 0x41 ∧ sa.organisationId = 0xa := by
  have hrevokes : @KeyCall.Revokes plainPlatform.toArgon2 plainPlatform.toBase64
      plainPlatform.toCaseMapping revokesFirst 0x51 := ⟨by decide +kernel, rfl⟩
  have hverified := @KeyCall.revoked_key_never_verifies plainPlatform.toArgon2
    plainPlatform.toBase64 plainPlatform.toCaseMapping _ _ _
    (.single (@KeyCall.Step.mk plainPlatform.toArgon2 plainPlatform.toBase64
      plainPlatform.toCaseMapping _ revokesFirst _ rfl rfl))
    (.calm firstRevoked 9) _ rfl "00000052" "second" ⟨0x52, 0x41, 0xa, none⟩ (by rfl)
  exact ⟨hrevokes, hverified.1 [] _ [] 0x51 rfl hrevokes (by simp), hverified.2⟩

end Runs
end Egras
