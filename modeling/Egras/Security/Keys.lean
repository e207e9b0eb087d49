import Egras.Membership.Roster

/-!
# API keys in the tables

When an API key can be inserted (`Insertable`) and what the statements on `api_keys` do to the rows,
with what the drawing of a fresh key leaves unchanged.
-/

namespace Egras
open Lib

namespace Tables
variable {t t' : Tables} {k q : ApiKeyRecord} {now : Timestamp}

/-- A key can be stored: it has scopes or inherits them all, its identifier and its prefix are free,
and its service account and its creator exist. -/
structure Insertable (t : Tables) (k : ApiKeyRecord) : Prop where
  scopes : k.scopes ≠ some []
  id : ∀ q ∈ t.apiKeys, q.id ≠ k.id
  keyPrefix : ∀ q ∈ t.apiKeys, q.keyPrefix ≠ k.keyPrefix
  account : ∃ sa ∈ t.serviceAccounts, sa.userId = k.serviceAccountUserId
  creator : ∃ u ∈ t.users, u.id = k.createdBy

/-- The tables with one more API key. -/
def addKey (t : Tables) (k : ApiKeyRecord) : Tables :=
  match t.apiKeys.insert? k with
  | some rows => { t with apiKeys := rows }
  | none => t

/-- A key that is accepted is insertable and is stored. -/
lemma insertApiKey_eq_ok (h : t.insertApiKey k = .ok t') : t.Insertable k ∧ t' = t.addKey k := by
  unfold insertApiKey at h
  split at h
  · cases h
  · rename_i hscopes
    split at h
    · cases h
    · rename_i rows hrows
      split at h
      · cases h
      · rename_i hfresh
        split at h
        · cases h
        · rename_i haccount
          split at h
          · cases h
          · rename_i hcreator
            cases h
            refine ⟨⟨hscopes, (Table.insert?_eq_some hrows).1, ?_, ?_, ?_⟩, ?_⟩
            · simpa using hfresh
            · simpa using haccount
            · simpa [hasUser] using hcreator
            · simp [addKey, hrows]

/-- An insertable key is accepted. -/
lemma Insertable.accepted (h : t.Insertable k) : t.insertApiKey k = .ok (t.addKey k) := by
  obtain ⟨hscopes, hid, hfresh, haccount, hcreator⟩ := h
  unfold insertApiKey addKey
  rw [if_neg hscopes]
  cases hrows : t.apiKeys.insert? k with
  | none =>
    obtain ⟨q, hq, hkey⟩ := Table.insert?_eq_none.mp hrows
    exact absurd hkey (hid q hq)
  | some rows =>
    have hfresh' : t.apiKeys.any (fun q => q.keyPrefix = k.keyPrefix) = false :=
      Table.any_eq_false.mpr fun q hq => by simpa using hfresh q hq
    have haccount' : t.serviceAccounts.any (fun sa => sa.userId = k.serviceAccountUserId) = true :=
      Table.any_eq_true.mpr (by simpa using haccount)
    have hcreator' : t.hasUser k.createdBy = true := Table.any_eq_true.mpr (by simpa using hcreator)
    simp [hfresh', haccount', hcreator']

/-- A key is added after the ones that are there. -/
lemma Insertable.addKey_rows (h : t.Insertable k) :
    (t.addKey k).apiKeys.rows = t.apiKeys.rows ++ [k] := by
  unfold addKey
  cases hrows : t.apiKeys.insert? k with
  | none =>
    obtain ⟨p, hp, hkey⟩ := Table.insert?_eq_none.mp hrows
    exact absurd hkey (h.id p hp)
  | some rows => exact (Table.insert?_eq_some hrows).2

/-- The keys after an insertion. -/
lemma Insertable.mem_addKey (h : t.Insertable k) :
    q ∈ (t.addKey k).apiKeys ↔ q ∈ t.apiKeys ∨ q = k := by
  rw [← Table.mem_rows, h.addKey_rows]
  simp

/-- A new key leaves the users alone. -/
@[simp] lemma addKey_users : (t.addKey k).users = t.users := by
  unfold addKey
  split <;> rfl

/-- A new key leaves the service accounts alone. -/
@[simp] lemma addKey_serviceAccounts : (t.addKey k).serviceAccounts = t.serviceAccounts := by
  unfold addKey
  split <;> rfl

/-- A revocation leaves the users alone. -/
@[simp] lemma revokeKeys_users {p : ApiKeyRecord → Bool} : (t.revokeKeys p now).users = t.users := rfl

/-- A revocation leaves the service accounts alone. -/
@[simp] lemma revokeKeys_serviceAccounts {p : ApiKeyRecord → Bool} :
    (t.revokeKeys p now).serviceAccounts = t.serviceAccounts := rfl

/-- The keys after some have been revoked. -/
lemma mem_revokeKeys {p : ApiKeyRecord → Bool} :
    q ∈ (t.revokeKeys p now).apiKeys ↔
      ∃ k ∈ t.apiKeys, (if p k then { k with revokedAt := some now } else k) = q :=
  @Table.mem_updateWhere _ _ _ t.apiKeys _ _ (revokedKey_key now) q

/-- A new user leaves the keys alone. -/
@[simp] lemma addUser_apiKeys {new : User} : (t.addUser new).apiKeys = t.apiKeys := by
  unfold addUser
  split <;> rfl

/-- A new service account leaves the keys alone. -/
@[simp] lemma addServiceAccount_apiKeys {sa : ServiceAccount} :
    (t.addServiceAccount sa).apiKeys = t.apiKeys := by
  unfold addServiceAccount
  split <;> rfl

/-- A key of a service account is stored. -/
def HoldsKey (t : Tables) (saUserId keyId : Uuid) : Prop :=
  ∃ k ∈ t.apiKeys, k.id = keyId ∧ k.serviceAccountUserId = saUserId

/-- A key is determined by its identifier. -/
lemma key_eq_of_id (hk : k ∈ t.apiKeys) (hq : q ∈ t.apiKeys) (h : k.id = q.id) : k = q :=
  Table.eq_of_key hk hq h

end Tables

/-! ## The statements -/

section Statements
variable {w v : World} {saUserId keyId : Uuid} {new : NewApiKeyRow} {key : ApiKey}

/-- What an insertion that returns tells. -/
lemma insertKey_eq_ok (h : (insertKey new).run w = (.ok key, v)) :
    w.tables.Insertable (new.record w.now) ∧ key = (new.record w.now).toApiKey ∧
      v = { w.tick with tables := w.tables.addKey (new.record w.now) } ∧ w.answers = true := by
  obtain ⟨t, heffect, rfl, hanswers⟩ := execute_eq_ok (Prog.mapErr_eq_ok h)
  obtain ⟨hinsert, rfl⟩ := return_eq_ok.mp heffect
  obtain ⟨hins, rfl⟩ := Tables.insertApiKey_eq_ok hinsert
  exact ⟨hins, rfl, rfl, hanswers⟩

/-- The tables after the active key with an identifier has been revoked. -/
def Tables.revokeActive (t : Tables) (keyId : Uuid) (now : Timestamp) : Tables :=
  t.revokeKeys (fun k => k.id = keyId && k.revokedAt = none) now

/-- What a rotation that commits tells. -/
lemma rotateKey_eq_ok (h : (rotateKey keyId new).run w = (.ok key, v)) :
    (w.tables.revokeActive keyId w.now).Insertable (new.record w.now) ∧
      key = (new.record w.now).toApiKey ∧
      v.tables = (w.tables.revokeActive keyId w.now).addKey (new.record w.now) ∧
      w.answersAll 4 = true := by
  obtain ⟨u, hbody, rfl, h₁, h₄⟩ := transaction_eq_ok h
  obtain ⟨_, u₁, hupdate, hbody⟩ := Prog.bind_eq_ok hbody
  obtain ⟨t, heffect, rfl, h₂⟩ := execute_eq_ok (Prog.mapErr_eq_ok hupdate)
  cases heffect
  obtain ⟨hins, rfl, rfl, h₃⟩ := insertKey_eq_ok hbody
  refine ⟨hins, rfl, rfl, ?_⟩
  have h₃' : w.tick.tick.answers = true := h₃
  have h₄' : w.tick.tick.tick.answers = true := h₄
  simp [World.answersAll_succ, h₁, h₂, h₃', h₄']

/-- A rotation that is answered and whose new key is insertable commits. -/
lemma rotateKey_of_insertable (h : w.answersAll 4 = true)
    (hins : (w.tables.revokeActive keyId w.now).Insertable (new.record w.now)) :
    ∃ v, (rotateKey keyId new).run w = (.ok (new.record w.now).toApiKey, v) ∧
      v.tables = (w.tables.revokeActive keyId w.now).addKey (new.record w.now) := by
  simp only [World.answersAll_succ, World.answersAll_zero, Bool.and_true, Bool.and_eq_true] at h
  obtain ⟨h₁, h₂, h₃, h₄⟩ := h
  have hinsert := return_eq_ok.mpr ⟨hins.accepted, Eq.refl (new.record w.now).toApiKey⟩
  have hbody : Prog.run (do
      (execute (fun w => .ok ((), w.tables.revokeKeys
        (fun k => k.id = keyId && k.revokedAt = none) w.now))).mapErr ApiKeyRepoError.other
      insertKey new) w.tick = (.ok (new.record w.now).toApiKey,
        { w.tick.tick.tick with
          tables := (w.tables.revokeActive keyId w.now).addKey (new.record w.now) }) := by
    refine Prog.run_bind_ok (Prog.run_mapErr_ok (run_execute_ok h₂ rfl)) ?_
    exact Prog.run_mapErr_ok (run_execute_ok h₃ hinsert)
  exact ⟨_, run_transaction_of_ok h₁ hbody h₄, rfl⟩

/-- What a revocation that returns tells: whether there was an active key to revoke. -/
lemma revokeKey_eq_ok {revoked : Bool} (h : (revokeKey saUserId keyId).run w = (.ok revoked, v)) :
    revoked = w.tables.apiKeys.any (fun k =>
        k.id = keyId && k.serviceAccountUserId = saUserId && k.revokedAt = none) ∧
      v.tables = w.tables.revokeKeys (fun k =>
        k.id = keyId && k.serviceAccountUserId = saUserId && k.revokedAt = none) w.now := by
  obtain ⟨t, heffect, rfl, -⟩ := execute_eq_ok h
  cases heffect
  exact ⟨rfl, rfl⟩

/-- The key that a lookup returns. -/
lemma Tables.keyOf_eq_some {t : Tables} (h : t.keyOf saUserId keyId = some key) :
    ∃ k ∈ t.apiKeys, k.id = keyId ∧ k.serviceAccountUserId = saUserId ∧ k.toApiKey = key := by
  obtain ⟨k, hfilter, rfl⟩ := Option.map_eq_some_iff.mp h
  obtain ⟨hfind, hsa⟩ := Option.filter_eq_some_iff.mp hfilter
  obtain ⟨hk, hid⟩ := Table.find?_eq_some.mp hfind
  exact ⟨k, hk, hid, of_decide_eq_true hsa, rfl⟩

end Statements

section Draw
variable [Argon2] [Base64] {saUserId createdBy : Uuid} {name : String}
  {scopes : Option (List String)}

/-- Drawing a fresh key keeps every durable invariant. -/
lemma keeps_freshKeyRow {I : World → Prop} (hI : Durable I) :
    Prog.Keeps I (freshKeyRow saUserId name scopes createdBy) := by
  unfold freshKeyRow generateKey
  refine Prog.Keeps.bind (Prog.Keeps.bind (keeps_randomBytes hI) fun _ =>
    Prog.Keeps.bind (keeps_randomBytes hI) fun _ => Prog.Keeps.ret) fun g => ?_
  refine Prog.Keeps.bind (keeps_nowV7 hI) fun id => ?_
  refine Prog.Keeps.bind ?_ fun hash => Prog.Keeps.ret
  refine Prog.Keeps.bind (keeps_randomBytes hI) fun salt => ?_
  split
  · exact Prog.Keeps.ret
  · exact Prog.Keeps.fail

/-- Drawing a key leaves blind views alone. -/
lemma reads_freshKeyRow {τ : Type} {V : World → τ} [Blind V] :
    Prog.Reads V (freshKeyRow saUserId name scopes createdBy) := by
  unfold freshKeyRow generateKey
  refine Prog.Reads.bind (Prog.Reads.bind (reads_randomBytes Blind.random) fun _ =>
    Prog.Reads.bind (reads_randomBytes Blind.random) fun _ => Prog.Reads.ret) fun g => ?_
  refine Prog.Reads.bind (reads_nowV7 Blind.uuids) fun id => ?_
  exact Prog.Reads.bind reads_hashPassword fun hash => Prog.Reads.ret

/-- A fresh row is one of the service account, under the identifier that is next to be drawn. -/
lemma freshKeyRow_eq_ok {w v : World} {g : GeneratedKey} {row : NewApiKeyRow}
    (h : (freshKeyRow saUserId name scopes createdBy).run w = (.ok (g, row), v)) :
    row.id = w.uuids.headD 0 ∧ row.serviceAccountUserId = saUserId ∧ row.createdBy = createdBy ∧
      row.scopes = scopes ∧ row.name = name := by
  obtain ⟨g', w₁, hgen, h⟩ := Prog.bind_eq_ok h
  have huuids : w₁.uuids = w.uuids := by
    cases hgen
    rfl
  obtain ⟨id, w₂, hid, h⟩ := Prog.bind_eq_ok h
  obtain ⟨rfl, -⟩ := nowV7_eq_ok hid
  obtain ⟨hash, w₃, -, h⟩ := Prog.bind_eq_ok h
  cases h
  rw [huuids]
  exact ⟨rfl, rfl, rfl, rfl, rfl⟩

/-! ## The loop of a creation and of a rotation -/

section Issue
variable {ε : Type} {collision other : ε} {store : NewApiKeyRow → Action ApiKeyRepoError ApiKey}
  {event : ApiKey → Stamp → AuditEvent} {attempts : ℕ} {w v : World} {mat : ApiKeyMaterial}

/-- Fresh keys are drawn until one is stored, whose prefix is free. A creation and a rotation are
this loop with what they store and record (`createApiKeyLoop_eq`, `rotateApiKeyLoop_eq`). -/
def issueKey (collision other : ε) (saUserId : Uuid) (name : String) (scopes : Option (List String))
    (createdBy : Uuid) (store : NewApiKeyRow → Action ApiKeyRepoError ApiKey)
    (event : ApiKey → Stamp → AuditEvent) : ℕ → Action ε ApiKeyMaterial
  | 0 => .fail collision
  | attempts + 1 => do
    let (g, row) ← (freshKeyRow saUserId name scopes createdBy).mapErr (fun _ => other)
    match ← (store row).attempt with
    | .ok key =>
      record (event key)
      return ⟨key, g.plaintext⟩
    | .error .duplicatePrefix =>
      issueKey collision other saUserId name scopes createdBy store event attempts
    | .error (.other _) => .fail other

/-- A key is created by the loop that issues keys. -/
lemma createApiKeyLoop_eq {input : CreateApiKeyInput} :
    createApiKeyLoop input attempts = issueKey .prefixCollision .other input.saUserId input.name
      input.scopes input.actorUserId createKey (fun key s => .apiKeyCreated s input.actorUserId
        input.actorOrgId input.saUserId input.organisationId key.id key.keyPrefix) attempts := by
  induction attempts with
  | zero => rfl
  | succ attempts ih =>
    unfold createApiKeyLoop
    rw [ih]
    rfl

/-- A key is rotated by the loop that issues keys. -/
lemma rotateApiKeyLoop_eq {input : RotateApiKeyInput} :
    rotateApiKeyLoop input name scopes attempts = issueKey .prefixCollision .other input.saUserId
      name scopes input.actorUserId (rotateKey input.oldKeyId) (fun key s => .apiKeyRotated s
        input.actorUserId input.actorOrgId input.saUserId input.organisationId input.oldKeyId key.id)
      attempts := by
  induction attempts with
  | zero => rfl
  | succ attempts ih =>
    unfold rotateApiKeyLoop
    rw [ih]
    rfl

/-- A loop that returns has stored a row that was drawn in some round, with the tables as they were
at its start. -/
lemma issueKey_eq_ok (hstore : ∀ row, Prog.Atomic World.tables (store row))
    (h : (issueKey collision other saUserId name scopes createdBy store event attempts).run w =
      (.ok mat, v)) :
    ∃ g row w₀ w₁ w₂ key, (freshKeyRow saUserId name scopes createdBy).run w₀ = (.ok (g, row), w₁) ∧
      w₁.tables = w.tables ∧ (store row).run w₁ = (.ok key, w₂) ∧ mat = ⟨key, g.plaintext⟩ ∧
      v.tables = w₂.tables := by
  induction attempts generalizing w with
  | zero => cases h
  | succ attempts ih =>
    obtain ⟨⟨g, row⟩, w₁, hfresh, h⟩ := Prog.bind_eq_ok h
    have hfresh := Prog.mapErr_eq_ok hfresh
    have hdraw : w₁.tables = w.tables := reads_freshKeyRow.of_run hfresh
    obtain ⟨outcome, w₂, hattempt, h⟩ := Prog.bind_eq_ok h
    rw [Prog.run_attempt] at hattempt
    obtain ⟨houtcome, rfl⟩ := Prod.mk.inj hattempt
    cases hrun : (store row).run w₁ with
    | mk r w₂ =>
      rw [hrun] at houtcome h
      cases houtcome
      cases r with
      | ok key =>
        obtain ⟨_, w₃, hrecord, hret⟩ := Prog.bind_eq_ok h
        cases hret
        exact ⟨g, row, w, w₁, w₂, key, hfresh, hdraw, hrun, rfl, reads_tables_record.of_run hrecord⟩
      | error e =>
        cases e with
        | duplicatePrefix =>
          -- the refused row leaves no trace, so that the next round starts from the same tables
          have hsame : w₂.tables = w.tables := (hstore row _ _ _ hrun).trans hdraw
          obtain ⟨g, row, w₀, w₃, w₄, key, hfresh, hdraw, hstored⟩ := ih h
          exact ⟨g, row, w₀, w₃, w₄, key, hfresh, hdraw.trans hsame, hstored⟩
        | other e => cases h

/-- A loop that fails stores nothing. -/
lemma atomic_issueKey (hstore : ∀ row, Prog.Atomic World.tables (store row)) :
    Prog.Atomic World.tables
      (issueKey collision other saUserId name scopes createdBy store event attempts) := by
  induction attempts with
  | zero => exact Prog.Atomic.of_reads Prog.Reads.fail
  | succ attempts ih =>
    refine Prog.Atomic.bind_right reads_freshKeyRow.mapErr fun drawn => ?_
    refine Prog.Atomic.attempt_bind (hstore _) (fun key => ?_) (fun e => ?_)
    · exact Prog.FailsIn.bind record_failsIn fun _ => Prog.FailsIn.ret
    · cases e with
      | duplicatePrefix => exact ih
      | other e => exact Prog.Atomic.of_reads Prog.Reads.fail

end Issue

/-! ## The operations -/

/-- A key as it is made for a service account. -/
structure NewKey (saUserId createdBy : Uuid) (k : ApiKeyRecord) : Prop where
  account : k.serviceAccountUserId = saUserId
  creator : k.createdBy = createdBy
  active : k.revokedAt = none

variable {w v : World} {mat : ApiKeyMaterial}

/-- The stored form of a row that has just been drawn. -/
lemma newKey_of_fresh {g : GeneratedKey} {row : NewApiKeyRow} {now : Timestamp}
    (h : (freshKeyRow saUserId name scopes createdBy).run w = (.ok (g, row), v)) :
    NewKey saUserId createdBy (row.record now) := by
  obtain ⟨-, haccount, hcreator, -⟩ := freshKeyRow_eq_ok h
  exact ⟨haccount, hcreator, rfl⟩

omit [Argon2] [Base64] in
/-- Storing a new key fails without effect. -/
lemma atomic_createKey {row : NewApiKeyRow} : Prog.Atomic World.tables (createKey row) :=
  Prog.Atomic.bind_right (reads_query fun _ => rfl).mapErr fun _ => Prog.Atomic.mapErr atomic_execute

/-- What the loop of a creation that returns tells. -/
lemma createApiKeyLoop_eq_ok {input : CreateApiKeyInput} {attempts : ℕ}
    (h : (createApiKeyLoop input attempts).run w = (.ok mat, v)) :
    ∃ k, NewKey input.saUserId input.actorUserId k ∧ w.tables.Insertable k ∧
      mat.key = k.toApiKey ∧ v.tables = w.tables.addKey k := by
  rw [createApiKeyLoop_eq] at h
  obtain ⟨g, row, w₀, w₁, w₂, key, hfresh, hdraw, hcreate, rfl, htables⟩ :=
    issueKey_eq_ok (fun _ => atomic_createKey) h
  obtain ⟨_, w₃, hquery, hinsert⟩ := Prog.bind_eq_ok hcreate
  obtain ⟨-, rfl, -⟩ := query_eq_ok (Prog.mapErr_eq_ok hquery)
  obtain ⟨hins, rfl, rfl, -⟩ := insertKey_eq_ok hinsert
  have hins' : w₁.tables.Insertable (row.record w₁.now) := hins
  rw [hdraw] at hins'
  refine ⟨row.record w₁.now, newKey_of_fresh hfresh, hins', rfl, ?_⟩
  rw [htables, ← hdraw]
  rfl

/-- What a creation of a key that returns tells. -/
lemma createApiKey_eq_ok {input : CreateApiKeyInput}
    (h : (createApiKey input).run w = (.ok mat, v)) :
    (w.tables.serviceAccount input.organisationId input.saUserId).isSome = true ∧
      ∃ k, NewKey input.saUserId input.actorUserId k ∧ w.tables.Insertable k ∧
        mat.key = k.toApiKey ∧ v.tables = w.tables.addKey k := by
  obtain ⟨_, w₁, hscopes, h₁⟩ := Prog.bind_eq_ok h
  obtain ⟨-, rfl⟩ := require_eq_ok hscopes
  obtain ⟨sa, w₂, hfind, h₂⟩ := Prog.bind_eq_ok h₁
  obtain ⟨rfl, rfl, -⟩ := query_eq_ok (Prog.mapErr_eq_ok hfind)
  obtain ⟨_, w₃, hrequire, h₃⟩ := Prog.bind_eq_ok h₂
  obtain ⟨hsome, rfl⟩ := require_eq_ok hrequire
  exact ⟨hsome, createApiKeyLoop_eq_ok (w := w₁.tick) h₃⟩

/-- The loop of a creation that fails stores nothing. -/
lemma atomic_createApiKeyLoop {input : CreateApiKeyInput} {attempts : ℕ} :
    Prog.Atomic World.tables (createApiKeyLoop input attempts) := by
  rw [createApiKeyLoop_eq]
  exact atomic_issueKey fun _ => atomic_createKey

/-- A creation of a key that fails stores nothing. -/
lemma atomic_createApiKey {input : CreateApiKeyInput} :
    Prog.Atomic World.tables (createApiKey input) := by
  refine Prog.Atomic.bind_right reads_require fun _ => ?_
  refine Prog.Atomic.bind_right (reads_query fun _ => rfl).mapErr fun sa => ?_
  exact Prog.Atomic.bind_right reads_require fun _ => atomic_createApiKeyLoop

/-- What the loop of a rotation that returns tells. -/
lemma rotateApiKeyLoop_eq_ok {input : RotateApiKeyInput} {newName : String}
    {newScopes : Option (List String)} {attempts : ℕ}
    (h : (rotateApiKeyLoop input newName newScopes attempts).run w = (.ok mat, v)) :
    ∃ k now, NewKey input.saUserId input.actorUserId k ∧
      (w.tables.revokeActive input.oldKeyId now).Insertable k ∧ mat.key = k.toApiKey ∧
      v.tables = (w.tables.revokeActive input.oldKeyId now).addKey k ∧
      k.name = newName ∧ k.scopes = newScopes := by
  rw [rotateApiKeyLoop_eq] at h
  obtain ⟨g, row, w₀, w₁, w₂, key, hfresh, hdraw, hrotate, rfl, htables⟩ :=
    issueKey_eq_ok (fun _ => atomic_transaction) h
  obtain ⟨hins, rfl, hrotated, -⟩ := rotateKey_eq_ok hrotate
  rw [hdraw] at hins hrotated
  obtain ⟨-, -, -, hscopes, hname⟩ := freshKeyRow_eq_ok hfresh
  exact ⟨row.record w₁.now, w₁.now, newKey_of_fresh hfresh, hins, rfl, htables.trans hrotated,
    hname, hscopes⟩

/-- What a rotation that returns tells. -/
lemma rotateApiKey_eq_ok {input : RotateApiKeyInput}
    (h : (rotateApiKey input).run w = (.ok mat, v)) :
    (w.tables.serviceAccount input.organisationId input.saUserId).isSome = true ∧
      w.tables.HoldsKey input.saUserId input.oldKeyId ∧
      ∃ k now, NewKey input.saUserId input.actorUserId k ∧
        (w.tables.revokeActive input.oldKeyId now).Insertable k ∧ mat.key = k.toApiKey ∧
        v.tables = (w.tables.revokeActive input.oldKeyId now).addKey k ∧
        ∀ old ∈ w.tables.apiKeys, old.id = input.oldKeyId →
          k.name = input.name.getD old.name ∧ k.scopes = input.scopes.getD old.scopes := by
  obtain ⟨sa, w₁, hfind, h₁⟩ := Prog.bind_eq_ok h
  obtain ⟨rfl, rfl, -⟩ := query_eq_ok (Prog.mapErr_eq_ok hfind)
  obtain ⟨_, w₂, hrequire, h₂⟩ := Prog.bind_eq_ok h₁
  obtain ⟨hsome, rfl⟩ := require_eq_ok hrequire
  obtain ⟨found, w₃, hkey, h₃⟩ := Prog.bind_eq_ok h₂
  obtain ⟨rfl, rfl, -⟩ := query_eq_ok (Prog.mapErr_eq_ok hkey)
  cases hold : w.tick.tables.keyOf input.saUserId input.oldKeyId with
  | none =>
    rw [hold] at h₃
    cases h₃
  | some old =>
    rw [hold] at h₃
    obtain ⟨k, hk, hid, hsa, rfl⟩ := Tables.keyOf_eq_some hold
    obtain ⟨_, w₄, hscopes, h₄⟩ := Prog.bind_eq_ok h₃
    obtain ⟨-, rfl⟩ := require_eq_ok hscopes
    obtain ⟨new, now, hnew, hins, hmat, htables, hname, hscopes⟩ :=
      rotateApiKeyLoop_eq_ok (w := w.tick.tick) h₄
    refine ⟨hsome, ⟨k, hk, hid, hsa⟩, new, now, hnew, hins, hmat, htables, fun q hq hqid => ?_⟩
    obtain rfl := Tables.key_eq_of_id hk hq (hid.trans hqid.symm)
    exact ⟨hname, hscopes⟩

/-- The loop of a rotation that fails changes nothing. -/
lemma atomic_rotateApiKeyLoop {input : RotateApiKeyInput} {newName : String}
    {newScopes : Option (List String)} {attempts : ℕ} :
    Prog.Atomic World.tables (rotateApiKeyLoop input newName newScopes attempts) := by
  rw [rotateApiKeyLoop_eq]
  exact atomic_issueKey fun _ => atomic_transaction

/-- A rotation that fails changes nothing. -/
lemma atomic_rotateApiKey {input : RotateApiKeyInput} :
    Prog.Atomic World.tables (rotateApiKey input) := by
  refine Prog.Atomic.bind_right (reads_query fun _ => rfl).mapErr fun sa => ?_
  refine Prog.Atomic.bind_right reads_require fun _ => ?_
  refine Prog.Atomic.bind_right (reads_query fun _ => rfl).mapErr fun found => ?_
  cases found with
  | none => exact Prog.Atomic.of_reads Prog.Reads.fail
  | some old => exact Prog.Atomic.bind_right reads_require fun _ => atomic_rotateApiKeyLoop

end Draw

section Revoke
variable {w v : World} {input : RevokeApiKeyInput}

/-- The tables after an active key of a service account has been revoked. -/
def Tables.revokeOwn (t : Tables) (saUserId keyId : Uuid) (now : Timestamp) : Tables :=
  t.revokeKeys (fun k => k.id = keyId && k.serviceAccountUserId = saUserId && k.revokedAt = none) now

/-- What a revocation does to the tables. -/
lemma revokeApiKey_tables :
    ((revokeApiKey input).run w).2.tables = w.tables ∨
      (w.tables.serviceAccount input.organisationId input.saUserId).isSome = true ∧
      ((revokeApiKey input).run w).2.tables =
        w.tables.revokeOwn input.saUserId input.keyId w.now := by
  unfold revokeApiKey findServiceAccount
  rw [run_query_bind]
  split
  · rw [run_require_bind]
    split
    · rename_i hsome
      have hrest : ∀ revoked : Bool, Prog.Reads World.tables (do
          require revoked RevokeApiKeyError.keyNotFound
          record (fun s => .apiKeyRevoked s input.actorUserId input.actorOrgId input.saUserId
            input.organisationId input.keyId)) :=
        fun _ => Prog.Reads.bind reads_require fun _ => reads_tables_record
      rw [Prog.Reads.after_bind hrest, Prog.run_mapErr]
      cases hrun : (revokeKey input.saUserId input.keyId).run w.tick with
      | mk r u =>
        cases r with
        | ok revoked => exact Or.inr ⟨hsome, (revokeKey_eq_ok hrun).2⟩
        | error e => exact Or.inl (execute_eq_error hrun).2
    · exact Or.inl rfl
  · exact Or.inl rfl

end Revoke
end Egras
