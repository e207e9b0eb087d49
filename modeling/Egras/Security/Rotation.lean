import Egras.Lib.Interleave
import Egras.Security.Keys

/-!
# Rotations and revocations of API keys, step by step

The positions of `rotate_api_key` and `revoke_api_key`, with what one step of each does
(`rotateNext`, `revokeNext`). A step is one statement, one transaction, one fresh key drawn or one
audit event. `run_rotateNext` and `run_revokeNext` say that a step leads to what the source does
next.

`rotationSystem` lets any number of these calls on one service account interleave. The decisive step
of a rotation is its transaction. `KeyStep` lists what a step can do to the tables.
-/

namespace Egras
open Lib

/-! ## Rotation -/

/-- Where a rotation stands. -/
inductive RotatePos
  | findAccount
  | findKey
  | draw (attempts : ℕ) (name : String) (scopes : Option (List String))
  | store (attempts : ℕ) (name : String) (scopes : Option (List String)) (g : GeneratedKey)
      (row : NewApiKeyRow)
  | audit (mat : ApiKeyMaterial)
  | done (r : Except RotateApiKeyError ApiKeyMaterial)
deriving DecidableEq

section Rotate
variable [Argon2] [Base64] (input : RotateApiKeyInput)

/-- What a rotation does once it knows that the service account exists. -/
def rotateFound : Action RotateApiKeyError ApiKeyMaterial := do
  match ← (findKey input.saUserId input.oldKeyId).mapErr (fun _ => RotateApiKeyError.other) with
  | none => .fail .keyNotFound
  | some old =>
    require (input.scopes ≠ some (some [])) .emptyScopes
    rotateApiKeyLoop input (input.name.getD old.name) (input.scopes.getD old.scopes) 2

/-- What a rotation does once it has drawn a fresh key. -/
def rotateDrawn (attempts : ℕ) (name : String) (scopes : Option (List String)) (g : GeneratedKey)
    (row : NewApiKeyRow) : Action RotateApiKeyError ApiKeyMaterial := do
  match ← (rotateKey input.oldKeyId row).attempt with
  | .ok key =>
    record (fun s => .apiKeyRotated s input.actorUserId input.actorOrgId input.saUserId
      input.organisationId input.oldKeyId key.id)
    return ⟨key, g.plaintext⟩
  | .error .duplicatePrefix => rotateApiKeyLoop input name scopes attempts
  | .error (.other _) => .fail .other

/-- What is left of a rotation. -/
def rotateRest : RotatePos → Action RotateApiKeyError ApiKeyMaterial
  | .findAccount => rotateApiKey input
  | .findKey => rotateFound input
  | .draw attempts name scopes => rotateApiKeyLoop input name scopes attempts
  | .store attempts name scopes g row => rotateDrawn input attempts name scopes g row
  | .audit mat => do
    record (fun s => .apiKeyRotated s input.actorUserId input.actorOrgId input.saUserId
      input.organisationId input.oldKeyId mat.key.id)
    return mat
  | .done r => .ofExcept r

/-- One step of a rotation. -/
def rotateNext : RotatePos → World → Option (RotatePos × World)
  | .findAccount, w =>
    match (findServiceAccount input.organisationId input.saUserId).run w with
    | (.error _, w') => some (.done (.error .other), w')
    | (.ok none, w') => some (.done (.error .notFound), w')
    | (.ok (some _), w') => some (.findKey, w')
  | .findKey, w =>
    match (findKey input.saUserId input.oldKeyId).run w with
    | (.error _, w') => some (.done (.error .other), w')
    | (.ok none, w') => some (.done (.error .keyNotFound), w')
    | (.ok (some old), w') =>
      if input.scopes ≠ some (some []) then
        some (.draw 2 (input.name.getD old.name) (input.scopes.getD old.scopes), w')
      else some (.done (.error .emptyScopes), w')
  | .draw 0 _ _, w => some (.done (.error .prefixCollision), w)
  | .draw (attempts + 1) name scopes, w =>
    match (freshKeyRow input.saUserId name scopes input.actorUserId).run w with
    | (.error _, w') => some (.done (.error .other), w')
    | (.ok (g, row), w') => some (.store attempts name scopes g row, w')
  | .store attempts name scopes g row, w =>
    match (rotateKey input.oldKeyId row).run w with
    | (.ok key, w') => some (.audit ⟨key, g.plaintext⟩, w')
    | (.error .duplicatePrefix, w') => some (.draw attempts name scopes, w')
    | (.error (.other _), w') => some (.done (.error .other), w')
  | .audit mat, w =>
    some (.done (.ok mat), ((record (fun s => .apiKeyRotated s input.actorUserId input.actorOrgId
      input.saUserId input.organisationId input.oldKeyId mat.key.id) : Action Anyhow _).run w).2)
  | .done _, _ => none

variable {input}

/-- A step of a rotation leads to what the rotation does next. -/
theorem run_rotateNext {p q : RotatePos} {w w' : World} (h : rotateNext input p w = some (q, w')) :
    (rotateRest input p).run w = (rotateRest input q).run w' := by
  cases p with
  | findAccount =>
    simp only [rotateNext] at h
    simp only [rotateRest, rotateApiKey]
    rw [Prog.run_bind, Prog.run_mapErr]
    split at h
    · rename_i e w₁ hrun
      cases h
      rw [hrun]
      rfl
    · rename_i w₁ hrun
      cases h
      rw [hrun]
      rfl
    · rename_i sa w₁ hrun
      cases h
      rw [hrun]
      rfl
  | findKey =>
    simp only [rotateNext] at h
    simp only [rotateRest, rotateFound]
    rw [Prog.run_bind, Prog.run_mapErr]
    split at h
    · rename_i e w₁ hrun
      cases h
      rw [hrun]
      rfl
    · rename_i w₁ hrun
      cases h
      rw [hrun]
      rfl
    · rename_i old w₁ hrun
      rw [hrun]
      simp only [Except.mapError]
      rw [run_require_bind]
      split at h
      · rename_i hscopes
        cases h
        rw [if_pos (decide_eq_true hscopes)]
      · rename_i hscopes
        cases h
        rw [if_neg (by simpa using hscopes)]
        rfl
  | draw attempts name scopes =>
    cases attempts with
    | zero =>
      cases h
      rfl
    | succ attempts =>
      simp only [rotateNext] at h
      simp only [rotateRest, rotateApiKeyLoop]
      rw [Prog.run_bind, Prog.run_mapErr]
      split at h
      · rename_i e w₁ hrun
        cases h
        rw [hrun]
        rfl
      · rename_i g row w₁ hrun
        cases h
        rw [hrun]
        rfl
  | store attempts name scopes g row =>
    simp only [rotateNext] at h
    simp only [rotateRest, rotateDrawn]
    rw [Prog.run_bind, Prog.run_attempt]
    split at h
    · rename_i key w₁ hrun
      cases h
      rw [hrun]
    · rename_i w₁ hrun
      cases h
      rw [hrun]
    · rename_i e w₁ hrun
      cases h
      rw [hrun]
      rfl
  | audit mat =>
    cases h
    rfl
  | done r => cases h

end Rotate

/-! ## Revocation -/

/-- Where a revocation stands. -/
inductive RevokePos
  | findAccount
  | update
  | audit
  | done (r : Except RevokeApiKeyError Unit)
deriving DecidableEq

section Revoke
variable (input : RevokeApiKeyInput)

/-- What a revocation does once it knows that the service account exists. -/
def revokeFound : Action RevokeApiKeyError Unit := do
  let revoked ← (revokeKey input.saUserId input.keyId).mapErr (fun _ => RevokeApiKeyError.other)
  require revoked .keyNotFound
  record (fun s => .apiKeyRevoked s input.actorUserId input.actorOrgId input.saUserId
    input.organisationId input.keyId)

/-- What is left of a revocation. -/
def revokeRest : RevokePos → Action RevokeApiKeyError Unit
  | .findAccount => revokeApiKey input
  | .update => revokeFound input
  | .audit => record (fun s => .apiKeyRevoked s input.actorUserId input.actorOrgId input.saUserId
      input.organisationId input.keyId)
  | .done r => .ofExcept r

/-- One step of a revocation. -/
def revokeNext : RevokePos → World → Option (RevokePos × World)
  | .findAccount, w =>
    match (findServiceAccount input.organisationId input.saUserId).run w with
    | (.error _, w') => some (.done (.error .other), w')
    | (.ok none, w') => some (.done (.error .notFound), w')
    | (.ok (some _), w') => some (.update, w')
  | .update, w =>
    match (revokeKey input.saUserId input.keyId).run w with
    | (.error _, w') => some (.done (.error .other), w')
    | (.ok false, w') => some (.done (.error .keyNotFound), w')
    | (.ok true, w') => some (.audit, w')
  | .audit, w =>
    some (.done (.ok ()), ((record (fun s => .apiKeyRevoked s input.actorUserId input.actorOrgId
      input.saUserId input.organisationId input.keyId) : Action Anyhow _).run w).2)
  | .done _, _ => none

variable {input}

/-- A step of a revocation leads to what the revocation does next. -/
theorem run_revokeNext {p q : RevokePos} {w w' : World} (h : revokeNext input p w = some (q, w')) :
    (revokeRest input p).run w = (revokeRest input q).run w' := by
  cases p with
  | findAccount =>
    simp only [revokeNext] at h
    simp only [revokeRest, revokeApiKey]
    rw [Prog.run_bind, Prog.run_mapErr]
    split at h
    · rename_i e w₁ hrun
      cases h
      rw [hrun]
      rfl
    · rename_i w₁ hrun
      cases h
      rw [hrun]
      rfl
    · rename_i sa w₁ hrun
      cases h
      rw [hrun]
      rfl
  | update =>
    simp only [revokeNext] at h
    simp only [revokeRest, revokeFound]
    rw [Prog.run_bind, Prog.run_mapErr]
    split at h
    · rename_i e w₁ hrun
      cases h
      rw [hrun]
      rfl
    · rename_i w₁ hrun
      cases h
      rw [hrun]
      rfl
    · rename_i w₁ hrun
      cases h
      rw [hrun]
      rfl
  | audit =>
    cases h
    rfl
  | done r => cases h

end Revoke

/-! ## Calls -/

/-- Where a call on the keys of a service account stands. -/
inductive KeyPos
  | rotating (input : RotateApiKeyInput) (p : RotatePos)
  | revoking (input : RevokeApiKeyInput) (p : RevokePos)
deriving DecidableEq

namespace KeyPos

/-- The service account that a call is about. -/
def account : KeyPos → Uuid
  | .rotating input _ => input.saUserId
  | .revoking input _ => input.saUserId

/-- Where calls begin. -/
def starts : KeyPos → Bool
  | .rotating _ .findAccount => true
  | .revoking _ .findAccount => true
  | _ => false

/-- Where calls end. -/
def final : KeyPos → Bool
  | .rotating _ (.done _) => true
  | .revoking _ (.done _) => true
  | _ => false

/-- A rotation commits. -/
def decisive : KeyPos → KeyPos → Bool
  | .rotating _ (.store _ _ _ _ _), .rotating _ (.audit _) => true
  | _, _ => false

/-- The key that a rotation has found and has still to revoke. -/
def found : KeyPos → Option Uuid
  | .rotating input (.draw _ _ _) => some input.oldKeyId
  | .rotating input (.store _ _ _ _ _) => some input.oldKeyId
  | _ => none

/-- The row that a rotation is about to insert. -/
def drawn : KeyPos → Option NewApiKeyRow
  | .rotating _ (.store _ _ _ _ row) => some row
  | _ => none

/-- The key that a rotation has inserted in place of another one. -/
def rotated : KeyPos → Option (Uuid × ApiKeyMaterial)
  | .rotating input (.audit mat) => some (input.oldKeyId, mat)
  | .rotating input (.done (.ok mat)) => some (input.oldKeyId, mat)
  | _ => none

variable [Argon2] [Base64]

/-- One step of a call. -/
def next : KeyPos → World → Option (KeyPos × World)
  | .rotating input p, w => (rotateNext input p w).map (fun r => (.rotating input r.1, r.2))
  | .revoking input p, w => (revokeNext input p w).map (fun r => (.revoking input r.1, r.2))

/-- A call that can go on has not ended. -/
lemma final_of_next {p q : KeyPos} {w w' : World} (h : p.next w = some (q, w')) :
    p.final = false := by
  unfold final
  split
  · cases h
  · cases h
  · rfl

end KeyPos

/-- What happens besides the calls: anything that leaves the keys of the service account alone. -/
def KeepsKeysOf (saUserId : Uuid) (w w' : World) : Prop :=
  w'.tables.apiKeys.select (fun k => k.serviceAccountUserId = saUserId) =
    w.tables.apiKeys.select (fun k => k.serviceAccountUserId = saUserId)

/-- Rotations and revocations of the keys of a service account. -/
def rotationSystem (ι : Type) [Argon2] [Base64] (saUserId : Uuid) : System ι World KeyPos where
  starts p := p.starts && p.account = saUserId
  step _ p w q w' := p.next w = some (q, w')
  env := KeepsKeysOf saUserId
  decisive := KeyPos.decisive
  final := KeyPos.final
  stops h := KeyPos.final_of_next h

/-! ### What a step can do -/

/-- What a step can do, and what it brings its call. -/
inductive KeyStep : KeyPos → World → KeyPos → World → Prop
  | goes {p q : KeyPos} {w w' : World} (account : q.account = p.account)
      (found : ∀ id, q.found = some id → p.found = some id ∨ w.tables.HoldsKey p.account id)
      (drawn : ∀ row, q.drawn = some row → row.serviceAccountUserId = p.account)
      (rotated : q.rotated = p.rotated) (decisive : p.decisive q = false)
      (tables : w'.tables = w.tables) : KeyStep p w q w'
  | rotates {input : RotateApiKeyInput} {attempts : ℕ} {name : String}
      {scopes : Option (List String)} {g : GeneratedKey} {row : NewApiKeyRow} {w w' : World}
      (answered : w.answersAll 4 = true)
      (insertable : (w.tables.revokeActive input.oldKeyId w.now).Insertable (row.record w.now))
      (tables : w'.tables =
        (w.tables.revokeActive input.oldKeyId w.now).addKey (row.record w.now)) :
      KeyStep (.rotating input (.store attempts name scopes g row)) w
        (.rotating input (.audit ⟨(row.record w.now).toApiKey, g.plaintext⟩)) w'
  | revokes {input : RevokeApiKeyInput} {q : RevokePos} {w w' : World}
      (tables : w'.tables = w.tables.revokeKeys (fun k =>
        k.id = input.keyId && k.serviceAccountUserId = input.saUserId && k.revokedAt = none) w.now) :
      KeyStep (.revoking input .update) w (.revoking input q) w'

section KeyStep
variable {w w' : World}

/-- A step after which a rotation has neither found nor drawn nor stored a key. -/
lemma KeyStep.idle {p q : KeyPos} (account : q.account = p.account) (found : q.found = none)
    (drawn : q.drawn = none) (rotated : q.rotated = p.rotated) (decisive : p.decisive q = false)
    (tables : w'.tables = w.tables) : KeyStep p w q w' := by
  refine .goes account (fun id hid => ?_) (fun row hrow => ?_) rotated decisive tables
  · rw [found] at hid
    cases hid
  · rw [drawn] at hrow
    cases hrow

variable [Argon2] [Base64]

/-- A step of a rotation is one of the steps on the keys. -/
lemma keyStep_rotating {input : RotateApiKeyInput} {p q : RotatePos}
    (h : rotateNext input p w = some (q, w')) :
    KeyStep (.rotating input p) w (.rotating input q) w' := by
  cases p with
  | findAccount =>
    have hreads : Prog.Reads World.tables
        (findServiceAccount input.organisationId input.saUserId) := reads_query fun _ => rfl
    simp only [rotateNext] at h
    split at h
    all_goals
      rename_i hrun
      cases h
      exact .idle rfl rfl rfl rfl rfl (hreads.of_run hrun)
  | findKey =>
    have hreads : Prog.Reads World.tables (findKey input.saUserId input.oldKeyId) :=
      reads_query fun _ => rfl
    simp only [rotateNext] at h
    split at h
    · rename_i e w₁ hrun
      cases h
      exact .idle rfl rfl rfl rfl rfl (hreads.of_run hrun)
    · rename_i w₁ hrun
      cases h
      exact .idle rfl rfl rfl rfl rfl (hreads.of_run hrun)
    · rename_i old w₁ hrun
      split at h
      · cases h
        -- from here on the call knows that the key is one of the account
        refine .goes rfl (fun id hid => Or.inr ?_) (fun row hrow => nomatch hrow) rfl rfl
          (hreads.of_run hrun)
        obtain rfl : input.oldKeyId = id := Option.some.inj hid
        obtain ⟨k, hk, hkid, hsa, -⟩ := Tables.keyOf_eq_some (query_eq_ok hrun).1.symm
        exact ⟨k, hk, hkid, hsa⟩
      · cases h
        exact .idle rfl rfl rfl rfl rfl (hreads.of_run hrun)
  | draw attempts name scopes =>
    cases attempts with
    | zero =>
      cases h
      exact .idle rfl rfl rfl rfl rfl rfl
    | succ attempts =>
      simp only [rotateNext] at h
      split at h
      · rename_i e w₁ hrun
        cases h
        exact .idle rfl rfl rfl rfl rfl (reads_freshKeyRow.of_run hrun)
      · rename_i g row w₁ hrun
        cases h
        refine .goes rfl (fun id hid => Or.inl hid) (fun row' hrow => ?_) rfl rfl
          (reads_freshKeyRow.of_run hrun)
        obtain rfl : row = row' := Option.some.inj hrow
        exact (freshKeyRow_eq_ok hrun).2.1
  | store attempts name scopes g row =>
    simp only [rotateNext] at h
    split at h
    · rename_i key w₁ hrun
      cases h
      obtain ⟨hins, rfl, htables, hanswers⟩ := rotateKey_eq_ok hrun
      exact .rotates hanswers hins htables
    · rename_i w₁ hrun
      cases h
      -- the prefix is taken: the transaction is undone and another row is drawn
      exact .goes rfl (fun id hid => Or.inl hid) (fun row hrow => nomatch hrow) rfl rfl
        (transaction_rolls_back hrun)
    · rename_i e w₁ hrun
      cases h
      exact .idle rfl rfl rfl rfl rfl (transaction_rolls_back hrun)
  | audit mat =>
    cases h
    exact .idle rfl rfl rfl rfl rfl rfl
  | done r => cases h

omit [Argon2] [Base64] in
/-- A step of a revocation is one of the steps on the keys. -/
lemma keyStep_revoking {input : RevokeApiKeyInput} {p q : RevokePos}
    (h : revokeNext input p w = some (q, w')) :
    KeyStep (.revoking input p) w (.revoking input q) w' := by
  cases p with
  | findAccount =>
    have hreads : Prog.Reads World.tables
        (findServiceAccount input.organisationId input.saUserId) := reads_query fun _ => rfl
    simp only [revokeNext] at h
    split at h
    all_goals
      rename_i hrun
      cases h
      exact .idle rfl rfl rfl rfl rfl (hreads.of_run hrun)
  | update =>
    simp only [revokeNext] at h
    split at h
    · rename_i e w₁ hrun
      cases h
      exact .idle rfl rfl rfl rfl rfl (execute_eq_error hrun).2
    · rename_i w₁ hrun
      cases h
      exact .revokes (revokeKey_eq_ok hrun).2
    · rename_i w₁ hrun
      cases h
      exact .revokes (revokeKey_eq_ok hrun).2
  | audit =>
    cases h
    exact .idle rfl rfl rfl rfl rfl rfl
  | done r => cases h

/-- What one step of a call does, whichever call it is. -/
lemma keyStep_of_next {p q : KeyPos} (h : p.next w = some (q, w')) : KeyStep p w q w' := by
  cases p with
  | rotating input p =>
    obtain ⟨⟨q, w₁⟩, hnext, heq⟩ := Option.map_eq_some_iff.mp h
    cases heq
    exact keyStep_rotating hnext
  | revoking input p =>
    obtain ⟨⟨q, w₁⟩, hnext, heq⟩ := Option.map_eq_some_iff.mp h
    cases heq
    exact keyStep_revoking hnext

end KeyStep
end Egras
