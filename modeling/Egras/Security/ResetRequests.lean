import Egras.Security.Stepwise

/-!
# Password reset requests, step by step

The positions of `password_reset_request` with what one step does (`requestNext`): a step is one
statement, the drawing of a token or the audit event, as the repository counts, makes room and
inserts in three statements of their own. `run_requestNext` says that a step leads to what the source
does next.

`tokenSystem` lets any number of requests and redemptions interleave while the clock advances. The
decisive steps of a request are its count, its making room and its insertion. `TokenStep` lists what
a step can do to the tokens.
-/

namespace Egras
open Lib

/-- Where a request for a reset token stands. -/
inductive RequestPos
  | find
  | draw (user : User)
  | count (userId : Uuid) (tokenHash : String) (expiresAt : Timestamp)
  | evict (userId : Uuid) (tokenHash : String) (expiresAt : Timestamp)
  | insert (userId : Uuid) (tokenHash : String) (expiresAt : Timestamp)
  | audit (userId : Uuid)
  | done (userId : Option Uuid) (r : Except Anyhow Unit)
deriving DecidableEq

/-- The token that an insertion stores. -/
def newToken (w : World) (userId : Uuid) (tokenHash : String) (expiresAt : Timestamp) :
    PasswordResetToken :=
  ⟨w.uuids.headD 0, userId, tokenHash, expiresAt, none, w.now⟩

/-- What an insertion of a token does once there is room. -/
def storeToken (userId : Uuid) (tokenHash : String) (expiresAt : Timestamp) :
    Action SqlError PasswordResetToken := do
  let id ← nowV7
  execute (fun w => do
    let p : PasswordResetToken := ⟨id, userId, tokenHash, expiresAt, none, w.now⟩
    let t ← w.tables.insertPasswordResetToken p
    return (p, t))

/-- What an insertion of a token does once it has counted. -/
def makeRoom (pending : ℕ) (userId : Uuid) (tokenHash : String) (expiresAt : Timestamp) :
    Action SqlError PasswordResetToken := do
  if maxPendingTokensPerUser ≤ pending then
    execute (fun w => .ok ((), w.tables.dropOldestPending userId w.now))
  else .ret ()
  storeToken userId tokenHash expiresAt

section Request
variable [Sha256] (ttlSecs : Int) (input : PasswordResetRequestInput)

/-- What is left of a request. -/
def requestRest : RequestPos → Action Anyhow Unit
  | .find => passwordResetRequest ttlSecs input
  | .draw user => do
    let rawBytes ← randomBytes 32
    let now ← utcNow
    let _ ← (insertToken user.id (tokenHashOf rawBytes) (now + ttlSecs * 1000000)).mapErr
      (fun _ => Anyhow.mk)
    record (fun s => .passwordResetRequested s input.email)
  | .count userId tokenHash expiresAt => do
    let _ ← (insertToken userId tokenHash expiresAt).mapErr (fun _ => Anyhow.mk)
    record (fun s => .passwordResetRequested s input.email)
  | .evict userId tokenHash expiresAt => do
    let _ ← (makeRoom maxPendingTokensPerUser userId tokenHash expiresAt).mapErr
      (fun _ => Anyhow.mk)
    record (fun s => .passwordResetRequested s input.email)
  | .insert userId tokenHash expiresAt => do
    let _ ← (storeToken userId tokenHash expiresAt).mapErr (fun _ => Anyhow.mk)
    record (fun s => .passwordResetRequested s input.email)
  | .audit _ => record (fun s => .passwordResetRequested s input.email)
  | .done _ r => .ofExcept r

/-- One step of a request. -/
def requestNext : RequestPos → World → Option (RequestPos × World)
  | .find, w =>
    match (findByUsernameOrEmail input.email).run w with
    | (.error _, w') => some (.done none (.error Anyhow.mk), w')
    | (.ok none, w') => some (.done none (.ok ()), w')
    | (.ok (some user), w') => some (.draw user, w')
  | .draw user, w =>
    some (.count user.id (tokenHashOf ((w.random.headD []).takeD 32 0)) (w.now + ttlSecs * 1000000),
      { w with random := w.random.tail })
  | .count userId tokenHash expiresAt, w =>
    match (countPendingForUser userId).run w with
    | (.error _, w') => some (.done none (.error Anyhow.mk), w')
    | (.ok pending, w') =>
      if maxPendingTokensPerUser ≤ pending then some (.evict userId tokenHash expiresAt, w')
      else some (.insert userId tokenHash expiresAt, w')
  | .evict userId tokenHash expiresAt, w =>
    match (execute (fun w => .ok ((), w.tables.dropOldestPending userId w.now))).run w with
    | (.error _, w') => some (.done none (.error Anyhow.mk), w')
    | (.ok _, w') => some (.insert userId tokenHash expiresAt, w')
  | .insert userId tokenHash expiresAt, w =>
    match (storeToken userId tokenHash expiresAt).run w with
    | (.error _, w') => some (.done none (.error Anyhow.mk), w')
    | (.ok _, w') => some (.audit userId, w')
  | .audit userId, w =>
    some (.done (some userId) (.ok ()),
      ((record (fun s => .passwordResetRequested s input.email) : Action Anyhow _).run w).2)
  | .done _ _, _ => none

variable {ttlSecs input}

omit [Sha256] in
/-- A token is inserted after the pending ones have been counted. -/
lemma insertToken_eq {userId : Uuid} {tokenHash : String} {expiresAt : Timestamp} :
    insertToken userId tokenHash expiresAt =
      (countPendingForUser userId >>= fun pending =>
        makeRoom pending userId tokenHash expiresAt) := rfl

/-- A step of a request leads to what the request does next. -/
theorem run_requestNext {p q : RequestPos} {w w' : World}
    (h : requestNext ttlSecs input p w = some (q, w')) :
    (requestRest ttlSecs input p).run w = (requestRest ttlSecs input q).run w' := by
  cases p with
  | find =>
    simp only [requestNext] at h
    simp only [requestRest, passwordResetRequest]
    rw [Prog.run_bind, Prog.run_mapErr]
    split at h
    · rename_i e w₁ hrun
      cases h
      rw [hrun]
      rfl
    · rename_i w₁ hrun
      cases h
      rw [hrun]
      rfl
    · rename_i user w₁ hrun
      cases h
      rw [hrun]
      rfl
  | draw user =>
    cases h
    rfl
  | count userId tokenHash expiresAt =>
    simp only [requestNext] at h
    simp only [requestRest, insertToken_eq]
    rw [Prog.run_bind, Prog.run_mapErr, Prog.run_bind]
    split at h
    · rename_i e w₁ hrun
      cases h
      rw [hrun]
      rfl
    · rename_i pending w₁ hrun
      rw [hrun]
      dsimp only
      split at h
      · rename_i hfull
        cases h
        dsimp only
        rw [Prog.run_bind, Prog.run_mapErr]
        unfold makeRoom
        rw [if_pos hfull, if_pos (le_refl _)]
      · rename_i hroom
        cases h
        dsimp only
        rw [Prog.run_bind, Prog.run_mapErr]
        unfold makeRoom
        rw [if_neg hroom]
        rfl
  | evict userId tokenHash expiresAt =>
    simp only [requestNext] at h
    simp only [requestRest, makeRoom, if_pos (le_refl _)]
    rw [Prog.run_bind, Prog.run_mapErr, Prog.run_bind]
    split at h
    · rename_i e w₁ hrun
      cases h
      rw [hrun]
      rfl
    · rename_i a w₁ hrun
      cases h
      rw [hrun]
      dsimp only
      rw [Prog.run_bind, Prog.run_mapErr]
  | insert userId tokenHash expiresAt =>
    simp only [requestNext] at h
    simp only [requestRest]
    rw [Prog.run_bind, Prog.run_mapErr]
    split at h
    · rename_i e w₁ hrun
      cases h
      rw [hrun]
      rfl
    · rename_i p w₁ hrun
      cases h
      rw [hrun]
      rfl
  | audit userId =>
    cases h
    rfl
  | done userId r => cases h

end Request

/-! ## Calls that interleave -/

/-- Where a request for a reset token or a redemption of one stands. -/
inductive TokenPos
  | requesting (ttlSecs : Int) (input : PasswordResetRequestInput) (p : RequestPos)
  | redeeming (input : PasswordResetConfirmInput) (p : ResetPos)
deriving DecidableEq

namespace TokenPos

/-- Where calls begin. -/
def starts : TokenPos → Bool
  | requesting _ _ .find => true
  | redeeming _ .find => true
  | _ => false

/-- Where calls end. -/
def final : TokenPos → Bool
  | requesting _ _ (.done _ _) => true
  | redeeming _ (.done _ _) => true
  | _ => false

/-- A request is about to store a token of a user. -/
def inserts : TokenPos → Option Uuid
  | requesting _ _ (.insert userId _ _) => some userId
  | _ => none

/-- A request has stored a token of a user. -/
def stored : TokenPos → Option Uuid
  | requesting _ _ (.audit userId) => some userId
  | requesting _ _ (.done userId _) => userId
  | _ => none

/-- A request has counted, made room or stored its token. -/
def decisive : TokenPos → TokenPos → Bool
  | requesting _ _ (.count _ _ _), requesting _ _ (.evict _ _ _) => true
  | requesting _ _ (.count _ _ _), requesting _ _ (.insert _ _ _) => true
  | requesting _ _ (.evict _ _ _), requesting _ _ (.insert _ _ _) => true
  | requesting _ _ (.insert _ _ _), requesting _ _ (.audit _) => true
  | _, _ => false

/-- A call that begins is not about to insert. -/
lemma inserts_of_starts {p : TokenPos} (h : p.starts = true) : p.inserts = none := by
  unfold starts at h
  split at h
  · rfl
  · rfl
  · cases h

variable [Argon2] [Sha256]

/-- One step of a call. -/
def next : TokenPos → World → Option (TokenPos × World)
  | requesting ttlSecs input p, w =>
    (requestNext ttlSecs input p w).map (fun r => (requesting ttlSecs input r.1, r.2))
  | redeeming input p, w => (resetNext input p w).map (fun r => (redeeming input r.1, r.2))

/-- A call that can go on has not ended. -/
lemma final_of_next {p q : TokenPos} {w w' : World} (h : p.next w = some (q, w')) :
    p.final = false := by
  unfold final
  split
  · cases h
  · cases h
  · rfl

end TokenPos

/-- What happens besides the calls: the clock advances, and anything that leaves the reset tokens
alone. -/
structure Advances (w w' : World) : Prop where
  tokens : w'.tables.passwordResetTokens = w.tables.passwordResetTokens
  now : w.now ≤ w'.now

/-- Requests for reset tokens and redemptions of them. -/
def tokenSystem (ι : Type) [Argon2] [Sha256] : System ι World TokenPos where
  starts := TokenPos.starts
  step _ p w q w' := p.next w = some (q, w')
  env := Advances
  decisive := TokenPos.decisive
  final := TokenPos.final
  stops h := TokenPos.final_of_next h

/-! ### What a step can do -/

section Steps
variable [Argon2] [Sha256]

/-- What one step of a call does to the reset tokens, at an instant. -/
inductive TokenStep : TokenPos → World → TokenPos → World → Prop
  | counts {ttlSecs input userId tokenHash expiresAt} {w w' : World}
      (room : (w.tables.pendingTokens userId w.now).length < maxPendingTokensPerUser)
      (tables : w'.tables = w.tables) :
      TokenStep (.requesting ttlSecs input (.count userId tokenHash expiresAt)) w
        (.requesting ttlSecs input (.insert userId tokenHash expiresAt)) w'
  | evicts {ttlSecs input userId tokenHash expiresAt} {w w' : World}
      (tables : w'.tables = w.tables.dropOldestPending userId w.now) :
      TokenStep (.requesting ttlSecs input (.evict userId tokenHash expiresAt)) w
        (.requesting ttlSecs input (.insert userId tokenHash expiresAt)) w'
  | stores {ttlSecs input userId tokenHash expiresAt} {w w' : World} (answered : w.answers = true)
      (accepted : w.tables.insertPasswordResetToken (newToken w userId tokenHash expiresAt) =
        .ok w'.tables) :
      TokenStep (.requesting ttlSecs input (.insert userId tokenHash expiresAt)) w
        (.requesting ttlSecs input (.audit userId)) w'
  | consumes {input token} {w w' : World}
      (tables : w'.tables = { w.tables with
        passwordResetTokens := w.tables.passwordResetTokens.updateWhere (fun p => p.id = token.id)
          (fun p => { p with usedAt := some w.now }) (consumeToken_id w.now) }) :
      TokenStep (.redeeming input (.consume token)) w (.redeeming input (.audit token)) w'
  | goes {p q} {w w' : World} (inserts : q.inserts = none)
      (stored : ∀ userId, q.stored = some userId → p.stored = some userId)
      (decisive : q.stored.isSome = true → p.decisive q = false)
      (tokens : w'.tables.passwordResetTokens = w.tables.passwordResetTokens) : TokenStep p w q w'

variable {w w' : World}

omit [Argon2] in
/-- A step of a request is one of the steps on the tokens. -/
lemma tokenStep_requesting {ttlSecs : Int} {input : PasswordResetRequestInput} {p q : RequestPos}
    (h : requestNext ttlSecs input p w = some (q, w')) :
    TokenStep (.requesting ttlSecs input p) w (.requesting ttlSecs input q) w' := by
  cases p with
  | find =>
    have hreads : Prog.Reads World.tables (findByUsernameOrEmail input.email) :=
      reads_query fun _ => rfl
    simp only [requestNext] at h
    split at h
    all_goals
      rename_i hrun
      cases h
      exact .goes rfl (fun _ h => nomatch h) (fun _ => rfl) (by rw [hreads.of_run hrun])
  | draw user =>
    cases h
    exact .goes rfl (fun _ h => nomatch h) (fun _ => rfl) rfl
  | count userId tokenHash expiresAt =>
    have hreads : Prog.Reads World.tables (countPendingForUser userId) := reads_query fun _ => rfl
    simp only [requestNext] at h
    split at h
    · rename_i e w₁ hrun
      cases h
      exact .goes rfl (fun _ h => nomatch h) (fun _ => rfl) (by rw [hreads.of_run hrun])
    · rename_i pending w₁ hrun
      split at h
      · cases h
        exact .goes rfl (fun _ h => nomatch h) (fun h => nomatch h) (by rw [hreads.of_run hrun])
      · rename_i hroom
        cases h
        obtain ⟨rfl, -, -⟩ := query_eq_ok hrun
        exact .counts (not_le.mp hroom) (hreads.of_run hrun)
  | evict userId tokenHash expiresAt =>
    simp only [requestNext] at h
    split at h
    · rename_i e w₁ hrun
      cases h
      exact .goes rfl (fun _ h => nomatch h) (fun _ => rfl) (by rw [(execute_eq_error hrun).2])
    · rename_i a w₁ hrun
      cases h
      obtain ⟨t, heffect, rfl, -⟩ := execute_eq_ok hrun
      cases heffect
      exact .evicts rfl
  | insert userId tokenHash expiresAt =>
    simp only [requestNext] at h
    split at h
    · rename_i e w₁ hrun
      cases h
      have hatomic : Prog.Atomic World.tables (storeToken userId tokenHash expiresAt) :=
        Prog.Atomic.bind_right (reads_nowV7 fun _ _ => rfl) fun _ => atomic_execute
      exact .goes rfl (fun _ h => nomatch h) (fun _ => rfl) (by rw [hatomic _ _ _ hrun])
    · rename_i p w₁ hrun
      cases h
      obtain ⟨id, w₂, hid, hinsert⟩ := Prog.bind_eq_ok hrun
      obtain ⟨rfl, rfl⟩ := nowV7_eq_ok hid
      obtain ⟨t, heffect, rfl, hanswers⟩ := execute_eq_ok hinsert
      exact .stores hanswers (return_eq_ok.mp heffect).1
  | audit userId =>
    cases h
    exact .goes rfl (fun _ h => h) (fun _ => rfl) rfl
  | done userId r => cases h

/-- A step of a redemption is one of the steps on the tokens. -/
lemma tokenStep_redeeming {input : PasswordResetConfirmInput} {p q : ResetPos}
    (h : resetNext input p w = some (q, w')) :
    TokenStep (.redeeming input p) w (.redeeming input q) w' := by
  generalize hp : CredentialPos.resetting input p = b
  generalize hq : CredentialPos.resetting input q = c
  have hproceeds := proceeds_resetting h
  rw [hp, hq] at hproceeds
  have hgoes : w'.tables.passwordResetTokens = w.tables.passwordResetTokens →
      TokenStep (.redeeming input p) w (.redeeming input q) w' :=
    fun htokens => .goes rfl (fun _ h => nomatch h) (fun _ => rfl) htokens
  cases hproceeds with
  | rehashes => cases hp
  | changes => cases hp
  | finds presented found tables => exact hgoes (by rw [tables])
  | resets answered tables => exact hgoes (by rw [tables]; rfl)
  | consumes answered tables =>
    cases hp
    cases hq
    exact .consumes tables
  | fails unanswered tables => exact hgoes (by rw [tables])
  | hashes hashed pending continues tables => exact hgoes (by rw [tables])
  | goes idle continues tables => exact hgoes (by rw [tables])

/-- Every step of a call is one of the steps on the tokens. -/
lemma tokenStep_of_next {p q : TokenPos} (h : p.next w = some (q, w')) : TokenStep p w q w' := by
  cases p with
  | requesting ttlSecs input p =>
    obtain ⟨⟨q', w₁⟩, hnext, heq⟩ := Option.map_eq_some_iff.mp h
    cases heq
    exact tokenStep_requesting hnext
  | redeeming input p =>
    obtain ⟨⟨q', w₁⟩, hnext, heq⟩ := Option.map_eq_some_iff.mp h
    cases heq
    exact tokenStep_redeeming hnext

/-- What a call that is about to store a token did in its last step: it found room or made some. -/
lemma TokenPos.room_of_next {p q : TokenPos} {userId : Uuid} (h : p.next w = some (q, w'))
    (hq : q.inserts = some userId) : p.decisive q = true ∧
      ((w.tables.pendingTokens userId w.now).length < maxPendingTokensPerUser ∧
        w'.tables = w.tables ∨ w'.tables = w.tables.dropOldestPending userId w.now) := by
  cases tokenStep_of_next h with
  | counts room tables =>
    cases hq
    exact ⟨rfl, Or.inl ⟨room, tables⟩⟩
  | evicts tables =>
    cases hq
    exact ⟨rfl, Or.inr tables⟩
  | stores answered accepted => cases hq
  | consumes tables => cases hq
  | goes inserts stored decisive tokens =>
    rw [inserts] at hq
    cases hq

/-- A request that has stored its token goes on to its end. -/
lemma TokenPos.stored_of_next {p q : TokenPos} {userId : Uuid} (h : p.next w = some (q, w'))
    (hp : p.stored = some userId) : q.stored = some userId ∧ p.decisive q = false := by
  unfold TokenPos.stored at hp
  split at hp
  · cases hp
    simp only [TokenPos.next, requestNext, Option.map_some, Option.some.injEq, Prod.mk.injEq] at h
    obtain ⟨rfl, -⟩ := h
    exact ⟨rfl, rfl⟩
  · cases h
  · cases hp

end Steps

/-! ### The clock -/

section Clock

variable [Argon2]

variable [Sha256] {w w' : World}

omit [Argon2] in
/-- A step of a request takes no time. -/
lemma now_requestNext {ttlSecs : Int} {input : PasswordResetRequestInput} {p q : RequestPos}
    (h : requestNext ttlSecs input p w = some (q, w')) : w'.now = w.now := by
  cases p with
  | find =>
    have hreads : Prog.Reads World.now (findByUsernameOrEmail input.email) := reads_execute_aside
    simp only [requestNext] at h
    split at h
    all_goals
      rename_i hrun
      cases h
      exact hreads.of_run hrun
  | draw user =>
    cases h
    rfl
  | count userId tokenHash expiresAt =>
    have hreads : Prog.Reads World.now (countPendingForUser userId) := reads_execute_aside
    simp only [requestNext] at h
    split at h
    · rename_i hrun
      cases h
      exact hreads.of_run hrun
    · rename_i hrun
      split at h
      all_goals
        cases h
        exact hreads.of_run hrun
  | evict userId tokenHash expiresAt =>
    simp only [requestNext] at h
    split at h
    all_goals
      rename_i hrun
      cases h
      exact reads_execute_aside.of_run hrun
  | insert userId tokenHash expiresAt =>
    have hreads : Prog.Reads World.now (storeToken userId tokenHash expiresAt) :=
      Prog.Reads.bind (reads_nowV7 fun _ _ => rfl) fun _ => reads_execute_aside
    simp only [requestNext] at h
    split at h
    all_goals
      rename_i hrun
      cases h
      exact hreads.of_run hrun
  | audit userId =>
    cases h
    rfl
  | done userId r => cases h

/-- A step of a redemption takes no time. -/
lemma now_resetNext {input : PasswordResetConfirmInput} {p q : ResetPos}
    (h : resetNext input p w = some (q, w')) : w'.now = w.now := by
  cases p with
  | find =>
    simp only [resetNext] at h
    split at h
    · split at h
      · cases h
        rfl
      · rename_i tokenHash hpresented
        have hreads : Prog.Reads World.now (findValid tokenHash) := reads_execute_aside
        split at h
        all_goals
          rename_i hrun
          cases h
          exact hreads.of_run hrun
    · cases h
      rfl
  | refuse =>
    cases h
    rfl
  | hash token =>
    simp only [resetNext] at h
    split at h
    all_goals
      rename_i hrun
      cases h
      exact reads_hashPassword.of_run hrun
  | update token newHash =>
    have hreads : Prog.Reads World.now (updatePasswordHash token.userId newHash) :=
      reads_execute_aside
    simp only [resetNext] at h
    split at h
    all_goals
      rename_i hrun
      cases h
      exact hreads.of_run hrun
  | consume token =>
    have hreads : Prog.Reads World.now (consume token.id) := reads_execute_aside
    simp only [resetNext] at h
    split at h
    all_goals
      rename_i hrun
      cases h
      exact hreads.of_run hrun
  | audit token =>
    cases h
    rfl
  | done token r => cases h

/-- The clock stands still during a step of a call. -/
lemma now_of_next {p q : TokenPos} (h : p.next w = some (q, w')) : w'.now = w.now := by
  cases p with
  | requesting ttlSecs input p =>
    obtain ⟨⟨q', w₁⟩, hnext, heq⟩ := Option.map_eq_some_iff.mp h
    cases heq
    exact now_requestNext hnext
  | redeeming input p =>
    obtain ⟨⟨q', w₁⟩, hnext, heq⟩ := Option.map_eq_some_iff.mp h
    cases heq
    exact now_resetNext hnext

end Clock
end Egras
