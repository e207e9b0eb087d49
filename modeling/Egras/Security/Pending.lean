import Egras.Security.ResetRequests

/-!
# Whether pending reset tokens are capped

A request for a reset token counts the pending tokens of the user, makes room when there are three,
and inserts its own, in three statements. Requests that overlap may all count before any of them
inserts, so that the room that one has found is taken by another (`Overfills`). A user with at most
three pending tokens never gets more exactly in the runs in which no request inserts a fourth one on
such a count (`pending_capped_iff`).
-/

namespace Egras
open Lib

/-! ## Pending tokens -/

namespace Tables
variable {t t' : Tables} {userId : Uuid} {now now' : Timestamp} {p : PasswordResetToken}

/-- How many reset tokens of a user are pending. -/
def pending (t : Tables) (userId : Uuid) (now : Timestamp) : ℕ := (t.pendingTokens userId now).length

/-- The same tokens are pending. -/
lemma pending_of_tokens (h : t'.passwordResetTokens = t.passwordResetTokens) :
    t'.pending userId now = t.pending userId now := by
  unfold pending pendingTokens
  rw [h]

/-- Tokens expire as the clock advances, and no token becomes pending by it. -/
lemma pending_advances (h : now ≤ now') : t.pending userId now' ≤ t.pending userId now := by
  refine List.Sublist.length_le (List.monotone_filter_right _ fun p hp => ?_)
  simp only [Bool.and_eq_true, decide_eq_true_eq] at hp ⊢
  exact ⟨hp.1, h.trans_lt hp.2⟩

/-- Marking tokens as used leaves no more of them pending. -/
lemma pending_consume {id : Uuid} : ({ t with
      passwordResetTokens := t.passwordResetTokens.updateWhere (fun p => p.id = id)
        (fun p => { p with usedAt := some now' }) (consumeToken_id now') } : Tables).pending userId now ≤
    t.pending userId now := by
  have hselect := @Table.select_updateWhere _ _ _ t.passwordResetTokens (fun p => p.id = id)
    (fun p => p.userId = userId && p.usedAt = none && now < p.expiresAt) _ (consumeToken_id now')
    fun _ _ _ => by simp
  refine (congrArg List.length hselect).le.trans ?_
  refine List.Sublist.length_le (List.monotone_filter_right _ fun p hp => ?_)
  exact ((Bool.and_eq_true _ _).mp hp).1

/-- The pending tokens after the oldest one has been deleted. -/
lemma pendingTokens_dropOldest {owner : Uuid} :
    (t.dropOldestPending owner now').pendingTokens userId now =
      (t.pendingTokens userId now).filter (fun p =>
        !(t.oldestPending owner now').any (fun oldest => p.id = oldest.id)) :=
  Table.select_deleteWhere

/-- Deletions leave no more tokens pending. -/
lemma pending_dropOldest_le {owner : Uuid} :
    (t.dropOldestPending owner now').pending userId now ≤ t.pending userId now := by
  unfold pending
  rw [pendingTokens_dropOldest]
  exact List.length_filter_le _ _

/-- The oldest pending token is one of them. -/
lemma oldestPending_mem (h : t.pendingTokens userId now ≠ []) :
    ∃ oldest ∈ t.pendingTokens userId now, t.oldestPending userId now = some oldest := by
  unfold oldestPending
  cases hsorted : (t.pendingTokens userId now).insertionSort (fun a b => a.createdAt ≤ b.createdAt) with
  | nil =>
    have hlength := (List.perm_insertionSort (fun a b : PasswordResetToken =>
      a.createdAt ≤ b.createdAt) (t.pendingTokens userId now)).length_eq
    rw [hsorted] at hlength
    exact absurd (List.length_eq_zero_iff.mp hlength.symm) h
  | cons oldest rest =>
    refine ⟨oldest, ?_, rfl⟩
    have hmem : oldest ∈ (t.pendingTokens userId now).insertionSort
        (fun a b => a.createdAt ≤ b.createdAt) := by
      rw [hsorted]
      exact List.mem_cons_self
    exact (List.mem_insertionSort _).mp hmem

/-- Deleting the oldest pending token makes room when there are any. -/
lemma pending_dropOldest : (t.dropOldestPending userId now).pending userId now ≤
    t.pending userId now - 1 := by
  unfold pending
  rw [pendingTokens_dropOldest]
  by_cases hnone : t.pendingTokens userId now = []
  · simp [hnone]
  · obtain ⟨oldest, hmem, hfound⟩ := oldestPending_mem hnone
    rw [hfound]
    have hless : ((t.pendingTokens userId now).filter (fun p =>
        !(some oldest).any (fun o => p.id = o.id))).length <
        (t.pendingTokens userId now).length :=
      List.length_filter_lt_length_iff_exists.mpr ⟨oldest, hmem, by simp⟩
    omega

/-- A token that is stored is pending when it is the user's and has not expired. -/
lemma pending_insert (h : t.insertPasswordResetToken p = .ok t') (hunused : p.usedAt = none) :
    t'.pending userId now = t.pending userId now +
      if p.userId = userId ∧ now < p.expiresAt then 1 else 0 := by
  obtain ⟨rows, hrows, rfl⟩ := insertPasswordResetToken_eq_ok h
  unfold pending pendingTokens Table.select
  rw [(Table.insert?_eq_some hrows).2, List.filter_append, List.length_append]
  by_cases hp : p.userId = userId ∧ now < p.expiresAt
  · simp [hp, hunused]
  · rw [if_neg hp]
    simpa [hunused] using hp

end Tables

/-! ## Runs -/

section
variable {ι : Type}

/-- Another request has stored a token of the user since the call counted or made room. -/
def Overtaken (P : Pool ι World TokenPos) (userId : Uuid) (c : Call TokenPos) : Prop :=
  ∃ j d n m, P.calls j = some d ∧ d.pos.stored = some userId ∧ c.mark = some n ∧ d.mark = some m ∧
    n < m

/-- A request is about to store an unexpired token of a user who has three pending ones, as another
request has stored one since it counted or made room. -/
def Overfills (P : Pool ι World TokenPos) (userId : Uuid) (i : ι) : Prop :=
  ∃ c ttlSecs input tokenHash expiresAt, P.calls i = some c ∧
    c.pos = .requesting ttlSecs input (.insert userId tokenHash expiresAt) ∧
    P.state.answers = true ∧ P.state.now < expiresAt ∧
    (∃ t, P.state.tables.insertPasswordResetToken
      (newToken P.state userId tokenHash expiresAt) = .ok t) ∧
    maxPendingTokensPerUser ≤ P.state.tables.pending userId P.state.now ∧ Overtaken P userId c

/-- The invariant of the runs in which no request overfills. -/
structure Capped (ι : Type) [Argon2] [Sha256] (userId : Uuid) (P : Pool ι World TokenPos) : Prop where
  pending : P.state.tables.pending userId P.state.now ≤ maxPendingTokensPerUser
  timely : ∀ i c, P.calls i = some c → Pool.Timely (tokenSystem ι) P c
  marked : ∀ i c, P.calls i = some c → c.pos.inserts.isSome = true → c.mark.isSome = true
  room : ∀ i c, P.calls i = some c → c.pos.inserts = some userId →
    P.state.tables.pending userId P.state.now < maxPendingTokensPerUser ∨ Overtaken P userId c

variable [Argon2] [Sha256] {userId : Uuid} {P Q : Pool ι World TokenPos} {turn : Turn ι}

/-- Without calls the cap is the one on the tokens. -/
lemma capped_idle {w : World} (h : w.tables.pending userId w.now ≤ maxPendingTokensPerUser) :
    Capped ι userId (Pool.idle ι TokenPos w) :=
  ⟨h, Pool.timely_idle, fun _ _ hc => (nomatch hc), fun _ _ hc => (nomatch hc)⟩

variable [DecidableEq ι]

/-- A step of the requests and redemptions. -/
abbrev PendingStep (ι : Type) [DecidableEq ι] := Pool.Step (tokenSystem ι)

/-- A request stores an unexpired token of the user in a step. -/
structure StoresToken (P Q : Pool ι World TokenPos) (userId : Uuid) (i : ι) (b c : Call TokenPos)
    (expiresAt : Timestamp) : Prop where
  there : P.calls i = some b
  here : Q.calls i = some c
  inserts : ∃ ttlSecs input tokenHash,
    b.pos = .requesting ttlSecs input (.insert userId tokenHash expiresAt) ∧
    ∃ t, P.state.tables.insertPasswordResetToken
      (newToken P.state userId tokenHash expiresAt) = .ok t
  answered : P.state.answers = true
  unexpired : P.state.now < expiresAt
  stored : c.pos.stored = some userId
  mark : c.mark = some (P.time + 1)
  pending : Q.state.tables.pending userId Q.state.now =
    P.state.tables.pending userId P.state.now + 1

/-- A step leaves no more tokens of a user pending, or it is one that stores one. -/
lemma pending_of_step (h : PendingStep ι P turn Q) :
    Q.state.tables.pending userId Q.state.now ≤ P.state.tables.pending userId P.state.now ∨
      ∃ i b c expiresAt, turn = .moves i ∧ StoresToken P Q userId i b c expiresAt := by
  cases h.cause with
  | begins i hturn state => exact Or.inl (by rw [state])
  | elsewhere hturn env =>
    refine Or.inl ((Tables.pending_of_tokens env.tokens).le.trans ?_)
    exact Tables.pending_advances env.now
  | moved i b c hturn there here step hcall =>
    have hnow : Q.state.now = P.state.now := now_of_next step
    rw [hnow]
    generalize hb : b.pos = p at step hcall
    generalize hc : c.pos = q at step hcall
    cases tokenStep_of_next step with
    | counts room tables => exact Or.inl (by rw [tables])
    | evicts tables =>
      rw [tables]
      exact Or.inl Tables.pending_dropOldest_le
    | consumes tables =>
      rw [tables]
      exact Or.inl Tables.pending_consume
    | goes inserts stored decisive tokens => exact Or.inl (Tables.pending_of_tokens tokens).le
    | @stores ttlSecs input owner tokenHash expiresAt _ _ answered accepted =>
      have hpending : Q.state.tables.pending userId P.state.now =
          P.state.tables.pending userId P.state.now +
            if owner = userId ∧ P.state.now < expiresAt then 1 else 0 :=
        Tables.pending_insert accepted rfl
      by_cases hnew : owner = userId ∧ P.state.now < expiresAt
      · obtain ⟨rfl, hunexpired⟩ := hnew
        rw [if_pos ⟨rfl, hunexpired⟩] at hpending
        refine Or.inr ⟨i, b, c, expiresAt, hturn, there, here,
          ⟨ttlSecs, input, tokenHash, hb, _, accepted⟩, answered, hunexpired, by rw [hc]; rfl, ?_, ?_⟩
        · rw [hcall]
          exact Pool.moved_mark (by rw [hb]; rfl)
        · rw [hnow, hpending]
      · rw [if_neg hnew] at hpending
        exact Or.inl hpending.le

/-- A call that has been overtaken stays so. -/
lemma Overtaken.step (h : PendingStep ι P turn Q) {c : Call TokenPos} (hP : Overtaken P userId c) :
    Overtaken Q userId c := by
  obtain ⟨j, d, n, m, hd, hstored, hn, hm, hless⟩ := hP
  rcases h.kept hd with hsame | ⟨-, e, he, step, hcall⟩
  · exact ⟨j, d, n, m, hsame, hstored, hn, hm, hless⟩
  · obtain ⟨hstill, hdecisive⟩ := TokenPos.stored_of_next step hstored
    refine ⟨j, e, n, m, he, hstill, hn, ?_, hless⟩
    rw [hcall, Pool.moved_mark_of_not hdecisive]
    exact hm

/-- Every step in which no request overfills keeps the tokens of the user capped. -/
lemma Capped.step (h : PendingStep ι P turn Q)
    (hsafe : ∀ i, turn = .moves i → ¬ Overfills P userId i) (hP : Capped ι userId P) :
    Capped ι userId Q := by
  have hpending : Q.state.tables.pending userId Q.state.now ≤
      P.state.tables.pending userId P.state.now ∨
      ∃ i b c expiresAt, turn = .moves i ∧ StoresToken P Q userId i b c expiresAt :=
    pending_of_step h
  refine ⟨?_, Pool.Timely.step h hP.timely, fun i c hc hinserts => ?_, fun i c hc hinserts => ?_⟩
  · rcases hpending with hle | ⟨i, b, c, expiresAt, hturn, hstores⟩
    · exact hle.trans hP.pending
    · -- the request found room that nobody has taken since
      obtain ⟨ttlSecs, input, tokenHash, hpos, haccepted⟩ := hstores.inserts
      rcases hP.room i b hstores.there (by rw [hpos]; rfl) with hroom | hovertaken
      · rw [hstores.pending]
        exact hroom
      · by_contra hmany
        rw [hstores.pending] at hmany
        exact hsafe i hturn ⟨b, ttlSecs, input, tokenHash, expiresAt, hstores.there, hpos,
          hstores.answered, hstores.unexpired, haccepted, by omega, hovertaken⟩
  · cases h.call hc with
    | same hold => exact hP.marked i c hold hinserts
    | opened _ _ starts _ _ =>
      rw [TokenPos.inserts_of_starts starts] at hinserts
      cases hinserts
    | moved hturn b there step hcall =>
      obtain ⟨owner, howner⟩ := Option.isSome_iff_exists.mp hinserts
      rw [hcall, Pool.moved_mark (TokenPos.room_of_next step howner).1]
      rfl
  · cases h.call hc with
    | same hold =>
      rcases hP.room i c hold hinserts with hroom | hovertaken
      · rcases hpending with hle | ⟨j, b, d, expiresAt, hturn, hstores⟩
        · exact Or.inl (hle.trans_lt hroom)
        · -- the request is overtaken in this step
          obtain ⟨n, hn⟩ := Option.isSome_iff_exists.mp
            (hP.marked i c hold (by rw [hinserts]; rfl))
          have hpast := ((hP.timely i c hold).mark n hn).2
          exact Or.inr ⟨j, d, n, P.time + 1, hstores.here, hstores.stored, hn, hstores.mark, by omega⟩
      · exact Or.inr (hovertaken.step h)
    | opened _ _ starts _ _ =>
      rw [TokenPos.inserts_of_starts starts] at hinserts
      cases hinserts
    | moved hturn b there step hcall =>
      refine Or.inl ?_
      rw [now_of_next step]
      -- the request counts fewer than three tokens, or makes room for one
      rcases (TokenPos.room_of_next step hinserts).2 with ⟨hroom, htables⟩ | htables
      · rw [htables]
        exact hroom
      · rw [htables]
        refine Tables.pending_dropOldest.trans_lt ?_
        have hcapped := hP.pending
        unfold maxPendingTokensPerUser at hcapped ⊢
        omega

/-- A request that overfills leaves the user with one more pending token. -/
lemma pending_of_overfills {i : ι} (h : PendingStep ι P (.moves i) Q)
    (hover : Overfills P userId i) :
    Q.state.tables.pending userId Q.state.now =
      P.state.tables.pending userId P.state.now + 1 := by
  obtain ⟨b, ttlSecs, input, tokenHash, expiresAt, hb, hpos, hanswers, hunexpired, ⟨t, ht⟩, -⟩ :=
    hover
  cases h.cause with
  | begins j hturn state => cases hturn
  | elsewhere hturn env => cases hturn
  | moved j c d hturn there here step hcall =>
    cases hturn
    cases hb.symm.trans there
    have hnow : Q.state.now = P.state.now := now_of_next step
    have hstores : (storeToken userId tokenHash expiresAt).run P.state =
        (.ok (newToken P.state userId tokenHash expiresAt),
          { P.state.tick with tables := t, uuids := P.state.uuids.tail }) :=
      Prog.run_bind_ok rfl (run_execute_ok hanswers (return_eq_ok.mpr ⟨ht, rfl⟩))
    have hnext : b.pos.next P.state = some (d.pos, Q.state) := step
    rw [hpos] at hnext
    simp only [TokenPos.next, requestNext, hstores, Option.map_some, Option.some.injEq,
      Prod.mk.injEq] at hnext
    have hpending : t.pending userId P.state.now = P.state.tables.pending userId P.state.now +
        if userId = userId ∧ P.state.now < expiresAt then 1 else 0 := Tables.pending_insert ht rfl
    rw [if_pos ⟨rfl, hunexpired⟩] at hpending
    rw [hnow, ← hnext.2]
    exact hpending

/-- A user with at most three pending tokens never gets more exactly in the runs in which no request
overfills. -/
theorem pending_capped_iff (userId : Uuid) (w : World)
    (start : w.tables.pending userId w.now ≤ maxPendingTokensPerUser)
    (ms : List (Move (Pool ι World TokenPos) (Turn ι))) (P : Pool ι World TokenPos)
    (run : Run (PendingStep ι) (Pool.idle ι TokenPos w) ms P) :
    (∀ m ∈ ms, m.post.state.tables.pending userId m.post.state.now ≤ maxPendingTokensPerUser) ↔
      ∀ m ∈ ms, ∀ i, m.label = .moves i → ¬ Overfills m.pre userId i := by
  constructor
  · intro hcapped m hm i hlabel hover
    have hstep := run.step_of_mem hm
    rw [hlabel] at hstep
    have hmore := pending_of_overfills hstep hover
    obtain ⟨-, -, -, -, -, -, -, -, -, -, hfull, -⟩ := hover
    have hle := hcapped m hm
    omega
  · intro hsafe m hm
    obtain ⟨hstep, hpre⟩ := run.forall_moves (Capped ι userId)
      (fun m => ∀ i, m.label = .moves i → ¬ Overfills m.pre userId i) (capped_idle start)
      (fun _ _ _ step hs hP => hP.step step hs) hsafe m hm
    exact (hpre.step hstep (hsafe m hm)).pending

end

section Runs

/-- Alice has two reset tokens that are pending. -/
def twoPending : Tables :=
  { Tables.twoTenants with
    passwordResetTokens := ⟨[⟨0x41, 0x11, "aa", 3600000000, none, 0⟩,
      ⟨0x42, 0x11, "bb", 3600000000, none, 0⟩], by decide⟩ }

/-- The world over these tokens, with random bytes to draw. -/
def pendingWorld : World :=
  { World.calm twoPending 1 with random := [List.replicate 32 3, List.replicate 32 4] }

/-- A call asks for a reset token of Alice. -/
def askToken (i : Client) : Act Client TokenPos :=
  .begins i (.requesting 3600 ⟨"alice"⟩ .find)

/-- A schedule of a few calls. -/
def performTokens [Argon2] [Sha256] (ok : Pool Client World TokenPos → Turn Client → Bool)
    (as : List (Act Client TokenPos)) : Option (Pool Client World TokenPos) :=
  Pool.perform (tokenSystem Client) (fun _ => TokenPos.next) ok
    (Pool.idle Client TokenPos pendingWorld) as

/-- No call is about to store a token of a user who has three. -/
def findsRoom (P : Pool Client World TokenPos) : Turn Client → Bool
  | .moves i => (P.calls i).all (fun c =>
      c.pos.inserts.isNone || P.state.tables.pending 0x11 P.state.now < maxPendingTokensPerUser)
  | _ => true

/-- A call that finds room does not overfill. -/
lemma not_overfills {P : Pool Client World TokenPos} {i : Client}
    (h : findsRoom P (.moves i) = true) : ¬ Overfills P 0x11 i := by
  rintro ⟨c, ttlSecs, input, tokenHash, expiresAt, hc, hpos, -, -, -, hfull, -⟩
  simp only [findsRoom, hc, Option.all_some, hpos, TokenPos.inserts, Option.isNone_some,
    Bool.false_or, decide_eq_true_eq] at h
  omega

/-- Two requests one after the other. -/
def oneByOne : List (Act Client TokenPos) :=
  askToken .first :: Act.steps .first 5 ++ askToken .second :: Act.steps .second 6

/-- Two requests that both count before either inserts. -/
def atOnce : List (Act Client TokenPos) :=
  askToken .first :: Act.steps .first 3 ++ askToken .second :: Act.steps .second 3 ++
    Act.steps .first 1 ++ Act.steps .second 1

/-- Requests one after the other leave three tokens pending, the oldest one having made room. -/
theorem pending_capped_iff_oneByOne :
    ∃ ms P, Run (@PendingStep plainPlatform.toArgon2 ⟨id⟩ Client _)
        (Pool.idle Client TokenPos pendingWorld) ms P ∧
      (∀ m ∈ ms, m.post.state.tables.pending 0x11 m.post.state.now ≤ maxPendingTokensPerUser) ∧
      P.state.tables.pending 0x11 P.state.now = 3 := by
  let _ : Platform := plainPlatform
  let _ : Sha256 := ⟨id⟩
  have hends : (performTokens findsRoom oneByOne).map
      (fun P => P.state.tables.pending 0x11 P.state.now) = some 3 := by decide +kernel
  obtain ⟨P, hP, hpending⟩ := Option.map_eq_some_iff.mp hends
  obtain ⟨ms, hrun, hok⟩ := Pool.run_of_perform (fun h => h) hP
  have hsafe : ∀ m ∈ ms, ∀ i, m.label = .moves i → ¬ Overfills m.pre 0x11 i :=
    fun m hm i hi => not_overfills (hi ▸ hok m hm)
  have hstart : pendingWorld.tables.pending 0x11 pendingWorld.now ≤ maxPendingTokensPerUser := by
    decide +kernel
  exact ⟨ms, P, hrun, (pending_capped_iff 0x11 _ hstart ms P hrun).mpr hsafe, hpending⟩

/-- Requests that overlap leave four tokens pending. -/
theorem pending_overfilled :
    ∃ ms P, Run (@PendingStep plainPlatform.toArgon2 ⟨id⟩ Client _)
        (Pool.idle Client TokenPos pendingWorld) ms P ∧
      pendingWorld.tables.pending 0x11 pendingWorld.now = 2 ∧
      P.state.tables.pending 0x11 P.state.now = 4 := by
  let _ : Platform := plainPlatform
  let _ : Sha256 := ⟨id⟩
  have hends : (performTokens (fun _ _ => true) atOnce).map
      (fun P => P.state.tables.pending 0x11 P.state.now) = some 4 := by decide +kernel
  obtain ⟨P, hP, hpending⟩ := Option.map_eq_some_iff.mp hends
  obtain ⟨ms, hrun, -⟩ := Pool.run_of_perform (fun h => h) hP
  exact ⟨ms, P, hrun, by decide +kernel, hpending⟩

end Runs
end Egras
