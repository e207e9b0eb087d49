import Egras.Lib.Cooperate
import Egras.Security.Revocation
import Egras.Security.Rotation

/-!
# Whether a rotation replaces a key

A rotation reads its key first and revokes it later, by an `UPDATE` whose row count nobody looks at.
When the key has been revoked by then, the transaction adds a key and replaces none (`AddsKey`). A
run has no such step exactly when the number of active keys of the service account never grows and
every rotation that returns has turned one active key into a revoked one and inserted one new active
key (`rotation_replaces_iff`).
-/

namespace Egras
open Lib

/-! ## Active keys -/

namespace Tables
variable {t t' : Tables} {saUserId keyId : Uuid} {now : Timestamp} {k : ApiKeyRecord}

/-- The active keys of a service account. -/
def activeKeys (t : Tables) (saUserId : Uuid) : List ApiKeyRecord :=
  t.apiKeys.select (fun k => k.serviceAccountUserId = saUserId && k.revokedAt = none)

/-- The key with an identifier is active. -/
def IsActive (t : Tables) (keyId : Uuid) : Prop :=
  ∃ k ∈ t.apiKeys, k.id = keyId ∧ k.revokedAt = none

/-- Between two states of the tables one active key of a service account has been revoked and one
active key of it has been inserted; all other keys are the same. -/
structure Replaced (t t' : Tables) (saUserId oldKeyId newKeyId : Uuid) : Prop where
  turned : ∃ k ∈ t.apiKeys, k.id = oldKeyId ∧ k.serviceAccountUserId = saUserId ∧
    k.revokedAt = none ∧ ∃ now, { k with revokedAt := some now } ∈ t'.apiKeys
  fresh : ∀ q ∈ t.apiKeys, q.id ≠ newKeyId
  added : ∃ k ∈ t'.apiKeys, k.id = newKeyId ∧ k.serviceAccountUserId = saUserId ∧ k.revokedAt = none
  others : ∀ q : ApiKeyRecord, q.id ≠ oldKeyId → q.id ≠ newKeyId → (q ∈ t'.apiKeys ↔ q ∈ t.apiKeys)

/-- Revoking a key that is not active changes nothing. -/
lemma revokeActive_eq_self (h : ¬ t.IsActive keyId) : t.revokeActive keyId now = t := by
  have hkeys : t.apiKeys.updateWhere (fun k => k.id = keyId && k.revokedAt = none)
      (fun k => { k with revokedAt := some now }) (revokedKey_key now) = t.apiKeys := by
    refine Table.updateWhere_eq_self fun k hk => ?_
    rw [← Bool.not_eq_true]
    intro hp
    simp only [Bool.and_eq_true, decide_eq_true_eq] at hp
    exact h ⟨k, hk, hp⟩
  unfold revokeActive revokeKeys
  rw [hkeys]

/-- The active keys after some keys have been revoked. -/
lemma activeKeys_revokeKeys {p : ApiKeyRecord → Bool} :
    (t.revokeKeys p now).activeKeys saUserId = t.apiKeys.select
      (fun k => (k.serviceAccountUserId = saUserId && k.revokedAt = none) && !p k) :=
  @Table.select_updateWhere _ _ _ t.apiKeys p
    (fun k => k.serviceAccountUserId = saUserId && k.revokedAt = none) _ (revokedKey_key now)
    fun _ _ _ => by simp

/-- Revocations leave no more active keys than there were. -/
lemma length_activeKeys_revokeKeys_le {p : ApiKeyRecord → Bool} :
    ((t.revokeKeys p now).activeKeys saUserId).length ≤ (t.activeKeys saUserId).length := by
  rw [activeKeys_revokeKeys]
  refine List.Sublist.length_le (List.monotone_filter_right _ fun k hk => ?_)
  exact ((Bool.and_eq_true _ _).mp hk).1

/-- Revoking an active key of the service account leaves one active key less. -/
lemma length_activeKeys_revokeActive (hheld : t.HoldsKey saUserId keyId)
    (hactive : t.IsActive keyId) :
    (t.activeKeys saUserId).length = ((t.revokeActive keyId now).activeKeys saUserId).length + 1 := by
  obtain ⟨k, hk, hid, hsa⟩ := hheld
  obtain ⟨q, hq, hqid, hqactive⟩ := hactive
  obtain rfl := key_eq_of_id hk hq (hid.trans hqid.symm)
  unfold revokeActive
  rw [activeKeys_revokeKeys]
  refine Table.length_select_of_one hk (by simp [hsa, hqactive]) fun r hr hactive => ?_
  simp only [Bool.and_eq_true, decide_eq_true_eq] at hactive ⊢
  constructor
  · rintro ⟨hrid, -⟩
    exact key_eq_of_id hr hk (hrid.trans hid.symm)
  · rintro rfl
    exact ⟨hid, hqactive⟩

/-- Inserting an active key of the service account leaves one active key more. -/
lemma length_activeKeys_addKey (hins : t.Insertable k) (hsa : k.serviceAccountUserId = saUserId)
    (hactive : k.revokedAt = none) :
    ((t.addKey k).activeKeys saUserId).length = (t.activeKeys saUserId).length + 1 := by
  unfold addKey
  cases hrows : t.apiKeys.insert? k with
  | none =>
    obtain ⟨p, hp, hkey⟩ := Table.insert?_eq_none.mp hrows
    exact absurd hkey (hins.id p hp)
  | some rows => exact Table.length_select_insert? hrows (by simp [hsa, hactive])

/-- A revoked key is still held. -/
lemma HoldsKey.revokeKeys {p : ApiKeyRecord → Bool} (h : t.HoldsKey saUserId keyId) :
    (t.revokeKeys p now).HoldsKey saUserId keyId := by
  obtain ⟨k, hk, hid, hsa⟩ := h
  refine ⟨_, mem_revokeKeys.mpr ⟨k, hk, rfl⟩, ?_⟩
  split <;> exact ⟨hid, hsa⟩

/-- One more key takes none away. -/
lemma HoldsKey.addKey (h : t.HoldsKey saUserId keyId) (hins : t.Insertable k) :
    (t.addKey k).HoldsKey saUserId keyId := by
  obtain ⟨q, hq, hid, hsa⟩ := h
  exact ⟨q, hins.mem_addKey.mpr (Or.inl hq), hid, hsa⟩

/-- A key that is held is one of those of its service account. -/
lemma HoldsKey.of_select (h : t.HoldsKey saUserId keyId)
    (hkeys : t'.apiKeys.select (fun k => k.serviceAccountUserId = saUserId) =
      t.apiKeys.select (fun k => k.serviceAccountUserId = saUserId)) :
    t'.HoldsKey saUserId keyId := by
  obtain ⟨k, hk, hid, hsa⟩ := h
  have hmem : k ∈ t'.apiKeys.select (fun k => k.serviceAccountUserId = saUserId) :=
    hkeys ▸ Table.mem_select.mpr ⟨hk, by simp [hsa]⟩
  exact ⟨k, (Table.mem_select.mp hmem).1, hid, hsa⟩

/-- The same keys of an account are active. -/
lemma activeKeys_of_select (hkeys : t'.apiKeys.select (fun k => k.serviceAccountUserId = saUserId) =
      t.apiKeys.select (fun k => k.serviceAccountUserId = saUserId)) :
    t'.activeKeys saUserId = t.activeKeys saUserId := by
  have hfilter : ∀ t : Tables, t.activeKeys saUserId =
      (t.apiKeys.select (fun k => k.serviceAccountUserId = saUserId)).filter
        (fun k => k.revokedAt = none) := by
    intro t
    unfold activeKeys Table.select
    rw [List.filter_filter]
    exact congrArg t.apiKeys.rows.filter (funext fun k => Bool.and_comm _ _)
  rw [hfilter, hfilter, hkeys]

/-- A rotation of an active key replaces it. -/
lemma replaced_of_active (hheld : t.HoldsKey saUserId keyId) (hactive : t.IsActive keyId)
    (hins : (t.revokeActive keyId now).Insertable k) (hsa : k.serviceAccountUserId = saUserId)
    (hnew : k.revokedAt = none) :
    Replaced t ((t.revokeActive keyId now).addKey k) saUserId keyId k.id := by
  obtain ⟨q, hq, hqid, hqsa⟩ := hheld
  obtain ⟨r, hr, hrid, hractive⟩ := hactive
  obtain rfl := key_eq_of_id hq hr (hqid.trans hrid.symm)
  refine ⟨⟨q, hq, hqid, hqsa, hractive, now, ?_⟩, fun p hp => ?_, ⟨k, ?_, rfl, hsa, hnew⟩,
    fun p hpold hpnew => ?_⟩
  · exact hins.mem_addKey.mpr (Or.inl (mem_revokeKeys.mpr ⟨q, hq, by simp [hqid, hractive]⟩))
  · have hne := hins.id _ (mem_revokeKeys.mpr ⟨p, hp, rfl⟩)
    split at hne <;> exact hne
  · exact hins.mem_addKey.mpr (Or.inr rfl)
  · rw [hins.mem_addKey, revokeActive, mem_revokeKeys]
    constructor
    · rintro (⟨s, hs, rfl⟩ | rfl)
      · split at hpold
        · rename_i hp
          simp only [Bool.and_eq_true, decide_eq_true_eq] at hp
          exact absurd hp.1 hpold
        · rename_i hp
          rw [if_neg hp]
          exact hs
      · exact absurd rfl hpnew
    · intro hp
      exact Or.inl ⟨p, hp, if_neg (by simp [hpold])⟩

end Tables

/-! ## Runs -/

/-- A rotation is about to run its transaction on a key that has been revoked by now, and the
database will answer it and accept the new key. -/
def AddsKey {ι : Type} (P : Pool ι World KeyPos) (i : ι) : Prop :=
  ∃ c input attempts name scopes g row, P.calls i = some c ∧
    c.pos = .rotating input (.store attempts name scopes g row) ∧
    ¬ P.state.tables.IsActive input.oldKeyId ∧ P.state.answersAll 4 = true ∧
    P.state.tables.Insertable (row.record P.state.now)

section Runs
variable {saUserId : Uuid}

/-- What a call knows of its service account: the key that it has found is one of the account's, and
so is the row that it has drawn. -/
structure KnowsKey (saUserId : Uuid) (w : World) (p : KeyPos) : Prop where
  account : p.account = saUserId
  found : ∀ id, p.found = some id → w.tables.HoldsKey saUserId id
  drawn : ∀ row, p.drawn = some row → row.serviceAccountUserId = saUserId

/-- A call knows the same in another state that still has its key. -/
lemma KnowsKey.mono {w w' : World} {p : KeyPos} (h : KnowsKey saUserId w p)
    (hheld : ∀ id, w.tables.HoldsKey saUserId id → w'.tables.HoldsKey saUserId id) :
    KnowsKey saUserId w' p :=
  ⟨h.account, fun id hid => hheld id (h.found id hid), h.drawn⟩

/-- No step takes a key of the service account away. -/
lemma KeyStep.holdsKey {p q : KeyPos} {w w' : World} (h : KeyStep p w q w') {keyId : Uuid}
    (hheld : w.tables.HoldsKey saUserId keyId) : w'.tables.HoldsKey saUserId keyId := by
  cases h with
  | goes _ _ _ _ _ tables =>
    rw [tables]
    exact hheld
  | rotates _ insertable tables =>
    rw [tables]
    exact Tables.HoldsKey.addKey (Tables.HoldsKey.revokeKeys hheld) insertable
  | revokes tables =>
    rw [tables]
    exact hheld.revokeKeys

/-- After a step a call knows what it has to. -/
lemma KeyStep.knowsKey {p q : KeyPos} {w w' : World} (h : KeyStep p w q w')
    (hknows : KnowsKey saUserId w p) : KnowsKey saUserId w' q := by
  have hheld : ∀ id, w.tables.HoldsKey saUserId id → w'.tables.HoldsKey saUserId id :=
    fun _ => h.holdsKey
  cases h with
  | goes account found drawn _ _ tables =>
    refine ⟨account.trans hknows.account, fun id hid => hheld id ?_, fun row hrow => ?_⟩
    · rcases found id hid with hold | hnew
      · exact hknows.found id hold
      · rw [hknows.account] at hnew
        exact hnew
    · exact (drawn row hrow).trans hknows.account
  | rotates _ _ _ => exact ⟨hknows.account, fun id hid => (nomatch hid), fun row hrow => nomatch hrow⟩
  | revokes _ => exact ⟨hknows.account, fun id hid => (nomatch hid), fun row hrow => nomatch hrow⟩

variable {ι : Type} [DecidableEq ι] [Argon2] [Base64]

/-- A step of the pool. -/
abbrev RotationStep (ι : Type) [DecidableEq ι] (saUserId : Uuid) :=
  Pool.Step (rotationSystem ι saUserId)

omit [DecidableEq ι] in
/-- What a call knows of its key stays true whatever the others do. -/
lemma rotationSystem_cooperates :
    Cooperates (rotationSystem ι saUserId) (fun _ => True) (fun _ _ => True)
      (fun w _ p => KnowsKey saUserId w p) where
  starts := by
    intro w i p hstarts
    obtain ⟨hstarts, haccount⟩ := (Bool.and_eq_true _ _).mp hstarts
    refine ⟨of_decide_eq_true haccount, fun id hid => ?_, fun row hrow => ?_⟩
    · unfold KeyPos.starts at hstarts
      split at hstarts
      · cases hid
      · cases hid
      · cases hstarts
    · unfold KeyPos.starts at hstarts
      split at hstarts
      · cases hrow
      · cases hrow
      · cases hstarts
  step step _ hknows := ⟨trivial, trivial, (keyStep_of_next step).knowsKey hknows⟩
  others step _ _ _ hknows := hknows.mono fun _ => (keyStep_of_next step).holdsKey
  env _ _ := ⟨trivial, trivial⟩
  spared env _ hknows := hknows.mono fun _ hheld => hheld.of_select env

/-- The invariant of the runs: each rotation that has committed has replaced its key then. -/
def Rotated (saUserId : Uuid) (P : Pool ι World KeyPos) : Prop :=
  ∀ i c old mat, P.calls i = some c → c.pos.rotated = some (old, mat) →
    ∃ n, c.mark = some (n + 1) ∧ n < P.time ∧
      (P.hist n).tables.Replaced (P.hist (n + 1)).tables saUserId old mat.key.id

variable {P Q : Pool ι World KeyPos} {turn : Turn ι}

/-- What a call does to the active keys: none is added, unless its key has been revoked by then. -/
lemma length_activeKeys_of_step (h : RotationStep ι saUserId P turn Q)
    (hP : P.Sound (fun _ => True) (fun w _ p => KnowsKey saUserId w p)) :
    (Q.state.tables.activeKeys saUserId).length ≤ (P.state.tables.activeKeys saUserId).length ∨
      (∃ i, turn = .moves i ∧ AddsKey P i) ∧ (Q.state.tables.activeKeys saUserId).length =
        (P.state.tables.activeKeys saUserId).length + 1 := by
  cases h.cause with
  | begins i _ state =>
    rw [state]
    exact Or.inl (le_refl _)
  | elsewhere _ env =>
    exact Or.inl (le_of_eq (congrArg List.length (Tables.activeKeys_of_select env)))
  | moved i b c hturn there _ step _ =>
    have hknows := hP.calls i b there
    obtain ⟨p, w, q, w', hp, hw, hq, hw', hstep⟩ : ∃ p w q w', b.pos = p ∧ P.state = w ∧
        c.pos = q ∧ Q.state = w' ∧ KeyStep p w q w' :=
      ⟨_, _, _, _, rfl, rfl, rfl, rfl, keyStep_of_next step⟩
    rw [hp, hw] at hknows
    cases hstep with
    | goes _ _ _ _ _ tables =>
      rw [hw, hw', tables]
      exact Or.inl (le_refl _)
    | revokes tables =>
      rw [hw, hw', tables]
      exact Or.inl Tables.length_activeKeys_revokeKeys_le
    | @rotates input attempts name scopes g row _ _ answered insertable tables =>
      have hsa : (row.record w.now).serviceAccountUserId = saUserId := hknows.drawn row rfl
      have hadd := Tables.length_activeKeys_addKey insertable hsa rfl
      by_cases hactive : w.tables.IsActive input.oldKeyId
      · -- one key goes and one comes
        have hless : (w.tables.activeKeys saUserId).length =
            ((w.tables.revokeActive input.oldKeyId w.now).activeKeys saUserId).length + 1 :=
          Tables.length_activeKeys_revokeActive (hknows.found _ rfl) hactive
        rw [hw, hw', tables, hadd, hless]
        exact Or.inl (le_refl _)
      · -- the old key had been revoked before, so that one comes and none goes
        have hsame : w.tables.revokeActive input.oldKeyId w.now = w.tables :=
          Tables.revokeActive_eq_self hactive
        rw [hsame] at insertable hadd tables
        refine Or.inr ⟨⟨i, hturn, b, input, attempts, name, scopes, g, row, there, hp, ?_⟩, ?_⟩
        · rw [hw]
          exact ⟨hactive, answered, insertable⟩
        · rw [hw, hw', tables, hadd]

/-- A call that is about to add a key does so in its next step. -/
lemma length_activeKeys_of_adds {i : ι} (h : RotationStep ι saUserId P turn Q)
    (hP : P.Sound (fun _ => True) (fun w _ p => KnowsKey saUserId w p))
    (hturn : turn = .moves i) (hadds : AddsKey P i) :
    (Q.state.tables.activeKeys saUserId).length =
      (P.state.tables.activeKeys saUserId).length + 1 := by
  obtain ⟨b, input, attempts, name, scopes, g, row, there, hpos, hrevoked, hanswers, hins⟩ := hadds
  have hsa : (row.record P.state.now).serviceAccountUserId = saUserId :=
    (hP.calls i b there).drawn row (by rw [hpos]; rfl)
  have hsame : P.state.tables.revokeActive input.oldKeyId P.state.now = P.state.tables :=
    Tables.revokeActive_eq_self hrevoked
  rw [← hsame] at hins
  obtain ⟨v, hrun, htables⟩ := rotateKey_of_insertable hanswers hins
  rw [hsame] at htables hins
  cases h.cause with
  | begins j hbegins _ =>
    rw [hturn] at hbegins
    cases hbegins
  | elsewhere helsewhere _ =>
    rw [hturn] at helsewhere
    cases helsewhere
  | moved j b' c hmoves there' _ step _ =>
    rw [hturn] at hmoves
    cases hmoves
    cases there.symm.trans there'
    have hnext : KeyPos.next b.pos P.state = some (c.pos, Q.state) := step
    rw [hpos] at hnext
    simp only [KeyPos.next, rotateNext, hrun, Option.map_some, Option.some.injEq,
      Prod.mk.injEq] at hnext
    rw [← hnext.2, htables]
    exact Tables.length_activeKeys_addKey hins hsa rfl

/-- A step that adds no key keeps the invariant. -/
lemma Rotated.step (h : RotationStep ι saUserId P turn Q)
    (hP : P.Sound (fun _ => True) (fun w _ p => KnowsKey saUserId w p))
    (hsafe : ∀ i, turn = .moves i → ¬ AddsKey P i) (hrotated : Rotated saUserId P) :
    Rotated saUserId Q := by
  -- what has been replaced in the past of `P` has been so in the past of `Q`
  have hpast : ∀ {c : Call KeyPos} {old mat}, (∃ n, c.mark = some (n + 1) ∧ n < P.time ∧
      (P.hist n).tables.Replaced (P.hist (n + 1)).tables saUserId old mat) →
      ∃ n, c.mark = some (n + 1) ∧ n < Q.time ∧
        (Q.hist n).tables.Replaced (Q.hist (n + 1)).tables saUserId old mat := by
    rintro c old mat ⟨n, hmark, hn, hreplaced⟩
    rw [← h.hist (n := n) (by omega), ← h.hist (n := n + 1) (by omega)] at hreplaced
    exact ⟨n, hmark, by rw [h.time]; omega, hreplaced⟩
  intro i c old mat hc hpos
  cases h.call hc with
  | same hold => exact hpast (hrotated i c old mat hold hpos)
  | opened _ _ starts _ _ =>
    obtain ⟨hstarts, -⟩ := (Bool.and_eq_true _ _).mp starts
    unfold KeyPos.starts at hstarts
    split at hstarts
    · rename_i hinput
      rw [hinput] at hpos
      cases hpos
    · rename_i hinput
      rw [hinput] at hpos
      cases hpos
    · cases hstarts
  | moved hturn b there step hcall =>
    have hknows := hP.calls i b there
    obtain ⟨p, w, q, w', hp, hw, hq, hw', hstep⟩ : ∃ p w q w', b.pos = p ∧ P.state = w ∧
        c.pos = q ∧ Q.state = w' ∧ KeyStep p w q w' :=
      ⟨_, _, _, _, rfl, rfl, rfl, rfl, keyStep_of_next step⟩
    rw [hp, hw] at hknows
    rw [hq] at hpos
    cases hstep with
    | goes _ _ _ rotated decisive _ =>
      rw [rotated, ← hp] at hpos
      have hmark : c.mark = b.mark := by
        rw [hcall]
        exact Pool.moved_mark_of_not (by rw [hp, hq]; exact decisive)
      rw [hmark]
      exact hpast (hrotated i b old mat there hpos)
    | revokes _ => cases hpos
    | @rotates input attempts name scopes g row _ _ answered insertable tables =>
      cases hpos
      refine ⟨P.time, ?_, by rw [h.time]; omega, ?_⟩
      · rw [hcall]
        exact Pool.moved_mark (by rw [hp, hq]; rfl)
      · -- the key is still active, or else this step would add one
        have hactive : w.tables.IsActive input.oldKeyId := by
          by_contra hrevoked
          refine hsafe i hturn ⟨b, input, attempts, name, scopes, g, row, there, hp, ?_⟩
          rw [Tables.revokeActive_eq_self hrevoked] at insertable
          rw [hw]
          exact ⟨hrevoked, answered, insertable⟩
        have hbefore : Q.hist P.time = w := (h.hist (le_refl _)).trans hw
        have hafter : Q.hist (P.time + 1) = w' := h.hist_time.trans hw'
        rw [hbefore, hafter, tables]
        exact Tables.replaced_of_active (hknows.found _ rfl) hactive insertable
          (hknows.drawn row rfl) rfl

/-- In a run of any number of rotations and revocations on a service account, no rotation runs its
transaction on a key that has been revoked by then exactly when the number of active keys never
grows and each rotation that returns has replaced one active key by another. -/
theorem rotation_replaces_iff (w : World) (ms : List (Move (Pool ι World KeyPos) (Turn ι)))
    (P : Pool ι World KeyPos)
    (run : Run (RotationStep ι saUserId) (Pool.idle ι KeyPos w) ms P) :
    (∀ m ∈ ms, ∀ i, m.label = .moves i → ¬ AddsKey m.pre i) ↔
      (∀ m ∈ ms, (m.post.state.tables.activeKeys saUserId).length ≤
        (m.pre.state.tables.activeKeys saUserId).length) ∧
      ∀ i c input mat, P.calls i = some c → c.pos = .rotating input (.done (.ok mat)) →
        ∃ n, c.mark = some (n + 1) ∧ n < P.time ∧
          (P.hist n).tables.Replaced (P.hist (n + 1)).tables saUserId input.oldKeyId mat.key.id := by
  have hmoves := run.forall_moves
    (fun P => P.Sound (fun _ => True) (fun w _ p => KnowsKey saUserId w p)) (fun _ => True)
    (Pool.sound_idle trivial)
    (fun _ _ _ step _ hP => rotationSystem_cooperates.sound step hP) (fun _ _ => trivial)
  constructor
  · intro hsafe
    refine ⟨fun m hm => ?_, fun i c input mat hc hpos => ?_⟩
    · obtain ⟨hstep, hsound⟩ := hmoves m hm
      rcases length_activeKeys_of_step hstep hsound with hle | ⟨⟨i, hturn, hadds⟩, -⟩
      · exact hle
      · exact absurd hadds (hsafe m hm i hturn)
    · have hrotated := (run.invariant
        (fun P => P.Sound (fun _ => True) (fun w _ p => KnowsKey saUserId w p) ∧ Rotated saUserId P)
        (fun m => ∀ i, m.label = .moves i → ¬ AddsKey m.pre i)
        ⟨Pool.sound_idle trivial, fun _ _ _ _ hc => nomatch hc⟩
        (fun _ _ _ step hsafe hP => ⟨rotationSystem_cooperates.sound step hP.1,
          hP.2.step step hP.1 hsafe⟩) hsafe).2
      exact hrotated i c input.oldKeyId mat hc (by rw [hpos]; rfl)
  · rintro ⟨hcount, -⟩ m hm i hturn hadds
    obtain ⟨hstep, hsound⟩ := hmoves m hm
    have hle := hcount m hm
    rw [length_activeKeys_of_adds hstep hsound hturn hadds] at hle
    omega

end Runs

section Schedules

/-- Rotations run their transaction on active keys only. -/
def rotatesActive (P : Pool Client World KeyPos) : Turn Client → Bool
  | .moves i =>
    match P.calls i with
    | some ⟨.rotating input (.store _ _ _ _ _), _, _, _⟩ =>
      P.state.tables.apiKeys.any (fun k => k.id = input.oldKeyId && k.revokedAt = none)
    | _ => true
  | _ => true

/-- A call that rotates an active key adds none. -/
lemma not_addsKey {P : Pool Client World KeyPos} {i : Client}
    (h : rotatesActive P (.moves i) = true) : ¬ AddsKey P i := by
  rintro ⟨⟨pos, began, mark, ended⟩, input, attempts, name, scopes, g, row, hc, hpos, hrevoked, -⟩
  obtain rfl : pos = .rotating input (.store attempts name scopes g row) := hpos
  simp only [rotatesActive, hc] at h
  obtain ⟨k, hk, hp⟩ := Table.any_eq_true.mp h
  simp only [Bool.and_eq_true, decide_eq_true_eq] at hp
  exact hrevoked ⟨k, hk, hp⟩

/-- A call rotates the first key of the service account. -/
def rotateFirst (i : Client) : Act Client KeyPos :=
  .begins i (.rotating ⟨0xa, 0x41, 0x51, none, none, 0x11, 0xa⟩ .findAccount)

/-- The world over some tables, with random bytes for two keys. -/
def keyWorld (t : Tables) : World :=
  { World.calm t 5 with random := [[1], [], [], [2], [], []] }

/-- A schedule of rotations of the keys of a service account. -/
def performRotations [Argon2] [Base64] (ok : Pool Client World KeyPos → Turn Client → Bool)
    (t : Tables) (as : List (Act Client KeyPos)) : Option (Pool Client World KeyPos) :=
  Pool.perform (rotationSystem Client 0x41) (fun _ => KeyPos.next) ok
    (Pool.idle Client KeyPos (keyWorld t)) as

/-- A rotation of an active key replaces it. -/
theorem rotation_replaces_iff_active :
    ∃ ms P, Run (@RotationStep plainPlatform.toArgon2 plainPlatform.toBase64 Client _ 0x41)
        (Pool.idle Client KeyPos (keyWorld twoKeys)) ms P ∧
      (∃ input mat, (P.calls .first).map Call.pos = some (.rotating input (.done (.ok mat)))) ∧
      (∀ m ∈ ms, (m.post.state.tables.activeKeys 0x41).length ≤
        (m.pre.state.tables.activeKeys 0x41).length) ∧
      ∀ i c input mat, P.calls i = some c → c.pos = .rotating input (.done (.ok mat)) →
        ∃ n, c.mark = some (n + 1) ∧ n < P.time ∧
          (P.hist n).tables.Replaced (P.hist (n + 1)).tables 0x41 input.oldKeyId mat.key.id := by
  let _ : Platform := plainPlatform
  have hends : (performRotations rotatesActive twoKeys (rotateFirst .first :: Act.steps .first 5)).map
      (fun P => (P.calls .first).map Call.pos) =
      some (some (.rotating ⟨0xa, 0x41, 0x51, none, none, 0x11, 0xa⟩
        (.done (.ok ⟨⟨0x21, 0x41, "01000000", "old", none, 5, 0x11, none, none⟩,
          "egras_live_01000000_"⟩)))) := by decide +kernel
  obtain ⟨P, hP, hcall⟩ := Option.map_eq_some_iff.mp hends
  obtain ⟨ms, hrun, hok⟩ := Pool.run_of_perform (fun h => h) hP
  have hsafe : ∀ m ∈ ms, ∀ i, m.label = .moves i → ¬ AddsKey m.pre i :=
    fun m hm i hi => not_addsKey (hi ▸ hok m hm)
  exact ⟨ms, P, hrun, ⟨_, _, hcall⟩, (rotation_replaces_iff _ ms P hrun).mp hsafe⟩

/-- In a run whose steps add no active key there are no more of them at the end. -/
lemma length_activeKeys_le {saUserId : Uuid} {ι : Type} [DecidableEq ι] [Argon2] [Base64]
    {P Q : Pool ι World KeyPos} {ms : List (Move (Pool ι World KeyPos) (Turn ι))}
    (run : Run (RotationStep ι saUserId) P ms Q)
    (h : ∀ m ∈ ms, (m.post.state.tables.activeKeys saUserId).length ≤
      (m.pre.state.tables.activeKeys saUserId).length) :
    (Q.state.tables.activeKeys saUserId).length ≤ (P.state.tables.activeKeys saUserId).length :=
  run.invariant (fun R => (R.state.tables.activeKeys saUserId).length ≤
      (P.state.tables.activeKeys saUserId).length)
    (fun m => (m.post.state.tables.activeKeys saUserId).length ≤
      (m.pre.state.tables.activeKeys saUserId).length)
    (le_refl _) (fun _ _ _ _ hle hR => le_trans hle hR) h

/-- A rotation of a key that has been revoked already leaves the service account with one active key
more, and so do two rotations of one active key that overlap. -/
theorem rotation_adds_key :
    (∃ ms P, Run (@RotationStep plainPlatform.toArgon2 plainPlatform.toBase64 Client _ 0x41)
        (Pool.idle Client KeyPos (keyWorld firstRevoked)) ms P ∧
      ¬ ∀ m ∈ ms, (m.post.state.tables.activeKeys 0x41).length ≤
        (m.pre.state.tables.activeKeys 0x41).length) ∧
    ∃ ms P, Run (@RotationStep plainPlatform.toArgon2 plainPlatform.toBase64 Client _ 0x41)
        (Pool.idle Client KeyPos (keyWorld twoKeys)) ms P ∧
      ¬ ∀ m ∈ ms, (m.post.state.tables.activeKeys 0x41).length ≤
        (m.pre.state.tables.activeKeys 0x41).length := by
  let _ : Platform := plainPlatform
  constructor
  · have hends : (performRotations (fun _ _ => true) firstRevoked
        (rotateFirst .first :: Act.steps .first 5)).map
        (fun P => (P.state.tables.activeKeys 0x41).length) = some 2 := by decide +kernel
    obtain ⟨P, hP, hcount⟩ := Option.map_eq_some_iff.mp hends
    obtain ⟨ms, hrun, -⟩ := Pool.run_of_perform (fun h => h) hP
    refine ⟨ms, P, hrun, fun h => ?_⟩
    have hle := length_activeKeys_le hrun h
    rw [hcount] at hle
    exact absurd hle (by decide +kernel)
  · have hends : (performRotations (fun _ _ => true) twoKeys
        (rotateFirst .first :: Act.steps .first 2 ++ rotateFirst .second :: Act.steps .second 2 ++
          Act.steps .first 3 ++ Act.steps .second 3)).map
        (fun P => (P.state.tables.activeKeys 0x41).length) = some 3 := by decide +kernel
    obtain ⟨P, hP, hcount⟩ := Option.map_eq_some_iff.mp hends
    obtain ⟨ms, hrun, -⟩ := Pool.run_of_perform (fun h => h) hP
    refine ⟨ms, P, hrun, fun h => ?_⟩
    have hle := length_activeKeys_le hrun h
    rw [hcount] at hle
    exact absurd hle (by decide +kernel)

end Schedules
end Egras
