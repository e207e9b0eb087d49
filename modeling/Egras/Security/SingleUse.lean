import Egras.Security.Rehash

/-!
# Whether a reset token is used once

The redemption of a reset token checks it, stores the new hash and marks the token as used in three
statements without a transaction. Two redemptions that overlap may both find the token unused, and a
redemption whose last statement fails has stored its hash and leaves the token usable (`Misuses`).
In the runs without such steps a token serves for one password update at most, and a redemption that
returns an error has changed nothing (`token_used_once`).
-/

namespace Egras
open Lib

/-- What happens besides the calls: anything that leaves the reset tokens alone. -/
def KeepsTokens (w w' : World) : Prop :=
  w'.tables.passwordResetTokens = w.tables.passwordResetTokens

namespace Tables
variable {t t' : Tables} {tokenHash : String} {id : Uuid}

/-- A stored token with a hash has been used. -/
def Spent (t : Tables) (tokenHash : String) : Prop :=
  ∃ p ∈ t.passwordResetTokens, p.tokenHash = tokenHash ∧ p.usedAt.isSome = true

/-- A token is stored with a hash. -/
def HoldsToken (t : Tables) (id : Uuid) (tokenHash : String) : Prop :=
  ∃ p ∈ t.passwordResetTokens, p.id = id ∧ p.tokenHash = tokenHash

/-- The consumed token is used, the others stay. -/
lemma mem_consumeToken {now : Timestamp} {p : PasswordResetToken} :
    p ∈ (t.consumeToken id now).passwordResetTokens ↔ ∃ q ∈ t.passwordResetTokens,
      (if q.id = id then { q with usedAt := some now } else q) = p := by
  refine (@Table.mem_updateWhere _ _ _ t.passwordResetTokens _ _ (consumeToken_id now) p).trans ?_
  simp only [decide_eq_true_eq]

/-- A token that is marked as used is. -/
lemma spent_consumeToken {now : Timestamp} (h : t.HoldsToken id tokenHash) :
    (t.consumeToken id now).Spent tokenHash := by
  obtain ⟨p, hp, hid, hhash⟩ := h
  exact ⟨_, mem_consumeToken.mpr ⟨p, hp, if_pos hid⟩, hhash, rfl⟩

/-- A spent token stays spent. -/
lemma Spent.consumeToken {now : Timestamp} (h : t.Spent tokenHash) :
    (t.consumeToken id now).Spent tokenHash := by
  obtain ⟨p, hp, hhash, hused⟩ := h
  refine ⟨_, mem_consumeToken.mpr ⟨p, hp, rfl⟩, ?_⟩
  split
  · exact ⟨hhash, rfl⟩
  · exact ⟨hhash, hused⟩

/-- A token is held, used or not. -/
lemma HoldsToken.consumeToken {now : Timestamp} {id' : Uuid} (h : t.HoldsToken id tokenHash) :
    (t.consumeToken id' now).HoldsToken id tokenHash := by
  obtain ⟨p, hp, hid, hhash⟩ := h
  refine ⟨_, mem_consumeToken.mpr ⟨p, hp, rfl⟩, ?_⟩
  split
  · exact ⟨hid, hhash⟩
  · exact ⟨hid, hhash⟩

end Tables

section
variable {ι : Type} [Sha256]

/-- A redemption is about to store its hash although its token has been used by now or another
redemption has stored its hash and is about to mark the same token as used; or a redemption that has
stored its hash fails to mark the token. -/
def Misuses (P : Pool ι World CredentialPos) (i : ι) : Prop :=
  ∃ c input, P.calls i = some c ∧
    ((∃ token newHash tokenHash, c.pos = .resetting input (.update token newHash) ∧
        P.state.answers = true ∧ presentedHash input.rawToken = some tokenHash ∧
        (P.state.tables.Spent tokenHash ∨ ∃ j d input' token', P.calls j = some d ∧
          d.pos = .resetting input' (.consume token') ∧
          presentedHash input'.rawToken = some tokenHash)) ∨
      ∃ token, c.pos = .resetting input (.consume token) ∧ P.state.answers = false)

/-- The invariant of the runs without misuse. -/
structure SingleUse (P : Pool ι World CredentialPos) : Prop where
  found : ∀ i c token tokenHash, P.calls i = some c → c.pos.token = some token →
    c.pos.presents = some tokenHash → P.state.tables.HoldsToken token.id tokenHash
  marked : ∀ i c, P.calls i = some c → c.mark.isSome = true → c.pos.hasUpdated = true
  settled : ∀ i c tokenHash, P.calls i = some c → c.pos.presents = some tokenHash →
    c.mark.isSome = true → (∃ input token, c.pos = .resetting input (.consume token)) ∨
      P.state.tables.Spent tokenHash
  single : ∀ i j c d tokenHash, P.calls i = some c → P.calls j = some d →
    c.pos.presents = some tokenHash → d.pos.presents = some tokenHash →
    c.mark.isSome = true → d.mark.isSome = true → i = j

/-- Without calls nothing has been used. -/
lemma singleUse_idle {w : World} : SingleUse (Pool.idle ι CredentialPos w) :=
  ⟨fun _ _ _ _ hc => (nomatch hc), fun _ _ hc => (nomatch hc), fun _ _ _ hc => (nomatch hc),
    fun _ _ _ _ _ hc => (nomatch hc)⟩

variable {P Q : Pool ι World CredentialPos} {turn : Turn ι} {b c : Call CredentialPos} {i : ι}
  {id : Uuid} {tokenHash : String}

/-- What a call with a mark that presents a token was before the step. -/
inductive Before (P Q : Pool ι World CredentialPos) (turn : Turn ι) (i : ι) (c : Call CredentialPos) :
    Prop
  | goes (b : Call CredentialPos) (h : P.calls i = some b) (mark : c.mark = b.mark)
      (presents : c.pos.presents = b.pos.presents)
      (pos : b.pos.consumes = true → c.pos = b.pos)
  | consumes (b : Call CredentialPos) (h : P.calls i = some b) (mark : c.mark = b.mark)
      (presents : c.pos.presents = b.pos.presents) {input token}
      (pos : b.pos = .resetting input (.consume token))
      (tables : Q.state.tables = P.state.tables.consumeToken token.id P.state.now)
  | resets (b : Call CredentialPos) (h : P.calls i = some b) (turn : turn = .moves i)
      {input token newHash} (pos : b.pos = .resetting input (.update token newHash))
      (answered : P.state.answers = true) (now : c.pos = .resetting input (.consume token))

/-- A call that stored its hash before the step presents the same token as it did. -/
lemma Before.old (h : Before P Q turn i c) :
    (∃ b, P.calls i = some b ∧ b.mark = c.mark ∧ b.pos.presents = c.pos.presents) ∨
      turn = .moves i ∧ P.state.answers = true ∧ ∃ b input token newHash, P.calls i = some b ∧
        b.pos = .resetting input (.update token newHash) ∧ c.pos.presents = b.pos.presents := by
  cases h with
  | goes b hb mark presents _ => exact Or.inl ⟨b, hb, mark.symm, presents.symm⟩
  | consumes b hb mark presents _ _ => exact Or.inl ⟨b, hb, mark.symm, presents.symm⟩
  | resets b hb hturn pos answered now =>
    exact Or.inr ⟨hturn, answered, b, _, _, _, hb, pos, by rw [now, pos]; rfl⟩

/-- No redemption stores its hash on the strength of a token that has served before. -/
lemma SingleUse.not_again (hP : SingleUse P) (hmisuse : ¬ Misuses P i) {input token newHash}
    (hb : P.calls i = some b) (hpos : b.pos = .resetting input (.update token newHash))
    (hanswers : P.state.answers = true) (hpresents : b.pos.presents = some tokenHash) {j : ι}
    {d : Call CredentialPos} (hd : P.calls j = some d) (hdpresents : d.pos.presents = some tokenHash) :
    d.mark.isSome = false := by
  rw [← Bool.not_eq_true]
  intro hmark
  rw [hpos] at hpresents
  refine hmisuse ⟨b, input, hb, Or.inl ⟨token, newHash, tokenHash, hpos, hanswers, hpresents, ?_⟩⟩
  rcases hP.settled j d tokenHash hd hdpresents hmark with ⟨input', token', hconsume⟩ | hspent
  · rw [hconsume] at hdpresents
    exact Or.inr ⟨j, d, input', token', hd, hconsume, hdpresents⟩
  · exact Or.inl hspent

variable [Argon2]

/-- A step leaves the tokens alone or consumes one. -/
lemma Proceeds.tokens {p q : CredentialPos} {w w' : World} (h : Proceeds p w q w') :
    w'.tables.passwordResetTokens = w.tables.passwordResetTokens ∨
      ∃ id now, w'.tables.passwordResetTokens = (w.tables.consumeToken id now).passwordResetTokens := by
  cases h with
  | consumes _ tables =>
    rw [tables]
    exact Or.inr ⟨_, _, rfl⟩
  | rehashes _ tables =>
    rw [tables]
    exact Or.inl rfl
  | changes _ tables =>
    rw [tables]
    exact Or.inl rfl
  | resets _ tables =>
    rw [tables]
    exact Or.inl rfl
  | finds _ _ tables => exact Or.inl (by rw [tables])
  | fails _ tables => exact Or.inl (by rw [tables])
  | hashes _ _ _ tables => exact Or.inl (by rw [tables])
  | goes _ _ tables => exact Or.inl (by rw [tables])

/-- A token that a call has found was found before or is stored. -/
lemma Proceeds.found {p q : CredentialPos} {w w' : World} (h : Proceeds p w q w')
    {token : PasswordResetToken} (htoken : q.token = some token)
    (hpresents : q.presents = some tokenHash) :
    p.token = some token ∧ p.presents = some tokenHash ∨
      w.tables.HoldsToken token.id tokenHash := by
  cases h with
  | goes _ continues _ =>
    exact Or.inl ⟨continues.token ▸ htoken, continues.presents ▸ hpresents⟩
  | hashes _ _ continues _ =>
    exact Or.inl ⟨continues.token ▸ htoken, continues.presents ▸ hpresents⟩
  | resets _ _ => exact Or.inl ⟨htoken, hpresents⟩
  | consumes _ _ => exact Or.inl ⟨htoken, hpresents⟩
  | fails _ _ => exact Or.inl ⟨htoken, hpresents⟩
  | rehashes _ _ => cases htoken
  | changes _ _ => cases htoken
  | @finds input tokenHash' token' _ _ presented found _ =>
    obtain rfl : token' = token := Option.some.inj htoken
    obtain rfl : tokenHash' = tokenHash := Option.some.inj (presented.symm.trans hpresents)
    have hmem := List.mem_of_find?_eq_some found
    have hvalid := List.find?_some found
    simp only [Bool.and_eq_true, decide_eq_true_eq] at hvalid
    exact Or.inr ⟨token', hmem, rfl, hvalid.1.1⟩

variable [JsonWebToken]

/-- A call that has stored its hash goes on unless it fails to mark its token. -/
lemma not_misuse (hmisuse : ¬ Misuses P i) (there : P.calls i = some b)
    (step : b.pos.next P.state = some (c.pos, Q.state))
    (hup : b.pos.hasUpdated = true ∨ b.pos.decisive c.pos = true) : c.pos.hasUpdated = true := by
  rcases (proceeds_of_next step).keeps_updated hup with hc | ⟨hunanswered, input, token, hpos⟩
  · exact hc
  · exact absurd ⟨b, input, there, Or.inr ⟨token, hpos, hunanswered⟩⟩ hmisuse

variable [DecidableEq ι]

/-- A step of the pool. -/
abbrev UseStep (ι : Type) [DecidableEq ι] := Pool.Step (credentialSystem ι KeepsTokens)

/-- The stored tokens are the same after a step, but for one that may be marked as used. -/
lemma tokens_of_step (h : UseStep ι P turn Q) :
    Q.state.tables.passwordResetTokens = P.state.tables.passwordResetTokens ∨
      ∃ id now, Q.state.tables.passwordResetTokens =
        (P.state.tables.consumeToken id now).passwordResetTokens := by
  cases h.cause with
  | begins _ _ state => exact Or.inl (by rw [state])
  | elsewhere _ env => exact Or.inl env
  | moved i b c _ _ _ step _ => exact (proceeds_of_next step).tokens

/-- A token that is held stays held. -/
lemma holdsToken_of_step (h : UseStep ι P turn Q) (hh : P.state.tables.HoldsToken id tokenHash) :
    Q.state.tables.HoldsToken id tokenHash := by
  unfold Tables.HoldsToken
  rcases tokens_of_step h with hsame | ⟨id', now, hconsumed⟩
  · rw [hsame]
    exact hh
  · rw [hconsumed]
    exact hh.consumeToken

/-- A spent token stays spent. -/
lemma spent_of_step (h : UseStep ι P turn Q) (hh : P.state.tables.Spent tokenHash) :
    Q.state.tables.Spent tokenHash := by
  unfold Tables.Spent
  rcases tokens_of_step h with hsame | ⟨id', now, hconsumed⟩
  · rw [hsame]
    exact hh
  · rw [hconsumed]
    exact hh.consumeToken

/-- A marked call was marked before, or its step is the one that marks it. -/
lemma before_of_mark (h : UseStep ι P turn Q) (hsafe : ∀ i, turn = .moves i → ¬ Misuses P i)
    (hc : Q.calls i = some c) (hmark : c.mark.isSome = true)
    (hpresents : c.pos.presents = some tokenHash) : Before P Q turn i c := by
  cases h.call hc with
  | same hold => exact .goes c hold rfl rfl fun _ => rfl
  | opened _ _ _ hcall _ =>
    rw [hcall] at hmark
    cases hmark
  | moved hturn b there step hcall =>
    have hmisuse := hsafe i hturn
    obtain ⟨p, w, q, w', hp, hw, hq, hw', hproceeds⟩ : ∃ p w q w', b.pos = p ∧ P.state = w ∧
        c.pos = q ∧ Q.state = w' ∧ Proceeds p w q w' :=
      ⟨_, _, _, _, rfl, rfl, rfl, rfl, proceeds_of_next step⟩
    have hkeep : p.decisive q = false → c.mark = b.mark := by
      intro hdecisive
      rw [hcall]
      exact Pool.moved_mark_of_not (by rw [hp, hq]; exact hdecisive)
    -- most steps neither set nor drop the mark
    have hgoes : Continues p q → Before P Q turn i c := fun h =>
      .goes b there (hkeep h.decisive) (by rw [hp, hq]; exact h.presents) fun hconsumes => by
        rw [hp, h.consumes] at hconsumes
        cases hconsumes
    cases hproceeds with
    | goes _ continues _ => exact hgoes continues
    | hashes _ _ continues _ => exact hgoes continues
    | rehashes _ _ => exact hgoes continues_loggingIn
    | finds _ _ _ =>
      refine .goes b there (hkeep rfl) (by rw [hp, hq]; rfl) fun hconsumes => ?_
      rw [hp] at hconsumes
      cases hconsumes
    | changes _ _ =>
      rw [hq] at hpresents
      cases hpresents
    | resets answered _ => exact .resets b there hturn hp (by rw [hw]; exact answered) hq
    | consumes _ tables =>
      refine .consumes b there (hkeep rfl) (by rw [hp, hq]; rfl) hp ?_
      rw [hw', hw]
      exact tables
    | @fails input token _ _ unanswered _ =>
      -- a redemption that has stored its hash does not fail
      exact absurd ⟨b, input, there, Or.inr ⟨token, hp, by rw [hw]; exact unanswered⟩⟩ hmisuse

/-- Every step that is no misuse keeps the invariant. -/
lemma SingleUse.step (h : UseStep ι P turn Q) (hsafe : ∀ i, turn = .moves i → ¬ Misuses P i)
    (hP : SingleUse P) : SingleUse Q := by
  refine ⟨fun i c token tokenHash hc htoken hpresents => ?_, fun i c hc hmark => ?_,
    fun i c tokenHash hc hpresents hmark => ?_,
    fun i j c d tokenHash hc hd hcpresents hdpresents hcmark hdmark => ?_⟩
  -- what a call has found is a row of the table
  · refine holdsToken_of_step h ?_
    cases h.call hc with
    | same hold => exact hP.found i c token tokenHash hold htoken hpresents
    | opened _ _ starts _ _ =>
      rw [CredentialPos.token_of_starts starts] at htoken
      cases htoken
    | moved _ b there step _ =>
      rcases (proceeds_of_next step).found htoken hpresents with ⟨hb, hbpresents⟩ | hheld
      · exact hP.found i b token tokenHash there hb hbpresents
      · exact hheld
  · cases h.call hc with
    | same hold => exact hP.marked i c hold hmark
    | opened _ _ _ hcall _ =>
      rw [hcall] at hmark
      cases hmark
    | moved hturn b there step hcall =>
      -- a call is marked when it stores its hash, which the condition rules out for a misuse
      refine not_misuse (hsafe i hturn) there step ?_
      cases hdecisive : b.pos.decisive c.pos with
      | true => exact Or.inr rfl
      | false =>
        rw [hcall, Pool.moved_mark_of_not hdecisive] at hmark
        exact Or.inl (hP.marked i b there hmark)
  · cases before_of_mark h hsafe hc hmark hpresents with
    | goes b hb mark presents pos =>
      rw [mark] at hmark
      rw [presents] at hpresents
      rcases hP.settled i b tokenHash hb hpresents hmark with ⟨input, token, hconsume⟩ | hspent
      · exact Or.inl ⟨input, token, (pos (by rw [hconsume]; rfl)).trans hconsume⟩
      · exact Or.inr (spent_of_step h hspent)
    | @consumes b hb mark presents input token pos tables =>
      rw [presents] at hpresents
      rw [tables]
      exact Or.inr (Tables.spent_consumeToken
        (hP.found i b token tokenHash hb (by rw [pos]; rfl) hpresents))
    | resets b hb _ _ _ now => exact Or.inl ⟨_, _, now⟩
  -- two calls that have reset with one token: at most one of them did so in this step
  · have hci := (before_of_mark h hsafe hc hcmark hcpresents).old
    have hdj := (before_of_mark h hsafe hd hdmark hdpresents).old
    rcases hci with ⟨b, hb, hbmark, hbpresents⟩ |
      ⟨hi, hanswers, b, input, token, newHash, hb, hpos, hbpresents⟩
    · rcases hdj with ⟨e, he, hemark, hepresents⟩ |
        ⟨hj, hanswers, e, input, token, newHash, he, hpos, hepresents⟩
      · exact hP.single i j b e tokenHash hb he (hbpresents.trans hcpresents)
          (hepresents.trans hdpresents) (hbmark ▸ hcmark) (hemark ▸ hdmark)
      · have hold := hP.not_again (hsafe j hj) he hpos hanswers (hepresents.symm.trans hdpresents) hb
          (hbpresents.trans hcpresents)
        rw [hbmark, hcmark] at hold
        cases hold
    · rcases hdj with ⟨e, he, hemark, hepresents⟩ | ⟨hj, -⟩
      · have hold := hP.not_again (hsafe i hi) hb hpos hanswers (hbpresents.symm.trans hcpresents) he
          (hepresents.trans hdpresents)
        rw [hemark, hdmark] at hold
        cases hold
      · rw [hi] at hj
        cases hj
        rfl

/-- A reset that has stored its hash does not fail. -/
lemma updated_step (h : UseStep ι P turn Q) (hsafe : ∀ i, turn = .moves i → ¬ Misuses P i)
    (hP : ∃ c, P.calls i = some c ∧ (c.pos.isReset = false ∨ c.pos.hasUpdated = true)) :
    ∃ c, Q.calls i = some c ∧ (c.pos.isReset = false ∨ c.pos.hasUpdated = true) := by
  obtain ⟨b, hb, hup⟩ := hP
  rcases h.kept hb with hsame | ⟨hturn, c, hc, step, -⟩
  · exact ⟨b, hsame, hup⟩
  · have hproceeds := proceeds_of_next step
    refine ⟨c, hc, ?_⟩
    rcases hup with hreset | hup
    · exact Or.inl (hproceeds.isReset.trans hreset)
    · exact Or.inr (not_misuse (hsafe i hturn) hb step (Or.inl hup))

/-- In a run without misuse a reset token serves for one password update at most, and a redemption
that returns an error has changed no table. -/
theorem token_used_once (w : World) (ms : List (Move (Pool ι World CredentialPos) (Turn ι)))
    (P : Pool ι World CredentialPos)
    (run : Run (UseStep ι) (Pool.idle ι CredentialPos w) ms P)
    (safe : ∀ m ∈ ms, ∀ i, m.label = .moves i → ¬ Misuses m.pre i) :
    (∀ i j c d tokenHash, P.calls i = some c → P.calls j = some d →
      c.pos.presents = some tokenHash → d.pos.presents = some tokenHash →
      c.mark.isSome = true → d.mark.isSome = true → i = j) ∧
      ∀ i c input token e, P.calls i = some c →
        c.pos = .resetting input (.done token (.error e)) →
        c.mark = none ∧ ∀ m ∈ ms, m.label = .moves i → m.post.state.tables = m.pre.state.tables := by
  have hP : SingleUse P := run.invariant SingleUse
    (fun m => ∀ i, m.label = .moves i → ¬ Misuses m.pre i) singleUse_idle
    (fun _ _ _ step hs hP => hP.step step hs) safe
  refine ⟨hP.single, fun i c input token e hc hpos => ⟨?_, fun m hm hlabel => ?_⟩⟩
  · rw [← Option.not_isSome_iff_eq_none]
    intro hmark
    have hup := hP.marked i c hc hmark
    rw [hpos] at hup
    cases hup
  · have hstep := run.step_of_mem hm
    by_contra hchanged
    obtain ⟨before, after, hms, -, hafter⟩ := run.split hm
    -- the call has stored its hash or marked its token in this move, so it cannot have failed
    have hup : ∃ d, m.post.calls i = some d ∧ (d.pos.isReset = false ∨ d.pos.hasUpdated = true) := by
      cases hstep.cause with
      | begins j h state => exact absurd (by rw [state]) hchanged
      | elsewhere h env =>
        rw [h] at hlabel
        cases hlabel
      | moved j b d h there here step hcall =>
        rw [h] at hlabel
        cases hlabel
        refine ⟨d, here, ?_⟩
        cases hreset : d.pos.isReset with
        | false => exact Or.inl rfl
        | true =>
          rw [← Bool.not_eq_false]
          exact Or.inr fun hno => hchanged ((proceeds_of_next step).tables_of_reset hreset hno)
    obtain ⟨d, hd, hend⟩ := hafter.invariant
      (fun R => ∃ d, R.calls i = some d ∧ (d.pos.isReset = false ∨ d.pos.hasUpdated = true))
      (fun m => ∀ i, m.label = .moves i → ¬ Misuses m.pre i) hup
      (fun _ _ _ step hs hR => updated_step step hs hR)
      (fun n hn => safe n (hms ▸ List.mem_append_right _ (List.mem_cons_of_mem _ hn)))
    cases hc.symm.trans hd
    rw [hpos] at hend
    rcases hend with hend | hend <;> cases hend

end

section Runs

/-- A token has been issued to the owner of `acme`. -/
def resetTables : Tables :=
  afterRequests plainPlatform .twoTenants
    [(.passwordResetRequest 3600 ⟨"alice"⟩, [List.replicate 32 7])]

/-- The owner, or whoever else holds the token, redeems it. -/
def redeemToken (i : Client) (newPassword : String) : Act Client CredentialPos :=
  .begins i (.resetting ⟨hexEncode (List.replicate 32 7), newPassword⟩ .find)

/-- A redemption that stores its hash is the first one to do so, and one that marks its token
succeeds. -/
def usesOnce [Sha256] (P : Pool Client World CredentialPos) : Turn Client → Bool
  | .moves i =>
    match P.calls i with
    | some ⟨.resetting input (.update _ _), _, _, _⟩ =>
      (presentedHash input.rawToken).all (fun tokenHash =>
        !P.state.tables.passwordResetTokens.any
          (fun p => p.tokenHash = tokenHash && p.usedAt.isSome) &&
        Client.all.all (fun j => (P.calls j).all (fun d =>
          !(d.pos.consumes && d.pos.presents = some tokenHash))))
    | some ⟨.resetting _ (.consume _), _, _, _⟩ => P.state.answers
    | _ => true
  | _ => true

/-- A call that uses its token once does not misuse it. -/
lemma not_misuses [Sha256] {P : Pool Client World CredentialPos} {i : Client}
    (h : usesOnce P (.moves i) = true) : ¬ Misuses P i := by
  rintro ⟨⟨pos, began, mark, ended⟩, input, hc,
    ⟨token, newHash, tokenHash, hpos, -, hpresented, hused⟩ | ⟨token, hpos, hunanswered⟩⟩
  · obtain rfl : pos = .resetting input (.update token newHash) := hpos
    simp only [usesOnce, hc, hpresented, Option.all_some, Bool.and_eq_true] at h
    obtain ⟨hunused, hnone⟩ := h
    rcases hused with ⟨p, hp, hhash, hspent⟩ | ⟨j, d, input', token', hd, hconsume, hpresents⟩
    · have hany : P.state.tables.passwordResetTokens.any
          (fun p => p.tokenHash = tokenHash && p.usedAt.isSome) = true :=
        Table.any_eq_true.mpr ⟨p, hp, by simp [hhash, hspent]⟩
      rw [hany] at hunused
      cases hunused
    · have hj := List.all_eq_true.mp hnone j j.mem_all
      rw [hd] at hj
      simp [hconsume, CredentialPos.consumes, CredentialPos.presents, hpresents] at hj
  · obtain rfl : pos = .resetting input (.consume token) := hpos
    simp only [usesOnce, hc] at h
    rw [hunanswered] at h
    cases h

/-- Two redemptions one after the other. -/
def secondUse : List (Act Client CredentialPos) :=
  redeemToken .first "correct horse" :: Act.steps .first 5 ++
    redeemToken .second "battery staple" :: Act.steps .second 2

/-- Two redemptions both find the token unused. -/
def doubleUse : List (Act Client CredentialPos) :=
  redeemToken .first "correct horse" :: Act.steps .first 1 ++
    redeemToken .second "battery staple" :: Act.steps .second 1 ++
    Act.steps .first 4 ++ Act.steps .second 4

/-- A single redemption. -/
def failedUse : List (Act Client CredentialPos) :=
  redeemToken .first "correct horse" :: Act.steps .first 4

/-- A second redemption of a token is refused and changes no table. -/
theorem token_used_once_refused :
    ∃ ms P, Run (@UseStep ⟨id⟩ plainPlatform.toArgon2 plainPlatform.toJsonWebToken Client _)
        (Pool.idle Client CredentialPos (.calm resetTables 0)) ms P ∧
      ∀ m ∈ ms, m.label = .moves .second → m.post.state.tables = m.pre.state.tables := by
  let _ : Platform := plainPlatform
  let _ : Sha256 := ⟨id⟩
  have hends : (performCredentials KeepsTokens usesOnce (.calm resetTables 0) secondUse).map
      (fun P => P.calls .second) =
      some (some ⟨.resetting ⟨hexEncode (List.replicate 32 7), "battery staple"⟩
        (.done none (.error .invalidToken)), 7, none, some 9⟩) := by decide +kernel
  obtain ⟨P, hP, hcall⟩ := Option.map_eq_some_iff.mp hends
  obtain ⟨ms, hrun, hok⟩ := Pool.run_of_perform (fun h => h) hP
  have hsafe : ∀ m ∈ ms, ∀ i, m.label = .moves i → ¬ Misuses m.pre i :=
    fun m hm i hi => not_misuses (hi ▸ hok m hm)
  exact ⟨ms, P, hrun, ((token_used_once _ ms P hrun hsafe).2 .second _ _ _ _ hcall rfl).2⟩

/-- Two redemptions of one token that overlap both store their hash and return `Ok`; and a single
one that fails to mark the token returns an error although it has stored its hash. -/
theorem token_used_twice :
    (∃ ms P, Run (@UseStep ⟨id⟩ plainPlatform.toArgon2 plainPlatform.toJsonWebToken Client _)
        (Pool.idle Client CredentialPos (.calm resetTables 0)) ms P ∧
      ∃ c d tokenHash, P.calls .first = some c ∧ P.calls .second = some d ∧
        @CredentialPos.presents ⟨id⟩ c.pos = some tokenHash ∧
        @CredentialPos.presents ⟨id⟩ d.pos = some tokenHash ∧
        c.mark.isSome = true ∧ d.mark.isSome = true) ∧
      ∃ ms P, Run (@UseStep ⟨id⟩ plainPlatform.toArgon2 plainPlatform.toJsonWebToken Client _)
          (Pool.idle Client CredentialPos
            { World.calm resetTables 0 with faults := [false, false, true] }) ms P ∧
        ∃ c input token, P.calls .first = some c ∧
          c.pos = .resetting input (.done token (.error .internal)) ∧ c.mark.isSome = true := by
  let _ : Platform := plainPlatform
  let _ : Sha256 := ⟨id⟩
  constructor
  · have hends : (performCredentials KeepsTokens (fun _ _ => true) (.calm resetTables 0)
        doubleUse).map (fun P => ((P.calls .first).map (fun c => (c.pos.presents, c.mark)),
          (P.calls .second).map (fun c => (c.pos.presents, c.mark)))) =
        some (some (some (hexEncode (List.replicate 32 7)), some 6),
          some (some (hexEncode (List.replicate 32 7)), some 10)) := by decide +kernel
    obtain ⟨P, hP, hcalls⟩ := Option.map_eq_some_iff.mp hends
    obtain ⟨ms, hrun, -⟩ := Pool.run_of_perform (fun h => h) hP
    obtain ⟨hfirst, hsecond⟩ := Prod.mk.inj hcalls
    obtain ⟨c, hc, hcpos⟩ := Option.map_eq_some_iff.mp hfirst
    obtain ⟨d, hd, hdpos⟩ := Option.map_eq_some_iff.mp hsecond
    obtain ⟨hcpresents, hcmark⟩ := Prod.mk.inj hcpos
    obtain ⟨hdpresents, hdmark⟩ := Prod.mk.inj hdpos
    exact ⟨ms, P, hrun, c, d, _, hc, hd, hcpresents, hdpresents, by rw [hcmark]; rfl,
      by rw [hdmark]; rfl⟩
  · have hends : (performCredentials KeepsTokens (fun _ _ => true)
        { World.calm resetTables 0 with faults := [false, false, true] } failedUse).map
        (fun P => P.calls .first) =
        some (some ⟨.resetting ⟨hexEncode (List.replicate 32 7), "correct horse"⟩
          (.done (resetTables.passwordResetTokens.rows.head?) (.error .internal)),
          1, some 4, some 5⟩) := by decide +kernel
    obtain ⟨P, hP, hcall⟩ := Option.map_eq_some_iff.mp hends
    obtain ⟨ms, hrun, -⟩ := Pool.run_of_perform (fun h => h) hP
    exact ⟨ms, P, hrun, _, _, _, hcall, rfl, rfl⟩

end Runs
end Egras
