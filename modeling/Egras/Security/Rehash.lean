import Egras.Security.Stepwise

/-!
# Whether a rehash keeps a password change

A login whose stored hash was made under other parameters hashes its password again and stores the
result, without looking at what is stored by then. If the password has been changed or reset since
the login read the hash, this puts the old password back (`StaleRehash`). In the runs in which every
rehash meets a stored hash that still verifies the password of its login, the stored hash is one of
the password stored last by a change or a reset (`rehash_keeps_password`).
-/

namespace Egras
open Lib

/-- The password hash that is stored for a user. -/
def Tables.storedHash (t : Tables) (userId : Uuid) : Option String :=
  (t.users.find? userId).map User.passwordHash

/-- What happens besides the calls: anything that leaves the stored hashes alone. -/
def KeepsHashes (w w' : World) : Prop :=
  ∀ userId, w'.tables.storedHash userId = w.tables.storedHash userId

/-- A new password is stored for its user, the others keep theirs. -/
lemma storedHash_setPasswordHash {t : Tables} {userId id : Uuid} {hash : String} {now : Timestamp} :
    (t.setPasswordHash userId hash now).storedHash id =
      if id = userId then (t.storedHash id).map (fun _ => hash) else t.storedHash id := by
  unfold Tables.storedHash
  rw [Tables.users_find?_setPasswordHash]
  cases hfind : t.users.find? id with
  | none => simp
  | some u =>
    have hid : u.id = id := (Table.find?_eq_some.mp hfind).2
    simp only [Option.map_some, hid]
    split <;> rfl

section
variable {ι : Type} [Argon2] [JsonWebToken] [Sha256]

/-- A login is about to store a hash of its password although the hash stored by now does not verify
that password. -/
def StaleRehash (P : Pool ι World CredentialPos) (i : ι) : Prop :=
  ∃ c config input user newHash hash, P.calls i = some c ∧
    c.pos = .loggingIn config input (.update user newHash) ∧ P.state.answers = true ∧
    P.state.tables.storedHash user.id = some hash ∧
    Argon2.verifyPassword input.password hash ≠ some true

/-- The change or reset of a user's password that stored its hash last, and when. -/
structure Latest (P : Pool ι World CredentialPos) (userId : Uuid) (d : Call CredentialPos) (m : ℕ) :
    Prop where
  there : ∃ j, P.calls j = some d
  changes : d.pos.changes userId = true
  mark : d.mark = some m
  last : ∀ k e n, P.calls k = some e → e.pos.changes userId = true → e.mark = some n → n ≤ m

/-- The stored hash of a user, if there is one, is a hash of a password. -/
def Hashed (t : Tables) (userId : Uuid) (password : String) : Prop :=
  ∀ hash, t.storedHash userId = some hash → ∃ salt, Argon2.hashPassword password salt = some hash

/-- The invariant of the runs without stale rehashes. -/
structure Lasting (P : Pool ι World CredentialPos) : Prop where
  timely : ∀ i c, P.calls i = some c → Pool.Timely (credentialSystem ι KeepsHashes) P c
  pending : ∀ i c newHash, P.calls i = some c → c.pos.newHash = some newHash →
    ∃ salt, Argon2.hashPassword c.pos.password salt = some newHash
  marked : ∀ i c, P.calls i = some c → c.pos.hasUpdated = true → c.mark.isSome = true
  unmarked : ∀ i c, P.calls i = some c → c.pos.hasUpdated = false → c.pos.final = false →
    c.mark = none
  stored : ∀ i c n userId, P.calls i = some c → c.pos.changes userId = true → c.mark = some n →
    ∃ d m, Latest P userId d m ∧ Hashed P.state.tables userId d.pos.password

/-- A call one step later, when the step does not store the hash of a change or a reset. -/
structure Follows (b c : Call CredentialPos) : Prop where
  password : c.pos.password = b.pos.password
  mark : c.mark = b.mark
  changes : c.mark.isSome = true → ∀ id, c.pos.changes id = b.pos.changes id

/-- A call one step later, when the step stores the hash of a change or a reset. -/
structure Stores (P Q : Pool ι World CredentialPos) (userId : Uuid) (newHash : String)
    (b c : Call CredentialPos) : Prop where
  password : c.pos.password = b.pos.password
  pending : b.pos.newHash = some newHash
  changes : ∀ id, c.pos.changes id = decide (userId = id)
  mark : c.mark = some (P.time + 1)
  tables : Q.state.tables = P.state.tables.setPasswordHash userId newHash P.state.now

/-- What a step of a call does to its mark and to the stored hashes. -/
inductive Marks (P Q : Pool ι World CredentialPos) (b c : Call CredentialPos) : Prop
  | keeps (follows : Follows b c) (users : Q.state.tables.users = P.state.tables.users)
  | rehashes (follows : Follows b c) {config input user newHash}
      (pos : b.pos = .loggingIn config input (.update user newHash))
      (answered : P.state.answers = true)
      (tables : Q.state.tables =
        P.state.tables.setPasswordHash user.id newHash P.state.now)
  | stores {userId newHash} (stores : Stores P Q userId newHash b c)

variable {P Q : Pool ι World CredentialPos} {turn : Turn ι} {b c : Call CredentialPos} {i : ι}
  {userId : Uuid}

/-- Every step of a call does one of these. -/
lemma marks_of_step (hP : Lasting P) (there : P.calls i = some b)
    (step : b.pos.next P.state = some (c.pos, Q.state))
    (hcall : c = Pool.moved (credentialSystem ι KeepsHashes) P b c.pos) : Marks P Q b c := by
  obtain ⟨p, w, q, w', hp, hw, hq, hw', hproceeds⟩ : ∃ p w q w', b.pos = p ∧ P.state = w ∧
      c.pos = q ∧ Q.state = w' ∧ Proceeds p w q w' :=
    ⟨_, _, _, _, rfl, rfl, rfl, rfl, proceeds_of_next step⟩
  have hmark : p.decisive q = false → c.mark = b.mark := by
    intro hdecisive
    rw [hcall]
    exact Pool.moved_mark_of_not (by rw [hp, hq]; exact hdecisive)
  have hstamp : p.decisive q = true → c.mark = some (P.time + 1) := by
    intro hdecisive
    rw [hcall]
    exact Pool.moved_mark (by rw [hp, hq]; exact hdecisive)
  have hcontinues : Continues p q → Follows b c := fun h =>
    ⟨by rw [hp, hq]; exact h.password, hmark h.decisive,
      fun _ id => by rw [hp, hq]; exact h.changes id⟩
  cases hproceeds with
  | goes _ continues tables =>
    exact .keeps (hcontinues continues) (by rw [hw', hw, tables])
  | hashes _ _ continues tables =>
    exact .keeps (hcontinues continues) (by rw [hw', hw, tables])
  | rehashes answered tables =>
    refine .rehashes (hcontinues continues_loggingIn) hp (by rw [hw]; exact answered) ?_
    rw [hw', hw]
    exact tables
  | consumes _ tables =>
    exact .keeps ⟨by rw [hp, hq]; rfl, hmark rfl, fun _ _ => by rw [hp, hq]; rfl⟩
      (by rw [hw', hw, tables])
  | fails _ tables =>
    exact .keeps ⟨by rw [hp, hq]; rfl, hmark rfl, fun _ _ => by rw [hp, hq]; rfl⟩
      (by rw [hw', hw, tables])
  | finds _ _ tables =>
    -- a reset that has not found its token yet has no mark, so nothing is said about its user
    have hnone : c.mark = none :=
      (hmark rfl).trans (hP.unmarked i b there (by rw [hp]; rfl) (by rw [hp]; rfl))
    refine .keeps ⟨by rw [hp, hq]; rfl, hmark rfl, fun hsome => ?_⟩ (by rw [hw', hw, tables])
    rw [hnone] at hsome
    cases hsome
  | changes _ tables =>
    refine .stores ⟨by rw [hp, hq]; rfl, by rw [hp]; rfl, fun _ => by rw [hq]; rfl, hstamp rfl, ?_⟩
    rw [hw', hw]
    exact tables
  | resets _ tables =>
    refine .stores ⟨by rw [hp, hq]; rfl, by rw [hp]; rfl, fun _ => by rw [hq]; rfl, hstamp rfl, ?_⟩
    rw [hw', hw]
    exact tables

variable [DecidableEq ι]

/-- A step of the pool. -/
abbrev RehashStep (ι : Type) [DecidableEq ι] := Pool.Step (credentialSystem ι KeepsHashes)

/-- A call with a mark had it before the step or has just stored its hash. -/
lemma call_of_mark (h : RehashStep ι P turn Q) (hP : Lasting P) (hc : Q.calls i = some c)
    (hmark : c.mark.isSome = true) :
    ∃ b, P.calls i = some b ∧ (Follows b c ∨ ∃ id newHash, Stores P Q id newHash b c) := by
  cases h.call hc with
  | same hold => exact ⟨c, hold, Or.inl ⟨rfl, rfl, fun _ _ => rfl⟩⟩
  | opened _ _ _ hcall _ =>
    rw [hcall] at hmark
    cases hmark
  | moved _ b there step hcall =>
    cases marks_of_step hP there step hcall with
    | keeps follows _ => exact ⟨b, there, Or.inl follows⟩
    | rehashes follows _ _ _ => exact ⟨b, there, Or.inl follows⟩
    | stores stores => exact ⟨b, there, Or.inr ⟨_, _, stores⟩⟩

/-- A call keeps its mark. -/
lemma call_with_mark (h : RehashStep ι P turn Q) (hP : Lasting P) (hb : P.calls i = some b)
    (hmark : b.mark.isSome = true) : ∃ c, Q.calls i = some c ∧ Follows b c := by
  rcases h.kept hb with hsame | ⟨-, c, hc, step, hcall⟩
  · exact ⟨b, hsame, rfl, rfl, fun _ _ => rfl⟩
  · cases marks_of_step hP hb step hcall with
    | keeps follows _ => exact ⟨c, hc, follows⟩
    | rehashes follows _ _ _ => exact ⟨c, hc, follows⟩
    | stores stores =>
      -- a call that is about to store its hash has no mark yet
      have hnone := hP.unmarked i b hb (CredentialPos.not_hasUpdated_of_newHash stores.pending)
        (CredentialPos.not_final_of_newHash stores.pending)
      rw [hnone] at hmark
      cases hmark

/-- The stored hash of a user stays one of a password unless a change or a reset stores another. -/
lemma Hashed.step (hexact : Argon2Exact) (h : RehashStep ι P turn Q) (hP : Lasting P)
    (hsafe : ∀ i, turn = .moves i → ¬ StaleRehash P i)
    (hnone : ∀ j b c newHash, P.calls j = some b → Q.calls j = some c →
      ¬ Stores P Q userId newHash b c)
    {password : String} (hh : Hashed P.state.tables userId password) :
    Hashed Q.state.tables userId password := by
  cases h.cause with
  | begins _ _ state =>
    rw [state]
    exact hh
  | elsewhere _ env =>
    unfold Hashed
    rw [env userId]
    exact hh
  | moved i b c hturn there here step hcall =>
    cases marks_of_step hP there step hcall with
    | keeps _ users =>
      unfold Hashed Tables.storedHash
      rw [users]
      exact hh
    | @stores id newHash stores =>
      -- the hash of another user is stored
      have hid : userId ≠ id := by
        rintro rfl
        exact hnone i b c newHash there here stores
      unfold Hashed
      rw [stores.tables, storedHash_setPasswordHash, if_neg hid]
      exact hh
    | @rehashes _ config input user newHash pos answered tables =>
      intro hash hstored
      rw [tables, storedHash_setPasswordHash] at hstored
      split at hstored
      · rename_i hid
        subst hid
        obtain ⟨old, hold, rfl⟩ := Option.map_eq_some_iff.mp hstored
        have hverify : Argon2.verifyPassword input.password old = some true := by
          by_contra hstale
          exact hsafe i hturn
            ⟨b, config, input, user, newHash, old, there, pos, answered, hold, hstale⟩
        obtain ⟨salt, hhashed⟩ := hh old hold
        rw [hexact.hashed hhashed] at hverify
        have hsame : input.password = password := of_decide_eq_true (Option.some.inj hverify)
        rw [← hsame]
        have hpending := hP.pending i b newHash there (by rw [pos]; rfl)
        rw [pos] at hpending
        exact hpending
      · exact hh hash hstored

/-- The change or reset that was the latest one stays so unless there is a later one. -/
lemma Latest.step (h : RehashStep ι P turn Q) (hP : Lasting P) {d : Call CredentialPos} {m : ℕ}
    (hd : Latest P userId d m) (hnone : ∀ j b c newHash, P.calls j = some b → Q.calls j = some c →
      ¬ Stores P Q userId newHash b c) :
    ∃ e, Latest Q userId e m ∧ e.pos.password = d.pos.password := by
  obtain ⟨⟨j, there⟩, changes, mark, last⟩ := hd
  obtain ⟨e, he, hfollows⟩ := call_with_mark h hP there (by rw [mark]; rfl)
  have hmark : e.mark = some m := hfollows.mark.trans mark
  refine ⟨e, ⟨⟨j, he⟩, ?_, hmark, fun k c n hk hchanges hn => ?_⟩, hfollows.password⟩
  · rw [hfollows.changes (by rw [hmark]; rfl)]
    exact changes
  · obtain ⟨b, hb, hback | ⟨id, newHash, hstores⟩⟩ := call_of_mark h hP hk (by rw [hn]; rfl)
    · rw [hback.changes (by rw [hn]; rfl)] at hchanges
      exact last k b n hb hchanges (hback.mark.symm.trans hn)
    · have hid : id = userId := of_decide_eq_true ((hstores.changes userId).symm.trans hchanges)
      subst hid
      exact absurd hstores (hnone k b c newHash hb hk)

/-- A change or a reset that stores its hash is the latest one. -/
lemma Stores.latest (h : RehashStep ι P turn Q) (hP : Lasting P) {newHash : String}
    (hb : P.calls i = some b) (hc : Q.calls i = some c) (hs : Stores P Q userId newHash b c) :
    Latest Q userId c (P.time + 1) ∧ Hashed Q.state.tables userId c.pos.password := by
  refine ⟨⟨⟨i, hc⟩, (hs.changes userId).trans (decide_eq_true rfl), hs.mark, ?_⟩, ?_⟩
  · intro k e n hk _ hn
    have hle := (Pool.Timely.step h hP.timely k e hk).mark n hn
    have htime := h.time
    omega
  · intro hash hstored
    rw [hs.tables, storedHash_setPasswordHash, if_pos rfl] at hstored
    obtain ⟨old, -, rfl⟩ := Option.map_eq_some_iff.mp hstored
    rw [hs.password]
    exact hP.pending i b newHash hb hs.pending

/-- Every step that is no stale rehash keeps the invariant. -/
lemma Lasting.step (hexact : Argon2Exact) (h : RehashStep ι P turn Q)
    (hsafe : ∀ i, turn = .moves i → ¬ StaleRehash P i) (hP : Lasting P) : Lasting Q := by
  refine ⟨Pool.Timely.step h hP.timely, fun i c newHash hc hnew => ?_, fun i c hc hup => ?_,
    fun i c hc hup hfinal => ?_, fun i c n userId hc hchanges hmark => ?_⟩
  · cases h.call hc with
    | same hold => exact hP.pending i c newHash hold hnew
    | opened _ _ starts _ _ =>
      rw [CredentialPos.newHash_of_starts starts] at hnew
      cases hnew
    | moved _ b there step hcall => exact (proceeds_of_next step).pending hnew
  · cases h.call hc with
    | same hold => exact hP.marked i c hold hup
    | opened _ _ starts _ _ =>
      rw [CredentialPos.not_hasUpdated_of_starts starts] at hup
      cases hup
    | moved _ b there step hcall =>
      rw [hcall]
      cases hdecisive : b.pos.decisive c.pos with
      | true => rw [Pool.moved_mark hdecisive]; rfl
      | false =>
        rw [Pool.moved_mark_of_not hdecisive]
        rcases (proceeds_of_next step).updated hup with hb | hb
        · exact hP.marked i b there hb
        · rw [hdecisive] at hb
          cases hb
  · cases h.call hc with
    | same hold => exact hP.unmarked i c hold hup hfinal
    | opened _ _ _ hcall _ => rw [hcall]; rfl
    | moved _ b there step hcall =>
      obtain ⟨hb, hdecisive⟩ := (proceeds_of_next step).not_updated hup hfinal
      rw [hcall, Pool.moved_mark_of_not hdecisive]
      exact hP.unmarked i b there hb (CredentialPos.final_of_next step)
  · by_cases hsome : ∃ j b c newHash, P.calls j = some b ∧ Q.calls j = some c ∧
      Stores P Q userId newHash b c
    · obtain ⟨j, b, c, newHash, hb, hc, hstores⟩ := hsome
      exact ⟨c, P.time + 1, hstores.latest h hP hb hc⟩
    · -- nobody has stored a hash for this user in this step, so the latest one did so before
      have hnone : ∀ j b c newHash, P.calls j = some b → Q.calls j = some c →
          ¬ Stores P Q userId newHash b c :=
        fun j b c newHash hb hc hs => hsome ⟨j, b, c, newHash, hb, hc, hs⟩
      obtain ⟨b, hb, hback | ⟨id, newHash, hstores⟩⟩ := call_of_mark h hP hc (by rw [hmark]; rfl)
      · rw [hback.changes (by rw [hmark]; rfl)] at hchanges
        obtain ⟨d, m, hlatest, hhashed⟩ :=
          hP.stored i b n userId hb hchanges (hback.mark.symm.trans hmark)
        obtain ⟨e, hlatest', hpassword⟩ := hlatest.step h hP hnone
        exact ⟨e, m, hlatest', hpassword ▸ hhashed.step hexact h hP hsafe hnone⟩
      · have hid : id = userId := of_decide_eq_true ((hstores.changes userId).symm.trans hchanges)
        subst hid
        exact absurd hstores (hnone i b c newHash hb hc)

omit [DecidableEq ι] in
/-- Without calls every hash lasts. -/
lemma lasting_idle {w : World} : Lasting (Pool.idle ι CredentialPos w) :=
  ⟨Pool.timely_idle, fun _ _ _ hc => (nomatch hc), fun _ _ hc => (nomatch hc),
    fun _ _ hc => (nomatch hc), fun _ _ _ _ hc => (nomatch hc)⟩

/-- In a run without stale rehashes, once a change or a reset of a user's password has returned
`Ok`, the stored hash verifies the password of the one that stored its hash last. -/
theorem rehash_keeps_password (hexact : Argon2Exact) (w : World)
    (ms : List (Move (Pool ι World CredentialPos) (Turn ι))) (P : Pool ι World CredentialPos)
    (run : Run (RehashStep ι) (Pool.idle ι CredentialPos w) ms P)
    (safe : ∀ m ∈ ms, ∀ i, m.label = .moves i → ¬ StaleRehash m.pre i) :
    ∀ i c userId, P.calls i = some c → c.pos.changes userId = true → c.pos.succeeded = true →
      ∃ d m, Latest P userId d m ∧ ∀ hash, P.state.tables.storedHash userId = some hash →
        Argon2.verifyPassword d.pos.password hash = some true := by
  have hP : Lasting P := run.invariant Lasting
    (fun m => ∀ i, m.label = .moves i → ¬ StaleRehash m.pre i) lasting_idle
    (fun _ _ _ step hs hP => hP.step hexact step hs) safe
  intro i c userId hc hchanges hsucc
  have hmark := hP.marked i c hc (CredentialPos.hasUpdated_of_succeeded hsucc)
  obtain ⟨n, hn⟩ := Option.isSome_iff_exists.mp hmark
  obtain ⟨d, m, hlatest, hhashed⟩ := hP.stored i c n userId hc hchanges hn
  refine ⟨d, m, hlatest, fun hash hstored => ?_⟩
  obtain ⟨salt, hsalt⟩ := hhashed hash hstored
  rw [hexact.hashed hsalt]
  exact congrArg some (decide_eq_true rfl)

end

section Runs

/-- The owner of `acme` has a password whose hash was made under other parameters. -/
def outdatedTables : Tables :=
  Tables.twoTenants.setPasswordHash 0x11 "m=4096,t=3,p=1$correct horse" 0

/-- The owner's new password. -/
def ownerChange : ChangePasswordInput := ⟨"correct horse", "battery staple"⟩

/-- The owner logs in under the old password. -/
def ownerLogsIn (i : Client) : Act Client CredentialPos :=
  .begins i (.loggingIn runConfig ⟨"alice", "correct horse"⟩ .find)

/-- A login that stores a hash meets one that verifies its password. -/
def rehashesFresh [Argon2] (P : Pool Client World CredentialPos) : Turn Client → Bool
  | .moves i =>
    match P.calls i with
    | some ⟨.loggingIn _ input (.update user _), _, _, _⟩ =>
      (P.state.tables.storedHash user.id).all
        (fun hash => Argon2.verifyPassword input.password hash = some true)
    | _ => true
  | _ => true

/-- A login that meets a hash of its password is not stale. -/
lemma not_staleRehash [Argon2] {P : Pool Client World CredentialPos} {i : Client}
    (h : rehashesFresh P (.moves i) = true) : ¬ StaleRehash P i := by
  rintro ⟨⟨pos, began, mark, ended⟩, config, input, user, newHash, hash, hc, hpos, -, hstored, hstale⟩
  obtain rfl : pos = .loggingIn config input (.update user newHash) := hpos
  simp only [rehashesFresh, hc, hstored] at h
  exact hstale (of_decide_eq_true h)

/-- The login has stored its hash before the change reads the user. -/
def orderlySchedule : List (Act Client CredentialPos) :=
  ownerLogsIn .first :: Act.steps .first 4 ++
    .begins .second (.changing 0x11 ownerChange .find) :: Act.steps .second 5

/-- The password is changed after the login has checked the old one and before it stores a new hash
of it. -/
def undoingSchedule : List (Act Client CredentialPos) :=
  ownerLogsIn .first :: Act.steps .first 3 ++
    .begins .second (.changing 0x11 ownerChange .find) :: Act.steps .second 5 ++
    Act.steps .first 1

/-- A password that is changed after a login has hashed the old one again stays changed. -/
theorem rehash_keeps_password_orderly :
    ∃ P, @performCredentials plainPlatform.toArgon2 plainPlatform.toJsonWebToken ⟨id⟩ KeepsHashes
        (@rehashesFresh plainPlatform.toArgon2) (.calm outdatedTables 0) orderlySchedule = some P ∧
      ∀ hash, P.state.tables.storedHash 0x11 = some hash →
        @Argon2.verifyPassword plainPlatform.toArgon2 "battery staple" hash = some true := by
  let _ : Platform := plainPlatform
  let _ : Sha256 := ⟨id⟩
  have hends : (performCredentials KeepsHashes rehashesFresh (.calm outdatedTables 0)
      orderlySchedule).map (fun P =>
        (P.calls .second, P.calls .third, (P.calls .first).map (fun c => c.pos.changes 0x11))) =
      some (some ⟨.changing 0x11 ownerChange (.done (.ok ())), 6, some 10, some 11⟩, none,
        some false) := by decide +kernel
  obtain ⟨P, hP, hcalls⟩ := Option.map_eq_some_iff.mp hends
  obtain ⟨ms, hrun, hok⟩ := Pool.run_of_perform (fun h => h) hP
  have hsafe : ∀ m ∈ ms, ∀ i, m.label = .moves i → ¬ StaleRehash m.pre i :=
    fun m hm i hi => not_staleRehash (hi ▸ hok m hm)
  obtain ⟨hchange, hnone, hlogin⟩ : _ ∧ _ ∧ _ := by simpa only [Prod.mk.injEq] using hcalls
  obtain ⟨d, m, hlatest, hverify⟩ :=
    rehash_keeps_password argon2Exact_plain _ ms P hrun hsafe .second _ 0x11 hchange rfl rfl
  refine ⟨P, hP, ?_⟩
  obtain ⟨⟨j, hd⟩, hchanges, -, -⟩ := hlatest
  cases j with
  | first =>
    rw [hd] at hlogin
    rw [Option.map_some, hchanges] at hlogin
    cases hlogin
  | second =>
    cases hchange.symm.trans hd
    exact hverify
  | third => cases hnone.symm.trans hd

/-- A login overlaps with a password change: the change returns `Ok`, no other is in progress, and
the login stores the old password again. -/
theorem rehash_undoes_change :
    ∃ ms P, Run (@RehashStep plainPlatform.toArgon2 plainPlatform.toJsonWebToken ⟨id⟩ Client _)
        (Pool.idle Client CredentialPos (.calm outdatedTables 0)) ms P ∧
      ∃ c, P.calls .second = some c ∧ c.pos = .changing 0x11 ownerChange (.done (.ok ())) ∧
        (∀ i d, P.calls i = some d → d.pos.changes 0x11 = true → i = .second) ∧
        ∃ hash, P.state.tables.storedHash 0x11 = some hash ∧
          @Argon2.verifyPassword plainPlatform.toArgon2 "battery staple" hash = some false ∧
          @Argon2.verifyPassword plainPlatform.toArgon2 "correct horse" hash = some true := by
  let _ : Platform := plainPlatform
  let _ : Sha256 := ⟨id⟩
  have hends : (performCredentials KeepsHashes (fun _ _ => true) (.calm outdatedTables 0)
      undoingSchedule).map (fun P =>
        (P.calls .second, P.calls .third, (P.calls .first).map (fun c => c.pos.changes 0x11),
          P.state.tables.storedHash 0x11)) =
      some (some ⟨.changing 0x11 ownerChange (.done (.ok ())), 5, some 9, some 10⟩, none,
        some false, some "m=19456,t=2,p=1$correct horse") := by decide +kernel
  obtain ⟨P, hP, hcalls⟩ := Option.map_eq_some_iff.mp hends
  obtain ⟨ms, hrun, -⟩ := Pool.run_of_perform (fun h => h) hP
  obtain ⟨hchange, hnone, hlogin, hstored⟩ : _ ∧ _ ∧ _ ∧ _ := by
    simpa only [Prod.mk.injEq] using hcalls
  refine ⟨ms, P, hrun, _, hchange, rfl, fun i d hd hchanges => ?_, _, hstored, by decide, by decide⟩
  cases i with
  | first =>
    rw [hd, Option.map_some, hchanges] at hlogin
    cases hlogin
  | second => rfl
  | third => cases hnone.symm.trans hd

end Runs
end Egras
