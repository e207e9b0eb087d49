import Egras.Security.Identifiers
import Egras.Service.Accountability
import Egras.Service.Persistence

/-!
# What goes on record

The one event, if any, that a demand offers the audit channel, and what it tells (`Arrival.Records`): a
protected request offers the event that its route, its principal and its answer determine; a login
whether it has succeeded and why not; a password reset that it was asked for or confirmed, or that the
token was not valid. No demand writes the audit log itself but the bootstrap, whose row names the user
that it has stored (`Arrival.Seeds`).
-/

namespace Egras
open Lib Relation

/-! ## What a program offers the channel -/

namespace AuditChannel
variable {c : AuditChannel} {e : AuditEvent}

/-- An event that is offered is refused, or it is put at the end of the queue. -/
lemma offered_cases (c : AuditChannel) (e : AuditEvent) :
    (c.closed = true ∨ c.capacity ≤ c.events.length) ∧ c.offered e = c ∨
      c.closed = false ∧ c.offered e = { c with events := c.events ++ [e] } := by
  unfold AuditChannel.offered AuditChannel.record
  by_cases hclosed : c.closed = true
  · exact Or.inl ⟨Or.inl hclosed, by rw [if_pos hclosed]⟩
  · rw [if_neg hclosed]
    by_cases hroom : c.events.length < c.capacity
    · exact Or.inr ⟨eq_false_of_ne_true hclosed, by rw [if_pos hroom]⟩
    · exact Or.inl ⟨Or.inr (not_lt.mp hroom), by rw [if_neg hroom]⟩

/-- What was in the queue is there after an offer, and nothing else but the event offered. -/
lemma mem_offered {f : AuditEvent} (h : f ∈ (c.offered e).events) :
    f ∈ c.events ∨ f = e ∧ (c.offered e).events = c.events ++ [e] := by
  rcases offered_cases c e with ⟨-, hsame⟩ | ⟨-, happends⟩
  · rw [hsame] at h
    exact Or.inl h
  · rw [happends] at h ⊢
    exact (List.mem_append.mp h).imp_right fun hf => ⟨List.mem_singleton.mp hf, rfl⟩

/-- An offer drops no event. -/
lemma mem_offered_of_mem {f : AuditEvent} (h : f ∈ c.events) : f ∈ (c.offered e).events := by
  rcases offered_cases c e with ⟨-, hsame⟩ | ⟨-, happends⟩
  · rw [hsame]
    exact h
  · rw [happends]
    exact List.mem_append_left _ h

/-- A closed channel stays as it is. -/
lemma offered_of_closed (h : c.closed = true) : c.offered e = c := by
  rcases offered_cases c e with ⟨-, hsame⟩ | ⟨hopen, -⟩
  · exact hsame
  · rw [h] at hopen
    cases hopen

end AuditChannel

section Hearing
variable {ε δ α β : Type} {E : AuditEvent → Prop} {w : World} {p : Action ε α}
  {k : α → Action ε β}

/-- A run of `p` from `w` leaves the audit channel alone, or offers it one event. -/
def Hears (E : AuditEvent → Prop) (w : World) (p : Action ε α) : Prop :=
  (p.run w).2.audit = w.audit ∨ Offered E w (p.run w).2

/-- A program that is silent. -/
lemma Hears.of_silent (h : Silent p) : Hears E w p := Or.inl (congrArg Prod.fst (h w))

/-- Nothing is heard of a value. -/
lemma Hears.ret {a : α} : Hears E w (.ret a : Action ε α) := Or.inl rfl

/-- Nothing is heard of an error. -/
lemma Hears.fail {e : ε} : Hears E w (.fail e : Action ε α) := Or.inl rfl

/-- Recording an event is heard. -/
lemma hears_record {event : Stamp → AuditEvent} (h : ∀ e, Stamped w.now event e → E e) :
    Hears E w (record event : Action ε _) := by
  obtain ⟨id, -, haudit⟩ := (notes_record : Notes event () (record event : Action ε _)) w
  exact Or.inr ⟨_, h _ ⟨id, rfl⟩, haudit⟩

/-- A first part that is heard of only when it fails. -/
lemma Hears.bind (hp : Hears E w p)
    (hreturns : ∀ a v, p.run w = (.ok a, v) → v.recorder = w.recorder)
    (hk : ∀ a v, p.run w = (.ok a, v) → v.now = w.now → Hears E v (k a)) : Hears E w (p >>= k) := by
  unfold Hears at hp ⊢
  rw [Prog.run_bind]
  cases hrun : p.run w with
  | mk r v =>
    rw [hrun] at hp
    cases r with
    | error e => exact hp
    | ok a =>
      obtain ⟨haudit, hnow⟩ := Prod.mk.inj (hreturns a v hrun)
      refine (hk a v hrun hnow).imp (·.trans haudit) fun ⟨e, he, hoffered⟩ => ⟨e, he, ?_⟩
      rw [hoffered, haudit]

/-- A first part that is silent. -/
lemma Hears.bind_silent (hp : Silent p)
    (hk : ∀ a v, p.run w = (.ok a, v) → v.now = w.now → Hears E v (k a)) : Hears E w (p >>= k) :=
  .bind (.of_silent hp) (fun _ _ hrun => hp.of_run hrun) hk

/-- A last part that is silent. -/
lemma Hears.then_silent (hp : Hears E w p) (hk : ∀ a, Silent (k a)) : Hears E w (p >>= k) := by
  have hsame : ((p >>= k).run w).2.audit = (p.run w).2.audit :=
    congrArg Prod.fst (Prog.Reads.after_bind hk)
  unfold Hears Offered
  rw [hsame]
  exact hp

/-- Errors are named differently. -/
lemma Hears.mapErr {g : ε → δ} (hp : Hears E w p) : Hears E w (p.mapErr g) := by
  unfold Hears
  rw [Prog.run_mapErr]
  exact hp

variable [Argon2]

/-- A refused login is recorded with the reason. -/
lemma hears_authenticate {input : LoginInput}
    (hunknown : (∀ user ∈ w.tables.users, ¬ user.Named input.usernameOrEmail) →
      ∀ e, Stamped w.now (.loginFailed · "not_found" input.usernameOrEmail) e → E e)
    (hwrong : ∀ user ∈ w.tables.users, user.Named input.usernameOrEmail →
      Argon2.verifyPassword input.password user.passwordHash = some false →
      ∀ e, Stamped w.now (.loginFailed · "bad_password" input.usernameOrEmail) e → E e) :
    Hears E w (authenticate input) := by
  refine .bind_silent silent_query.mapErr fun found t hquery hnow => ?_
  obtain ⟨rfl, -, -⟩ := query_eq_ok (Prog.mapErr_eq_ok hquery)
  cases hfound : w.tables.users.rows.find?
      (fun u => u.username = input.usernameOrEmail || u.email = input.usernameOrEmail) with
  | none =>
    have hnone := List.find?_eq_none.mp hfound
    refine .then_silent (hears_record fun e he => hunknown ?_ e (hnow ▸ he)) fun _ =>
      Prog.Reads.fail
    intro user huser hnamed
    exact hnone user huser (by simpa [User.Named] using hnamed)
  | some user =>
    refine .bind_silent Prog.Reads.ofExcept.mapErr fun ok t' hverify hnow' => ?_
    cases ok with
    | true => exact .ret
    | false =>
      have hrun := Prog.mapErr_eq_ok hverify
      rw [Prog.run_ofExcept] at hrun
      have hmem : user ∈ w.tables.users := List.mem_of_find?_eq_some hfound
      have hnamed : user.Named input.usernameOrEmail := by
        simpa [User.Named] using List.find?_some hfound
      have hrefuted := verifyPassword_eq_ok.mp (congrArg Prod.fst hrun)
      rw [hnow] at hnow'
      exact .then_silent (hears_record fun e he => hwrong user hmem hnamed hrefuted e (hnow' ▸ he))
        fun _ => Prog.Reads.fail

/-- Nothing is recorded of a password check that succeeds. -/
lemma recorder_authenticate {input : LoginInput} {user : User} {v : World}
    (h : (authenticate input).run w = (.ok user, v)) : v.recorder = w.recorder := by
  obtain ⟨found, t, hquery, h⟩ := Prog.bind_eq_ok h
  obtain ⟨-, rfl, -⟩ := query_eq_ok (Prog.mapErr_eq_ok hquery)
  cases found with
  | none => cases h
  | some found =>
    obtain ⟨ok, t', hverify, h⟩ := Prog.bind_eq_ok h
    have ht' : t'.recorder = w.tick.recorder := Prog.Reads.ofExcept.mapErr.of_run hverify
    cases ok with
    | false => cases h
    | true =>
      cases h
      exact ht'

/-- A login that succeeds is recorded with the first organisation of the user. -/
lemma hears_login [CaseMapping] [JsonWebToken] {config : JwtConfig} {input : LoginInput}
    (hunknown : (∀ user ∈ w.tables.users, ¬ user.Named input.usernameOrEmail) →
      ∀ e, Stamped w.now (.loginFailed · "not_found" input.usernameOrEmail) e → E e)
    (hwrong : ∀ user ∈ w.tables.users, user.Named input.usernameOrEmail →
      Argon2.verifyPassword input.password user.passwordHash = some false →
      ∀ e, Stamped w.now (.loginFailed · "bad_password" input.usernameOrEmail) e → E e)
    (hknown : ∀ user ∈ w.tables.users, user.Named input.usernameOrEmail →
      Argon2.verifyPassword input.password user.passwordHash = some true →
      ∀ first rest, w.tables.membershipsOf user.id = first :: rest →
      ∀ e, Stamped w.now (.loginSuccess · user.id first.orgId) e → E e) :
    Hears E w (login config input) := by
  refine .bind (hears_authenticate hunknown hwrong) (fun _ _ => recorder_authenticate) ?_
  intro user v₁ hrun hnow₁
  obtain ⟨hmem, hverified⟩ := authenticate_eq_ok hrun
  have hnamed : user.Named input.usernameOrEmail := authenticate_named hrun
  have hv₁ : v₁.tables = w.tables := (reads_authenticate fun _ _ => rfl).of_run hrun
  refine .bind_silent reads_opportunisticRehash fun _ v₂ hrehash hnow₂ => ?_
  have hv₂ : v₂.tables.membershipsOf user.id = v₁.tables.membershipsOf user.id := by
    have hkept : ((opportunisticRehash user input.password).run v₁).2.tables.membershipsOf user.id =
      v₁.tables.membershipsOf user.id := memberships_opportunisticRehash
    rwa [hrehash] at hkept
  refine .bind_silent silent_query.mapErr fun memberships v₃ hquery hnow₃ => ?_
  obtain ⟨hrows, -, -⟩ := query_eq_ok (Prog.mapErr_eq_ok hquery)
  rw [hv₂, hv₁] at hrows
  cases memberships with
  | nil => exact .fail
  | cons first rest =>
    refine .bind_silent reads_encodeAccessToken.mapErr fun token v₄ _ hnow₄ => ?_
    have hnow : v₄.now = w.now := hnow₄.trans (hnow₃.trans (hnow₂.trans hnow₁))
    refine .then_silent (hears_record fun e he => ?_) fun _ => Prog.Reads.ret
    exact hknown user hmem hnamed hverified first rest hrows.symm e (hnow ▸ he)

omit [Argon2] in
/-- Inserting a reset token records nothing. -/
lemma silent_insertToken {userId : Uuid} {tokenHash : String} {expiresAt : Timestamp} :
    Silent (insertToken userId tokenHash expiresAt) := by
  have hstore : Silent (do
      let id ← nowV7
      execute (fun w => do
        let p : PasswordResetToken := ⟨id, userId, tokenHash, expiresAt, none, w.now⟩
        let t ← w.tables.insertPasswordResetToken p
        return (p, t))) := Prog.Reads.bind silent_nowV7 fun _ => silent_execute
  refine Prog.Reads.bind silent_query fun pending => ?_
  dsimp only
  split
  · exact Prog.Reads.bind silent_execute fun _ => hstore
  · exact hstore

omit [Argon2] in
/-- A reset token that is issued is recorded. -/
lemma hears_passwordResetRequest [Sha256] {ttlSecs : Int} {input : PasswordResetRequestInput}
    (hknown : ∀ user ∈ w.tables.users, user.Named input.email →
      ∀ e, Stamped w.now (.passwordResetRequested · input.email) e → E e) :
    Hears E w (passwordResetRequest ttlSecs input) := by
  refine .bind_silent silent_query.mapErr fun found v₁ hquery hnow₁ => ?_
  obtain ⟨rfl, -, -⟩ := query_eq_ok (Prog.mapErr_eq_ok hquery)
  cases hfound : w.tables.users.rows.find?
      (fun u => u.username = input.email || u.email = input.email) with
  | none => exact .ret
  | some user =>
    have hmem : user ∈ w.tables.users := List.mem_of_find?_eq_some hfound
    have hnamed : user.Named input.email := by
      simpa [User.Named] using List.find?_some hfound
    refine .bind_silent silent_randomBytes fun rawBytes v₂ _ hnow₂ => ?_
    refine .bind_silent reads_utcNow fun now v₃ _ hnow₃ => ?_
    refine .bind_silent silent_insertToken.mapErr fun _ v₄ _ hnow₄ => hears_record fun e he => ?_
    have hnow : v₄.now = w.now := hnow₄.trans (hnow₃.trans (hnow₂.trans hnow₁))
    exact hknown user hmem hnamed e (hnow ▸ he)

/-- A reset is recorded as confirmed or as refused. -/
lemma hears_passwordResetConfirm [Sha256] {input : PasswordResetConfirmInput}
    (hinvalid : ∀ tokenHash, presentedHash input.rawToken = some tokenHash →
      w.tables.validToken tokenHash w.now = none → ∀ e, Stamped w.now
        (.passwordResetConfirmed · none .failure (some "invalid_token")) e → E e)
    (hvalid : ∀ tokenHash p, presentedHash input.rawToken = some tokenHash →
      w.tables.validToken tokenHash w.now = some p → ∀ e, Stamped w.now
        (.passwordResetConfirmed · (some p.userId) .success none) e → E e) :
    Hears E w (passwordResetConfirm input) := by
  refine .bind_silent reads_require fun _ u hrequire _ => ?_
  obtain ⟨-, rfl⟩ := require_eq_ok hrequire
  cases hpresented : presentedHash input.rawToken with
  | none => exact .fail
  | some tokenHash =>
    refine .bind_silent silent_query.mapErr fun found v₁ hquery hnow₁ => ?_
    obtain ⟨rfl, -, -⟩ := query_eq_ok (Prog.mapErr_eq_ok hquery)
    cases hfound : u.tables.validToken tokenHash u.now with
    | none =>
      refine .then_silent (hears_record fun e he => ?_) fun _ => Prog.Reads.fail
      exact hinvalid tokenHash hpresented hfound e (hnow₁ ▸ he)
    | some p =>
      refine .bind_silent reads_hashPassword.mapErr fun hash v₂ _ hnow₂ => ?_
      refine .bind_silent silent_execute.mapErr fun _ v₃ _ hnow₃ => ?_
      refine .bind_silent silent_execute.mapErr fun _ v₄ _ hnow₄ => hears_record fun e he => ?_
      have hnow : v₄.now = u.now := hnow₄.trans (hnow₃.trans (hnow₂.trans hnow₁))
      exact hvalid tokenHash p hpresented hfound e (hnow ▸ he)

/-- The bootstrap writes the audit log itself. -/
lemma silent_bootstrapSeedAdmin [CaseMapping] {input : SeedAdminInput} :
    Silent (bootstrapSeedAdmin input) := by
  refine Prog.Reads.bind silent_query.mapErr fun org => ?_
  cases org with
  | none => exact Prog.Reads.fail
  | some orgId =>
    refine Prog.Reads.bind silent_query.mapErr fun taken => ?_
    refine Prog.Reads.bind reads_require fun _ => ?_
    refine Prog.Reads.bind reads_hashPassword.mapErr fun passwordHash => ?_
    refine Prog.Reads.bind silent_nowV7 fun userId => ?_
    refine Prog.Reads.bind silent_execute.mapErr fun _ => ?_
    refine Prog.Reads.bind silent_query.mapErr fun found => ?_
    cases found with
    | none => exact Prog.Reads.fail
    | some roleId =>
      refine Prog.Reads.bind silent_execute.mapErr fun _ => ?_
      refine Prog.Reads.bind (Prog.Reads.bind silent_nowV7 fun _ => Prog.Reads.bind reads_utcNow
        fun _ => Prog.Reads.ret) fun stamp => ?_
      exact Prog.Reads.bind silent_execute.mapErr fun _ => Prog.Reads.ret

end Hearing

/-! ## What a demand puts on record -/

section Records
variable [Platform] [Sha256]

/-- What an event that a demand offers the channel tells of it. -/
inductive Arrival.Records (config : JwtConfig) (x : Arrival) (e : AuditEvent) : Prop
  | request {headers route p} (demand : x.demand = .guarded headers route)
      (presented : Principal.Presented config headers x.world p)
      (passes : route.gate.Passes p x.world.tables)
      (served : (∃ reply, ((respond config headers route).run x.world).1 = .ok reply) ∨
        route.putsFeature = true)
      (told : route.Recorded p x.world.ledger
        ((respond config headers route).run x.world).1.toOption e)
  | login {input free user first rest} (demand : x.demand = .unguarded (.login input) free)
      (known : user ∈ x.world.tables.users) (named : user.Named input.usernameOrEmail)
      (verified : Argon2.verifyPassword input.password user.passwordHash = some true)
      (member : x.world.tables.membershipsOf user.id = first :: rest)
      (told : Stamped x.world.now (.loginSuccess · user.id first.orgId) e)
  | unknownLogin {input free} (demand : x.demand = .unguarded (.login input) free)
      (unknown : ∀ user ∈ x.world.tables.users, ¬ user.Named input.usernameOrEmail)
      (told : Stamped x.world.now (.loginFailed · "not_found" input.usernameOrEmail) e)
  | wrongPassword {input free user} (demand : x.demand = .unguarded (.login input) free)
      (known : user ∈ x.world.tables.users) (named : user.Named input.usernameOrEmail)
      (refuted : Argon2.verifyPassword input.password user.passwordHash = some false)
      (told : Stamped x.world.now (.loginFailed · "bad_password" input.usernameOrEmail) e)
  | resetRequested {ttlSecs req free user}
      (demand : x.demand = .unguarded (.passwordResetRequest ttlSecs req) free)
      (known : user ∈ x.world.tables.users) (named : user.Named req.email)
      (told : Stamped x.world.now (.passwordResetRequested · req.email) e)
  | resetConfirmed {req free tokenHash token}
      (demand : x.demand = .unguarded (.passwordResetConfirm req) free)
      (presented : presentedHash req.rawToken = some tokenHash)
      (valid : x.world.tables.validToken tokenHash x.world.now = some token)
      (told : Stamped x.world.now
        (.passwordResetConfirmed · (some token.userId) .success none) e)
  | resetRefused {req free tokenHash}
      (demand : x.demand = .unguarded (.passwordResetConfirm req) free)
      (presented : presentedHash req.rawToken = some tokenHash)
      (invalid : x.world.tables.validToken tokenHash x.world.now = none)
      (told : Stamped x.world.now
        (.passwordResetConfirmed · none .failure (some "invalid_token")) e)

/-- A demand hands an event to the worker's insert. -/
def Demand.inserts : Demand → Bool
  | .unguarded (.insertAuditEvent _) _ => true
  | _ => false

variable [AuditCursorText] {config : JwtConfig} {x : Arrival}

variable (config x) in
/-- A demand leaves the channel alone, or it offers it one event, which tells what the demand was. -/
theorem Arrival.hears : (x.serve config).audit = x.world.audit ∨
    Offered (x.Records config) x.world (x.serve config) := by
  obtain ⟨w, demand⟩ := x
  cases demand with
  | guarded headers route =>
    cases hrun : (respond config headers route).run w with
    | mk r v =>
      have hserve : Arrival.serve config ⟨w, .guarded headers route⟩ = v := congrArg Prod.snd hrun
      have hanswer : ((respond config headers route).run w).1 = r := congrArg Prod.fst hrun
      rw [hserve]
      obtain hsame | ⟨p, c, hpresented, hc, hadmits, ⟨e, he, haudit⟩, hserved⟩ := respond_told hrun
      · exact Or.inl (congrArg Ledger.audit hsame)
      · rw [← hanswer] at he hserved
        exact Or.inr ⟨e, .request rfl hpresented (hadmits.passes hc) hserved he, haudit⟩
  | unguarded operation free =>
    cases operation with
    | request c kind req => cases free
    | call headers => cases free
    | login input =>
      refine Hears.mapErr (hears_login ?_ ?_ ?_)
      · exact fun hunknown e he => .unknownLogin rfl hunknown he
      · exact fun user hmem hnamed hrefuted e he => .wrongPassword rfl hmem hnamed hrefuted he
      · exact fun user hmem hnamed hverified first rest hrows e he =>
          .login rfl hmem hnamed hverified hrows he
    | passwordResetRequest ttlSecs req =>
      refine Hears.then_silent (.mapErr (hears_passwordResetRequest ?_)) fun _ => Prog.Reads.ret
      exact fun user hmem hnamed e he => .resetRequested rfl hmem hnamed he
    | passwordResetConfirm req =>
      refine Hears.then_silent (.mapErr (hears_passwordResetConfirm ?_ ?_)) fun _ => Prog.Reads.ret
      · exact fun tokenHash hpresented hinvalid e he => .resetRefused rfl hpresented hinvalid he
      · exact fun tokenHash p hpresented hvalid e he => .resetConfirmed rfl hpresented hvalid he
    | touchLastUsed task =>
      refine Hears.of_silent (Prog.Reads.bind silent_execute.attempt fun _ => ?_)
      exact Prog.Reads.bind silent_execute.attempt fun _ => Prog.Reads.ret
    | insertAuditEvent event => exact Hears.of_silent silent_execute
    | bootstrapSeedAdmin input => exact Hears.of_silent silent_bootstrapSeedAdmin

omit [Sha256] [AuditCursorText] in
/-- No route writes the audit log itself. -/
lemma Route.not_permits_addEvent {c : AuthedCaller} {t₀ t : Tables} {now : Timestamp} {route : Route}
    {e : AuditEvent} :
    ¬ route.Permits c t₀ now t (.addEvent e) := by
  intro h
  cases route with
  | resource n action => cases action <;> cases h
  | _ => cases h

/-- The bootstrap writes the event of the first administrator itself: it names the user whose account
it has stored, the operator organisation and the role. -/
inductive Arrival.Seeds (config : JwtConfig) (x : Arrival) (r : AuditEvent) : Prop
  | bootstrap {input free user org}
      (demand : x.demand = .unguarded (.bootstrapSeedAdmin input) free)
      (stored : (x.serve config).tables.Records (.account user))
      (fresh : x.world.tables.hasUser user.id = false)
      (username : user.username = input.username) (email : user.email = input.email)
      (operator : org ∈ x.world.tables.organisations) (name : org.name = input.operatorOrgName)
      (told : Stamped x.world.now (.adminSeeded · user.id org.id input.roleCode) r)

omit [AuditCursorText] in
/-- What the bootstrap does leaves the accounts alone that are there. -/
lemma Tables.Records.of_bootstrap {w : World} {input : SeedAdminInput} {t t' : Tables} {user : User}
    (h : ReflTransGen (Effect.Step (Operation.Permits w · (.bootstrapSeedAdmin input))) t t')
    (hrecords : t.Records (.account user)) : t'.Records (.account user) := by
  refine Effect.invariant (I := fun t => t.Records (.account user)) ?_ h hrecords
  intro s s' e hpermits happly hs
  rcases Effect.keeps happly hs with htakes | hkept
  · cases e with
    | addUser _ | addRole _ | addEvent _ => cases htakes
    | _ => cases hpermits
  · exact hkept

/-- A demand leaves the audit log as it is, the bootstrap apart. -/
lemma Arrival.rows_serve (hinserts : x.demand.inserts = false) {r : AuditEvent}
    (hr : r ∈ (x.serve config).tables.auditEvents) :
    r ∈ x.world.tables.auditEvents ∨ x.Seeds config r := by
  by_cases hold : r ∈ x.world.tables.auditEvents
  · exact Or.inl hold
  refine Or.inr ?_
  have hfollows : ReflTransGen (Effect.Step (x.Entitles config)) x.world.tables
      (x.serve config).tables := serve_follows
  obtain ⟨s, s', -, ⟨e, hentitled, happly⟩, after, hs, hs'⟩ :=
    exists_turn (P := fun t : Tables => r ∈ t.auditEvents) hfollows hold hr
  obtain rfl : e = .addEvent r := Effect.eq_addEvent happly hs hs'
  obtain ⟨w, demand⟩ := x
  cases demand with
  | guarded headers route =>
    obtain ⟨p, c, -, -, -, hpermits⟩ := hentitled
    exact absurd hpermits Route.not_permits_addEvent
  | unguarded operation free =>
    cases operation with
    | insertAuditEvent event => cases hinserts
    | bootstrapSeedAdmin input =>
      obtain ⟨user, huser, org, horg, hfresh, hname, hemail, hoperator, he⟩ := id hentitled
      have hadded : s'.Records (.account user) :=
        (Effect.keeps happly (f := .account user) ⟨user, huser, rfl⟩).resolve_left id
      exact .bootstrap rfl (.of_bootstrap after hadded) hfresh hname hemail horg hoperator he
    | request _ _ _ | call _ => cases free
    | login _ | passwordResetRequest _ _ | passwordResetConfirm _ | touchLastUsed _ =>
      cases hentitled

end Records

end Egras
