import Egras.Echo.Interface
import Egras.Service.Operations

/-!
# What a request leaves behind

The tables, the audit channel and the clock together (`World.ledger`). A program is `Silent` when it
offers the channel nothing and `Traceless` when it leaves the whole ledger alone. It `Logs E` when it
leaves no trace or returns and has offered exactly one event, of those in `E`, which may depend on the
ledger before and on the value returned; it only `Offers E` when it may still fail after the event.
All statements are silent, so that only the calls of `record` count (`Notes`).
-/

namespace Egras
open Lib

/-- The tables, the audit channel and the clock. -/
structure Ledger where
  tables : Tables
  audit : AuditChannel
  now : Timestamp

/-- The ledger of a world. -/
def World.ledger (w : World) : Ledger := ⟨w.tables, w.audit, w.now⟩

/-- Where an event is put and the clock that stamps it. -/
def World.recorder (w : World) : AuditChannel × Timestamp := (w.audit, w.now)

/-- The audit channel after an event has been offered to it. -/
def AuditChannel.offered (c : AuditChannel) (e : AuditEvent) : AuditChannel := (c.record e).2

/-- The recorder shows nothing of the tables and of what reading leaves behind. -/
instance : Aside World.recorder where
  tick _ := rfl
  uuids _ _ := rfl
  random _ _ := rfl
  cache _ _ := rfl
  spawned _ _ := rfl
  tables _ _ := rfl

/-- The ledger shows nothing of what reading leaves behind. -/
instance : Blind World.ledger where
  tick _ := rfl
  uuids _ _ := rfl
  random _ _ := rfl
  cache _ _ := rfl
  spawned _ _ := rfl

/-- The ledger consists of the tables and the recorder. -/
lemma World.ledger_ext {w v : World} (ht : v.tables = w.tables) (hr : v.recorder = w.recorder) :
    v.ledger = w.ledger := by
  obtain ⟨haudit, hnow⟩ := Prod.mk.inj hr
  unfold World.ledger
  rw [ht, haudit, hnow]

section Judgements
variable {ε δ α β : Type}

/-- `p` offers the audit channel nothing. -/
abbrev Silent (p : Action ε α) : Prop := Prog.Reads World.recorder p

/-- `p` leaves the tables, the audit channel and the clock alone. -/
abbrev Traceless (p : Action ε α) : Prop := Prog.Reads World.ledger p

/-- Between two worlds exactly one event has been offered, of those in `E`. -/
def Offered (E : AuditEvent → Prop) (w v : World) : Prop := ∃ e, E e ∧ v.audit = w.audit.offered e

/-- `p` leaves no trace, or it offers exactly one event. -/
def Offers (E : Ledger → AuditEvent → Prop) (p : Action ε α) : Prop :=
  ∀ w, (p.run w).2.ledger = w.ledger ∨ Offered (E w.ledger) w (p.run w).2

/-- `p` leaves no trace, or it returns and offers exactly one event. -/
def Logs (E : Ledger → α → AuditEvent → Prop) (p : Action ε α) : Prop :=
  ∀ w, (p.run w).2.ledger = w.ledger ∨
    ∃ a, (p.run w).1 = .ok a ∧ Offered (E w.ledger a) w (p.run w).2

/-- `p` records an event and returns `b`. -/
def Notes (event : Stamp → AuditEvent) (b : β) (p : Action ε β) : Prop :=
  ∀ w, ∃ id, (p.run w).1 = .ok b ∧ (p.run w).2.audit = w.audit.offered (event ⟨id, w.now⟩)

variable {E F : Ledger → α → AuditEvent → Prop} {G : Ledger → β → AuditEvent → Prop}
  {H : Ledger → AuditEvent → Prop} {event : Stamp → AuditEvent} {p : Action ε α}
  {k : α → Action ε β} {a : α} {b : β}

/-- A program without trace logs nothing. -/
lemma Logs.of_traceless (h : Traceless p) : Logs E p := fun w => Or.inl (h w)

/-- Recording an event. -/
lemma notes_record : Notes event () (record event : Action ε _) := fun _ => ⟨_, rfl, rfl⟩

/-- Answering after the event. -/
lemma Notes.map {f : α → β} (h : Notes event a p) :
    Notes event (f a) (p >>= fun a => .ret (f a)) := by
  intro w
  obtain ⟨id, ha, haudit⟩ := h w
  refine ⟨id, ?_⟩
  rw [Prog.run_bind, show p.run w = (.ok a, (p.run w).2) from Prod.ext ha rfl]
  exact ⟨rfl, haudit⟩

/-- A program that records an event logs it. -/
lemma Notes.logs (h : Notes event a p) (hE : ∀ ℓ id, E ℓ a (event ⟨id, ℓ.now⟩)) : Logs E p := by
  intro w
  obtain ⟨id, ha, haudit⟩ := h w
  exact Or.inr ⟨a, ha, _, hE w.ledger id, haudit⟩

/-- What `p` logs satisfies what follows from it. -/
lemma Logs.mono (h : Logs E p) (hF : ∀ ℓ a e, E ℓ a e → F ℓ a e) : Logs F p :=
  fun w => (h w).imp_right fun ⟨a, ha, e, he, haudit⟩ => ⟨a, ha, e, hF _ _ _ he, haudit⟩

/-- Answering after what is logged. -/
lemma Logs.map {f : α → β} (h : Logs (fun ℓ a => G ℓ (f a)) p) :
    Logs G (p >>= fun a => .ret (f a)) := by
  intro w
  rw [Prog.run_bind]
  have hw := h w
  cases hrun : p.run w with
  | mk r v =>
    rw [hrun] at hw
    cases r with
    | ok a =>
      refine hw.imp_right ?_
      rintro ⟨_, ⟨rfl⟩, hoffered⟩
      exact ⟨_, rfl, hoffered⟩
    | error e => exact hw.imp_right fun ⟨_, hok, _⟩ => by cases hok

/-- Errors are named differently. -/
lemma Logs.mapErr {g : ε → δ} (h : Logs E p) : Logs E (p.mapErr g) := by
  intro w
  rw [Prog.run_mapErr]
  refine (h w).imp_right fun ⟨a, ha, hoffered⟩ => ⟨a, ?_, hoffered⟩
  rw [ha]
  rfl

/-- What comes before leaves no trace, and its answer may be relied on. -/
lemma Logs.bind_run (hp : Traceless p)
    (hk : ∀ w a v, p.run w = (.ok a, v) → Logs (fun ℓ b e => ℓ = w.ledger → G ℓ b e) (k a)) :
    Logs G (p >>= k) := by
  intro w
  rw [Prog.run_bind]
  cases hrun : p.run w with
  | mk r v =>
    have hv : v.ledger = w.ledger := hp.of_run hrun
    cases r with
    | error e => exact Or.inl hv
    | ok a =>
      refine (hk w a v hrun v).imp (·.trans hv) fun ⟨b, hb, e, he, haudit⟩ => ?_
      have hsame : v.audit = w.audit := congrArg Ledger.audit hv
      exact ⟨b, hb, e, hv ▸ he hv, by rw [haudit, hsame]⟩

/-- What comes before leaves no trace. -/
lemma Logs.bind_right (hp : Traceless p) (hk : ∀ a, Logs G (k a)) : Logs G (p >>= k) :=
  .bind_run hp fun _ a _ _ => (hk a).mono fun _ _ _ he _ => he

section Writes
variable {event : α → Stamp → AuditEvent} {f : α → β}

/-- A write that either fails without effect or is followed by its event. -/
lemma Logs.of_write (hatomic : Prog.Atomic World.tables p) (hsilent : Silent p)
    (hk : ∀ a, Notes (event a) (f a) (k a))
    (hG : ∀ w a v, p.run w = (.ok a, v) → ∀ id, G w.ledger (f a) (event a ⟨id, w.now⟩)) :
    Logs G (p >>= k) := by
  intro w
  rw [Prog.run_bind]
  cases hrun : p.run w with
  | mk r v =>
    have hv : v.recorder = w.recorder := hsilent.of_run hrun
    cases r with
    | error e => exact Or.inl (World.ledger_ext (hatomic w e v hrun) hv)
    | ok a =>
      obtain ⟨haudit, hnow⟩ := Prod.mk.inj hv
      obtain ⟨id, hb, hoffered⟩ := hk a v
      rw [haudit, hnow] at hoffered
      exact Or.inr ⟨f a, hb, _, hG w a v hrun id, hoffered⟩

/-- A write that tells whether it has found something to change, and is recorded if so. -/
lemma Logs.of_flagged (found : α → Bool) {e : ε} (hatomic : Prog.Atomic World.tables p)
    (hsilent : Silent p)
    (hfound : ∀ w a v, p.run w = (.ok a, v) → found a = false → v.tables = w.tables)
    (hk : ∀ a, Notes (event a) (f a) (k a))
    (hG : ∀ w a v, p.run w = (.ok a, v) → ∀ id, G w.ledger (f a) (event a ⟨id, w.now⟩)) :
    Logs G (p >>= fun a => require (found a) e >>= fun _ => k a) := by
  intro w
  rw [Prog.run_bind]
  cases hrun : p.run w with
  | mk r v =>
    have hv : v.recorder = w.recorder := hsilent.of_run hrun
    cases r with
    | error e => exact Or.inl (World.ledger_ext (hatomic w e v hrun) hv)
    | ok a =>
      dsimp only
      rw [run_require_bind]
      cases hflag : found a with
      | false => exact Or.inl (World.ledger_ext (hfound w a v hrun hflag) hv)
      | true =>
        obtain ⟨haudit, hnow⟩ := Prod.mk.inj hv
        obtain ⟨id, hb, hoffered⟩ := hk a v
        rw [haudit, hnow] at hoffered
        exact Or.inr ⟨f a, hb, _, hG w a v hrun id, hoffered⟩

/-- A write that is tried again, or given up, when it fails. -/
lemma Logs.of_attempt {k : Except ε α → Action δ β} (hatomic : Prog.Atomic World.tables p)
    (hsilent : Silent p) (hok : ∀ a, Notes (event a) (f a) (k (.ok a)))
    (hG : ∀ w a v, p.run w = (.ok a, v) → ∀ id, G w.ledger (f a) (event a ⟨id, w.now⟩))
    (herror : ∀ e, Logs G (k (.error e))) : Logs G (p.attempt >>= k) := by
  intro w
  rw [Prog.run_bind, Prog.run_attempt]
  cases hrun : p.run w with
  | mk r v =>
    have hv : v.recorder = w.recorder := hsilent.of_run hrun
    obtain ⟨haudit, hnow⟩ := Prod.mk.inj hv
    cases r with
    | ok a =>
      obtain ⟨id, hb, hoffered⟩ := hok a v
      rw [haudit, hnow] at hoffered
      exact Or.inr ⟨f a, hb, _, hG w a v hrun id, hoffered⟩
    | error e =>
      have hledger : v.ledger = w.ledger := World.ledger_ext (hatomic w e v hrun) hv
      refine (herror e v).imp (·.trans hledger) fun ⟨b, hb, e', he, hoffered⟩ => ?_
      rw [haudit] at hoffered
      exact ⟨b, hb, e', hledger ▸ he, hoffered⟩

end Writes

/-- The event of a program, whatever it returns. -/
lemma Logs.offers (h : Logs E p) (hH : ∀ ℓ a e, E ℓ a e → H ℓ e) : Offers H p :=
  fun w => (h w).imp_right fun ⟨_, _, e, he, haudit⟩ => ⟨e, hH _ _ _ he, haudit⟩

/-- What follows leaves no trace, but may fail. -/
lemma Offers.bind_left (hp : Offers H p) (hk : ∀ a, Traceless (k a)) : Offers H (p >>= k) := by
  intro w
  have hledger : ((p >>= k).run w).2.ledger = (p.run w).2.ledger := Prog.Reads.after_bind hk
  refine (hp w).imp hledger.trans fun ⟨e, he, haudit⟩ => ⟨e, he, ?_⟩
  exact (congrArg Ledger.audit hledger).trans haudit

/-- What comes before leaves no trace. -/
lemma Offers.bind_right {k : α → Action ε β} (hp : Traceless p) (hk : ∀ a, Offers H (k a)) :
    Offers H (p >>= k) := by
  intro w
  rw [Prog.run_bind]
  cases hrun : p.run w with
  | mk r v =>
    have hv : v.ledger = w.ledger := hp.of_run hrun
    cases r with
    | error e => exact Or.inl hv
    | ok a =>
      refine (hk a v).imp (·.trans hv) fun ⟨e, he, haudit⟩ => ⟨e, hv ▸ he, ?_⟩
      exact haudit.trans (congrArg (fun ℓ : Ledger => ℓ.audit.offered e) hv)

end Judgements

/-! ## Statements are silent -/

section Silent
variable {ε α : Type}

/-- A statement records nothing. -/
lemma silent_execute {f : World → Except SqlError (α × Tables)} : Silent (execute f) :=
  reads_execute_aside

/-- A query records nothing. -/
lemma silent_query {f : World → α} : Silent (query f) := silent_execute

/-- A new id records nothing. -/
lemma silent_nowV7 : Silent (nowV7 : Action ε _) := reads_nowV7 fun _ _ => rfl

/-- Drawing bytes records nothing. -/
lemma silent_randomBytes {n : ℕ} : Silent (randomBytes n : Action ε _) :=
  reads_randomBytes fun _ _ => rfl

/-- A transaction is as silent as its statements. -/
lemma silent_transaction {conv : SqlError → ε} {body : Action ε α} (h : Silent body) :
    Silent (transaction conv body) := by
  refine Prog.Reads.bind silent_query.mapErr fun before => ?_
  refine Prog.Reads.bind (Prog.Reads.attempt (Prog.Reads.bind h fun a => ?_)) fun outcome => ?_
  · exact Prog.Reads.bind silent_query.mapErr fun _ => Prog.Reads.ret
  · cases outcome with
    | ok a => exact Prog.Reads.ret
    | error e => exact Prog.Reads.bind (Prog.Reads.lift fun _ => rfl) fun _ => Prog.Reads.fail

/-- A query leaves no trace. -/
lemma traceless_query {f : World → α} : Traceless (query f) := reads_query fun _ => rfl

end Silent

end Egras
