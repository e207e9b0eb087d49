import Egras.Audit.Model
import Egras.Db.Schema
import Egras.Lib.Prog

/-!
# The world a request runs in

The state that the handlers share (`World`): the tables, the in-process cache of feature values, the
audit channel, the background tasks spawned so far, and what the environment supplies: the clock,
the identifiers and random bytes that will be drawn and which of the next statements will fail. A
statement that fails has no effect; one that the database answers may still be refused by a
constraint, again without effect.

Rust → Lean naming: `sqlx::Error` → `SqlError`, `fetch_*` → `query`, `execute` and `RETURNING` →
`execute`, `pool.begin()`…`tx.commit()` → `transaction`, `Uuid::now_v7` → `nowV7`, `Utc::now` and
`Instant::now` → `utcNow`, `audit_recorder.record` → `record`, `tokio::spawn` → `spawn`.
-/

namespace Egras
open Lib

/-- What a failed statement reports (Rust `sqlx::Error`). -/
inductive SqlError
  | io
  | database (code constraint : String)
deriving DecidableEq

/-- `23505`, a violated unique index. -/
def SqlError.uniqueViolation (constraint : String) : SqlError := .database "23505" constraint

/-- `23503`, a violated foreign key. -/
def SqlError.foreignKeyViolation (constraint : String) : SqlError := .database "23503" constraint

/-- `23514`, a violated `CHECK`. -/
def SqlError.checkViolation (constraint : String) : SqlError := .database "23514" constraint

/-- `22021`, a character that the encoding of the database does not have. -/
def SqlError.characterNotInRepertoire : SqlError := .database "22021" ""

/-- A text with the character U+0000, which no `TEXT` of the database can hold. -/
def hasNul (text : String) : Bool := text.toList.contains (Char.ofNat 0)

/-- An entry of the evaluator's cache with its key. -/
structure CachedValue where
  organisationId : Uuid
  slug : String
  value : Value
  expiresAt : Timestamp
deriving DecidableEq

/-- A flag is cached for each organisation. -/
def CachedValue.key (c : CachedValue) : Uuid × String := (c.organisationId, c.slug)

/-- The background task that `tokio::spawn` starts on the API-key path. -/
structure TouchTask where
  keyId : Uuid
  saUserId : Uuid
deriving DecidableEq

/-- The state shared by the handlers, and what the environment supplies. -/
structure World where
  tables : Tables
  cache : Table CachedValue CachedValue.key
  audit : AuditChannel
  spawned : List TouchTask
  now : Timestamp
  faults : List Bool
  uuids : List Uuid
  random : List (List UInt8)
deriving DecidableEq

namespace World

/-- Whether the next statement is answered. -/
def answers (w : World) : Bool := w.faults.head? ≠ some true

/-- The world after one more statement has been sent. -/
def tick (w : World) : World := { w with faults := w.faults.tail }

/-- Whether the next `n` statements are all answered. -/
def answersAll (w : World) (n : ℕ) : Bool := (w.faults.take n).all (fun fault => !fault)

/-- No statement needs no answer. -/
@[simp] lemma answersAll_zero {w : World} : w.answersAll 0 = true := rfl

/-- The next statements are answered when the first is and then the others. -/
lemma answersAll_succ {w : World} {n} : w.answersAll (n + 1) = (w.answers && w.tick.answersAll n) := by
  unfold answersAll answers tick
  cases w.faults with
  | nil => simp
  | cons fault faults => cases fault <;> simp

/-- A statement that is counted leaves the tables as they are. -/
@[simp] lemma tick_tables {w : World} : w.tick.tables = w.tables := rfl
/-- A statement that is counted leaves the cache as it is. -/
@[simp] lemma tick_cache {w : World} : w.tick.cache = w.cache := rfl
/-- A statement that is counted leaves the audit channel as it is. -/
@[simp] lemma tick_audit {w : World} : w.tick.audit = w.audit := rfl
/-- A statement that is counted leaves the background tasks as they are. -/
@[simp] lemma tick_spawned {w : World} : w.tick.spawned = w.spawned := rfl
/-- A statement that is counted takes no time. -/
@[simp] lemma tick_now {w : World} : w.tick.now = w.now := rfl
/-- A statement that is counted draws no id. -/
@[simp] lemma tick_uuids {w : World} : w.tick.uuids = w.uuids := rfl
/-- A statement that is counted draws no random bytes. -/
@[simp] lemma tick_random {w : World} : w.tick.random = w.random := rfl

/-- Send a statement with the given effect. -/
def exec {α} (w : World) (effect : Except SqlError (α × Tables)) : Except SqlError α × World :=
  if w.answers then
    match effect with
    | .ok (a, t) => (.ok a, { w.tick with tables := t })
    | .error e => (.error e, w.tick)
  else (.error .io, w.tick)

end World

/-- The programs of the service. -/
abbrev Action (ε α : Type) := Prog World ε α

section Primitives
variable {ε α β : Type}

/-- A statement that writes. -/
def execute (effect : World → Except SqlError (α × Tables)) : Action SqlError α :=
  .atom (fun w => w.exec (effect w)) .ofExcept

/-- A statement that only reads. -/
def query (f : World → α) : Action SqlError α := execute (fun w => .ok (f w, w.tables))

/-- A statement that only reads, with texts among its parameters: the database refuses those that it
cannot hold. -/
def queryWith (texts : List String) (f : World → α) : Action SqlError α :=
  execute (fun w =>
    if texts.any hasNul then .error .characterNotInRepertoire else .ok (f w, w.tables))

/-- Start a transaction, keeping the tables to return to. -/
def beginTx : Action SqlError Tables := query World.tables

/-- `COMMIT`, which may fail like a statement. -/
def commitTx : Action SqlError Unit := query (fun _ => ())

/-- Undo the writes of the open transaction. -/
def rollback (before : Tables) : Action ε Unit := .lift (fun w => ((), { w with tables := before }))

/-- Run the statements of `body` and commit; an error anywhere drops the transaction. -/
def transaction (conv : SqlError → ε) (body : Action ε α) : Action ε α := do
  let before ← beginTx.mapErr conv
  let outcome ← (do
    let a ← body
    commitTx.mapErr conv
    return a : Action ε α).attempt
  match outcome with
  | .ok a => return a
  | .error e =>
    rollback before
    .fail e

/-- The clock. -/
def utcNow : Action ε Timestamp := .lift (fun w => (w.now, w))

/-- A new identifier. -/
def nowV7 : Action ε Uuid := .lift (fun w => (w.uuids.headD 0, { w with uuids := w.uuids.tail }))

/-- `n` bytes of the random number generator. -/
def randomBytes (n : ℕ) : Action ε (List UInt8) :=
  .lift (fun w => ((w.random.headD []).takeD n 0, { w with random := w.random.tail }))

/-- What a new audit event draws. -/
def newStamp : Action ε Stamp := do
  let id ← nowV7
  let at_ ← utcNow
  return ⟨id, at_⟩

/-- Build an audit event and enqueue it; that the channel does not take it is only logged. -/
def record (event : Stamp → AuditEvent) : Action ε Unit := do
  let stamp ← newStamp
  .lift (fun w => ((), { w with audit := (w.audit.record (event stamp)).2 }))

/-- Start a background task. -/
def spawn (task : TouchTask) : Action ε Unit :=
  .lift (fun w => ((), { w with spawned := w.spawned ++ [task] }))

/-- Refuse with an error unless a condition holds. -/
def require (c : Bool) (e : ε) : Action ε Unit := if c then .ret () else .fail e

end Primitives

section Runs
variable {ε α : Type} {w : World}

/-- An effect that returns a known value is accepted when the change of the tables is. -/
lemma return_eq_ok {r : Except SqlError Tables} {a b : α} {t : Tables} :
    (do let t' ← r; return (a, t') : Except SqlError (α × Tables)) = .ok (b, t) ↔
      r = .ok t ∧ b = a := by
  cases r with
  | error e => exact ⟨fun h => (nomatch h), fun h => (nomatch h.1)⟩
  | ok t' =>
    constructor
    · intro h
      cases h
      exact ⟨rfl, rfl⟩
    · rintro ⟨h, rfl⟩
      cases h
      rfl

/-- A statement runs against the database. -/
@[simp] lemma run_execute {f : World → Except SqlError (α × Tables)} :
    (execute f).run w = w.exec (f w) := Prog.run_ofExcept

/-- A read returns what it reads, unless it fails. -/
lemma run_query {f : World → α} :
    (query f).run w = if w.answers then (.ok (f w), w.tick) else (.error .io, w.tick) := by
  unfold query
  rw [run_execute]
  cases h : w.answers <;> simp [World.exec, h, World.tick]

/-- A read with texts that the database can hold is a read. -/
lemma queryWith_of_storable {texts : List String} {f : World → α} (h : texts.any hasNul = false) :
    queryWith texts f = query f := by
  unfold queryWith query
  rw [h]
  rfl

/-- A read with another text fails. -/
lemma run_queryWith_of_nul {texts : List String} {f : World → α} (h : texts.any hasNul = true) :
    (queryWith texts f).run w =
      (.error (if w.answers then .characterNotInRepertoire else .io), w.tick) := by
  unfold queryWith
  rw [run_execute, if_pos h]
  unfold World.exec
  cases w.answers <;> rfl

/-- A requirement that is met goes on, another one fails. -/
lemma run_require {c : Bool} {e : ε} :
    (require c e).run w = (if c then .ok () else .error e, w) := by
  cases c <;> rfl

/-- A read followed by the rest of a program. -/
lemma run_query_bind {β} {f : World → α} {conv : SqlError → ε} {k : α → Action ε β} :
    ((query f).mapErr conv >>= k).run w =
      if w.answers then (k (f w)).run w.tick else (.error (conv .io), w.tick) := by
  rw [Prog.run_bind, Prog.run_mapErr, run_query]
  cases w.answers <;> rfl

/-- A write followed by the rest of a program. -/
lemma run_execute_bind {β} {f : World → Except SqlError (α × Tables)} {conv : SqlError → ε}
    {k : α → Action ε β} :
    ((execute f).mapErr conv >>= k).run w =
      if w.answers then
        match f w with
        | .ok (a, t) => (k a).run { w.tick with tables := t }
        | .error e => (.error (conv e), w.tick)
      else (.error (conv .io), w.tick) := by
  rw [Prog.run_bind, Prog.run_mapErr, run_execute]
  unfold World.exec
  cases w.answers with
  | false => rfl
  | true =>
    cases f w with
    | ok r => rfl
    | error e => rfl

/-- A check followed by the rest of a program. -/
lemma run_require_bind {β} {c : Bool} {e : ε} {k : Unit → Action ε β} :
    (require c e >>= k).run w = if c then (k ()).run w else (.error e, w) := by
  rw [Prog.run_bind, run_require]
  cases c <;> rfl

/-- Drawing an identifier before the rest of a program. -/
lemma run_nowV7_bind {β} {k : Uuid → Action ε β} :
    (nowV7 >>= k).run w = (k (w.uuids.headD 0)).run { w with uuids := w.uuids.tail } := rfl

/-- What drawing an identifier tells. -/
lemma nowV7_eq_ok {a t} (h : (nowV7 : Action ε Uuid).run w = (.ok a, t)) :
    a = w.uuids.headD 0 ∧ t = { w with uuids := w.uuids.tail } := by
  cases h
  exact ⟨rfl, rfl⟩

/-- What a read that returns tells. -/
lemma query_eq_ok {f : World → α} {a t} (h : (query f).run w = (.ok a, t)) :
    a = f w ∧ t = w.tick ∧ w.answers = true := by
  rw [run_query] at h
  split at h
  · rename_i hw
    cases h
    exact ⟨rfl, rfl, hw⟩
  · cases h

/-- A query that is answered tells what is there. -/
lemma queryWith_eq_ok {texts : List String} {f : World → α} {a t}
    (h : (queryWith texts f).run w = (.ok a, t)) : a = f w ∧ t = w.tick ∧ w.answers = true := by
  cases hnul : texts.any hasNul with
  | true =>
    rw [run_queryWith_of_nul hnul] at h
    cases h
  | false =>
    rw [queryWith_of_storable hnul] at h
    exact query_eq_ok h

/-- A query succeeds when the database answers. -/
lemma run_query_ok {f : World → α} (h : w.answers = true) :
    (query f).run w = (.ok (f w), w.tick) := by
  rw [run_query, if_pos h]

/-- An answered query gives what its statement evaluates to. -/
lemma run_query_of {f : World → α} {b : α} (h : w.answers = true) (hb : f w = b) :
    (query f).run w = (.ok b, w.tick) := hb ▸ run_query_ok h

/-- A statement succeeds when the database answers and accepts it. -/
lemma run_execute_ok {f : World → Except SqlError (α × Tables)} {a t} (h : w.answers = true)
    (hf : f w = .ok (a, t)) : (execute f).run w = (.ok a, { w.tick with tables := t }) := by
  rw [run_execute, hf]
  exact if_pos h

/-- What a passed check tells. -/
lemma require_eq_ok {c : Bool} {e : ε} {a t} (h : (require c e).run w = (.ok a, t)) :
    c = true ∧ t = w := by
  rw [run_require] at h
  cases c with
  | true =>
    cases h
    exact ⟨rfl, rfl⟩
  | false => cases h

/-- What a write that returns tells: the statement was answered and had its effect. -/
lemma execute_eq_ok {f : World → Except SqlError (α × Tables)} {a t}
    (h : (execute f).run w = (.ok a, t)) :
    ∃ tables, f w = .ok (a, tables) ∧ t = { w.tick with tables := tables } ∧
      w.answers = true := by
  rw [run_execute] at h
  unfold World.exec at h
  split at h
  · rename_i hw
    split at h
    · rename_i heq
      cases h
      exact ⟨_, heq, rfl, hw⟩
    · cases h
  · cases h

/-- A statement that is always accepted fails only when it is not answered. -/
lemma execute_eq_error {α : Type} {f : World → α × Tables} {e : SqlError} {w' : World}
    (h : (execute (fun w => .ok (f w))).run w = (.error e, w')) :
    w.answers = false ∧ w'.tables = w.tables := by
  rw [run_execute] at h
  unfold World.exec at h
  split at h
  · cases h
  · rename_i hanswers
    cases h
    exact ⟨eq_false_of_ne_true hanswers, rfl⟩

/-- The world a failed or finished transaction leaves. -/
lemma run_transaction {conv : SqlError → ε} {body : Action ε α} :
    (transaction conv body).run w =
      if w.answers then
        match body.run w.tick with
        | (.ok a, t) =>
          if t.answers then (.ok a, t.tick) else (.error (conv .io), { t.tick with tables := w.tables })
        | (.error e, t) => (.error e, { t with tables := w.tables })
      else (.error (conv .io), w.tick) := by
  unfold transaction beginTx commitTx
  simp only [Prog.run_bind, Prog.run_mapErr, Prog.run_attempt, run_query]
  cases hw : w.answers with
  | false => rfl
  | true =>
    cases hb : body.run w.tick with
    | mk r t =>
      cases r with
      | error e => simp [hb, Except.mapError, rollback, Prog.run_bind]
      | ok a => cases ht : t.answers <;> simp [hb, ht, Except.mapError, rollback, Prog.run_bind]

/-- What a committed transaction tells. -/
lemma transaction_eq_ok {conv : SqlError → ε} {body : Action ε α} {a t}
    (h : (transaction conv body).run w = (.ok a, t)) :
    ∃ u, body.run w.tick = (.ok a, u) ∧ t = u.tick ∧ w.answers = true ∧ u.answers = true := by
  rw [run_transaction] at h
  split at h
  · rename_i hw
    split at h
    · rename_i b u hb
      split at h
      · rename_i hu
        cases h
        exact ⟨u, hb, rfl, hw, hu⟩
      · cases h
    · cases h
  · cases h

/-- A transaction whose statements are all answered commits. -/
lemma run_transaction_of_ok {conv : SqlError → ε} {body : Action ε α} {a u}
    (hw : w.answers = true) (hb : body.run w.tick = (.ok a, u)) (hu : u.answers = true) :
    (transaction conv body).run w = (.ok a, u.tick) := by
  rw [run_transaction, if_pos hw, hb]
  exact if_pos hu

/-- A transaction that commits leaves the tables of its body. -/
lemma transaction_tables_of_ok {conv : SqlError → ε} {body : Action ε α} {a u}
    (hw : w.answers = true) (hb : body.run w.tick = (.ok a, u)) (hu : u.answers = true) :
    ((transaction conv body).run w).2.tables = u.tables := by
  rw [run_transaction_of_ok hw hb hu, World.tick_tables]

/-- A transaction that fails leaves the tables as they were. -/
theorem transaction_rolls_back {conv : SqlError → ε} {body : Action ε α} {e t}
    (h : (transaction conv body).run w = (.error e, t)) : t.tables = w.tables := by
  rw [run_transaction] at h
  split at h
  · split at h
    · split at h
      · cases h
      · cases h
        rfl
    · cases h
      rfl
  · cases h
    rfl

/-- A statement that fails leaves the tables as they were. -/
lemma atomic_execute {f : World → Except SqlError (α × Tables)} :
    Prog.Atomic World.tables (execute f) := by
  intro w e t h
  rw [run_execute] at h
  unfold World.exec at h
  split at h
  · split at h
    · cases h
    · cases h
      rfl
  · cases h
    rfl

/-- A transaction that fails changes nothing. -/
lemma atomic_transaction {conv : SqlError → ε} {body : Action ε α} :
    Prog.Atomic World.tables (transaction conv body) := fun _ _ _ => transaction_rolls_back

/-- Recording an event does not fail. -/
lemma record_failsIn {E : ε → Prop} {event} : Prog.FailsIn E (record event) :=
  Prog.FailsIn.bind (Prog.FailsIn.bind Prog.FailsIn.lift
    (fun _ => Prog.FailsIn.bind Prog.FailsIn.lift (fun _ => Prog.FailsIn.ret)))
    (fun _ => Prog.FailsIn.lift)

end Runs

section Reads
variable {ε α τ : Type} {V : World → τ}

/-- A part of the world that statements do not touch by being sent. -/
def Untimed (V : World → τ) : Prop := ∀ w, V w.tick = V w

/-- A view that shows nothing of what reading leaves behind: the count of statements, the identifiers
and random bytes drawn, the cache and the background tasks. -/
class Blind (V : World → τ) : Prop where
  tick : Untimed V
  uuids : ∀ w us, V { w with uuids := us } = V w
  random : ∀ w bs, V { w with random := bs } = V w
  cache : ∀ w c, V { w with cache := c } = V w
  spawned : ∀ w ts, V { w with spawned := ts } = V w

/-- The tables show nothing of it. -/
instance : Blind World.tables where
  tick _ := rfl
  uuids _ _ := rfl
  random _ _ := rfl
  cache _ _ := rfl
  spawned _ _ := rfl

/-- A view that shows nothing of the tables either. -/
class Aside (V : World → τ) : Prop extends Blind V where
  tables : ∀ w t, V { w with tables := t } = V w

/-- The clock shows nothing of them. -/
instance : Aside World.now where
  tick _ := rfl
  uuids _ _ := rfl
  random _ _ := rfl
  cache _ _ := rfl
  spawned _ _ := rfl
  tables _ _ := rfl

/-- A query leaves every view alone that does not count statements. -/
lemma reads_query {f : World → α} (hV : Untimed V) : Prog.Reads V (query f) := by
  intro w
  rw [run_query]
  split <;> exact hV w

/-- A statement leaves a view alone when its new tables do. -/
lemma reads_execute {f : World → Except SqlError (α × Tables)} (hV : Untimed V)
    (hf : ∀ w a t, f w = .ok (a, t) → V { w.tick with tables := t } = V w) :
    Prog.Reads V (execute f) := by
  intro w
  rw [run_execute]
  unfold World.exec
  split
  · split
    · exact hf _ _ _ ‹_›
    · exact hV w
  · exact hV w

/-- A statement leaves every view aside from the tables alone. -/
lemma reads_execute_aside [Aside V] {f : World → Except SqlError (α × Tables)} :
    Prog.Reads V (execute f) :=
  reads_execute Blind.tick fun w _ t _ => (Aside.tables w.tick t).trans (Blind.tick w)

/-- A query with texts leaves every view alone that does not count statements. -/
lemma reads_queryWith {texts : List String} {f : World → α} (hV : Untimed V) :
    Prog.Reads V (queryWith texts f) := by
  apply reads_execute hV
  intro w a t h
  split at h
  · cases h
  · cases h
    exact hV w

/-- A requirement leaves every view alone. -/
lemma reads_require {c : Bool} {e : ε} : Prog.Reads V (require c e) := by
  intro w
  rw [run_require]

/-- Reading the clock leaves every view alone. -/
lemma reads_utcNow : Prog.Reads V (utcNow : Action ε _) := Prog.Reads.lift (fun _ => rfl)

/-- A new id leaves every view alone that does not see the ids. -/
lemma reads_nowV7 (hV : ∀ w us, V { w with uuids := us } = V w) :
    Prog.Reads V (nowV7 : Action ε _) :=
  Prog.Reads.lift (fun w => hV w _)

/-- Drawing bytes leaves every view alone that does not see them. -/
lemma reads_randomBytes (hV : ∀ w bs, V { w with random := bs } = V w) {n} :
    Prog.Reads V (randomBytes n : Action ε _) :=
  Prog.Reads.lift (fun w => hV w _)

/-- A background task leaves every view alone that does not see the tasks. -/
lemma reads_spawn (hV : ∀ w ts, V { w with spawned := ts } = V w) {task} :
    Prog.Reads V (spawn task : Action ε _) :=
  Prog.Reads.lift (fun w => hV w _)

/-- Recording leaves every view alone that sees neither the ids nor the channel. -/
lemma reads_record (hu : ∀ w us, V { w with uuids := us } = V w)
    (ha : ∀ w a, V { w with audit := a } = V w) {event} :
    Prog.Reads V (record event : Action ε _) := by
  unfold record newStamp
  refine Prog.Reads.bind (Prog.Reads.bind (reads_nowV7 hu) ?_) ?_
  · intro id
    exact Prog.Reads.bind reads_utcNow (fun _ => Prog.Reads.ret)
  · intro stamp
    exact Prog.Reads.lift (fun w => ha w _)

/-- Recording changes no table. -/
lemma reads_tables_record {event} : Prog.Reads World.tables (record event : Action ε _) :=
  reads_record (fun _ _ => rfl) (fun _ _ => rfl)

/-- A check before a write, which may rely on it. -/
lemma writes_require_bind {φ : τ → τ → Prop} {β : Type} {c : Bool} {e : ε} {k : Unit → Action ε β}
    (hk : c = true → Prog.Writes V φ (k ())) : Prog.Writes V φ (require c e >>= k) := by
  cases c with
  | true => exact hk rfl
  | false => exact Prog.Writes.of_reads Prog.Reads.fail

/-- A statement writes what its effect is. -/
lemma writes_execute {φ : Tables → Tables → Prop} {f : World → Except SqlError (α × Tables)}
    (h : ∀ w a t, f w = .ok (a, t) → φ w.tables t) : Prog.Writes World.tables φ (execute f) := by
  refine atomic_execute.writes fun w a t hrun => ?_
  obtain ⟨tables, heffect, rfl, -⟩ := execute_eq_ok hrun
  exact h w a tables heffect

end Reads

/-- An invariant that only the effect of a statement can break: it looks at the tables and at the
identifiers left to draw, and holds of fewer of the latter as well. -/
structure Durable (I : World → Prop) : Prop where
  drawn : ∀ {w w' : World}, I w → w'.tables = w.tables → w'.uuids <:+ w.uuids → I w'
  undone : ∀ {w u : World}, I w → I u → I { u with tables := w.tables }

section Keeps
variable {ε α : Type} {I : World → Prop}

/-- A query keeps every invariant of what is durable. -/
lemma keeps_query {f : World → α} (hI : Durable I) : Prog.Keeps I (query f) := by
  intro w hw
  rw [run_query]
  split <;> exact hI.drawn hw rfl (List.suffix_refl _)

/-- A statement keeps an invariant when its new tables do. -/
lemma keeps_execute {f : World → Except SqlError (α × Tables)} (hI : Durable I)
    (hf : ∀ w a t, I w → f w = .ok (a, t) → I { w with tables := t }) :
    Prog.Keeps I (execute f) := by
  intro w hw
  rw [run_execute]
  unfold World.exec
  split
  · split
    · exact hI.drawn (hf _ _ _ hw ‹_›) rfl (List.suffix_refl _)
    · exact hI.drawn hw rfl (List.suffix_refl _)
  · exact hI.drawn hw rfl (List.suffix_refl _)

/-- A transaction keeps what its statements keep, whether it commits or rolls back. -/
lemma keeps_transaction {conv : SqlError → ε} {body : Action ε α} (hI : Durable I)
    (hbody : Prog.Keeps I body) : Prog.Keeps I (transaction conv body) := by
  intro w hw
  have htick : I w.tick := hI.drawn hw rfl (List.suffix_refl _)
  rw [run_transaction]
  split
  · have h := hbody w.tick htick
    split
    · rename_i a t hrun
      rw [hrun] at h
      have ht : I t.tick := hI.drawn h rfl (List.suffix_refl _)
      split
      · exact ht
      · exact hI.undone hw ht
    · rename_i e t hrun
      rw [hrun] at h
      exact hI.undone hw h
  · exact htick

/-- A requirement keeps every invariant. -/
lemma keeps_require {c : Bool} {e : ε} : Prog.Keeps I (require c e) := by
  intro w hw
  rw [run_require]
  exact hw

/-- A new id keeps every invariant of what is durable. -/
lemma keeps_nowV7 (hI : Durable I) : Prog.Keeps I (nowV7 : Action ε _) :=
  Prog.Keeps.lift fun _ hw => hI.drawn hw rfl (List.tail_suffix _)

/-- Drawing bytes keeps every invariant of what is durable. -/
lemma keeps_randomBytes {n : ℕ} (hI : Durable I) : Prog.Keeps I (randomBytes n : Action ε _) :=
  Prog.Keeps.lift fun _ hw => hI.drawn hw rfl (List.suffix_refl _)

/-- Recording keeps every invariant of what is durable. -/
lemma keeps_record {event : Stamp → AuditEvent} (hI : Durable I) :
    Prog.Keeps I (record event : Action ε _) := by
  unfold record newStamp
  refine Prog.Keeps.bind (Prog.Keeps.bind (keeps_nowV7 hI) fun id => ?_) fun stamp => ?_
  · exact Prog.Keeps.bind (Prog.Keeps.lift fun _ hw => hw) fun _ => Prog.Keeps.ret
  · exact Prog.Keeps.lift fun _ hw => hI.drawn hw rfl (List.suffix_refl _)

end Keeps
end Egras
