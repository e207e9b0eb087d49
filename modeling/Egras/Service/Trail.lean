import Egras.Audit.Worker
import Egras.Service.Records

/-!
# The audit trail

Requests are answered while the audit worker writes down the events of earlier ones; the two share
the audit channel and the tables (`Trail`). Over every run a row of the audit log is that of an event
that a demand of the run has put on the channel, and tells what this demand was (`rows_truthful`); and
the event that a protected request offers with its change gets its row, unless the channel refuses it
or the worker gives it up after more than `max_retries` failed inserts (`changes_told`). What a turn of
the worker does to the events that wait and to the rows is said once (`waiting_of_turn`,
`rows_of_turn`). From the moment that an event is on the queue the counter of its attempts is bounded
by its failed inserts (`Kept`).
-/

namespace Egras
open Lib Relation

/-! ## Requests and the worker together -/

/-- The event that the worker has in hand, if any. -/
def WorkerPos.inHand : WorkerPos → List AuditEvent
  | .inserting e _ _ | .sleeping e _ _ => [e]
  | .receiving | .stopped => []

/-- The failed inserts of the event in hand. -/
def WorkerPos.attempts : WorkerPos → ℕ
  | .inserting _ attempt _ | .sleeping _ attempt _ => attempt
  | .receiving | .stopped => 0

/-- The service and its audit worker. -/
structure Trail where
  tables : Tables
  channel : AuditChannel
  worker : WorkerPos
  now : Timestamp

/-- A demand arrives, or the channel or the worker has its turn. -/
inductive TrailEvent
  | arrives (x : Arrival)
  | turns (turn : DeliveryTurn)

namespace Trail

/-- The channel and the worker with the tables that the worker writes to. -/
def delivery (s : Trail) : AuditDelivery := ⟨s.channel, s.worker, s.tables, [], []⟩

/-- The events that are still to be written, the one in hand first. -/
def waiting (s : Trail) : List AuditEvent := s.worker.inHand ++ s.channel.events

/-- The channel refuses events. -/
def Refuses (s : Trail) : Prop :=
  s.channel.closed = true ∨ s.channel.capacity ≤ s.channel.events.length

section Step
variable [Platform] [Sha256] [AuditCursorText] [IpNetwork]

/-- A demand is answered, at an instant no earlier than the one before; or the channel or the worker
takes a turn. The events of the demands are the only ones that are recorded, and the worker's
inserts the only ones of events handed over. -/
inductive Step (config : JwtConfig) (worker : AuditWorker) (s : Trail) : TrailEvent → Trail → Prop
  | arrives {x : Arrival} (inserts : x.demand.inserts = false) (tables : x.world.tables = s.tables)
      (channel : x.world.audit = s.channel) (later : s.now ≤ x.world.now) :
      Step config worker s (.arrives x)
        ⟨(x.serve config).tables, (x.serve config).audit, s.worker, x.world.now⟩
  | turns {turn : DeliveryTurn} {d : AuditDelivery} (own : ∀ e, turn ≠ .records e)
      (step : s.delivery.Step worker turn d) :
      Step config worker s (.turns turn) ⟨d.tables, d.channel, d.worker, s.now⟩

end Step

section Worker
variable [IpNetwork]

/-- An insert of an event that reports no success. -/
def Fails (e : AuditEvent) (m : Move Trail TrailEvent) : Bool :=
  match m.label, m.pre.worker with
  | .turns (.inserts fate), .inserting f _ _ =>
    f = e && !(insertEvent fate m.pre.tables f).1
  | _, _ => false

/-- How many inserts of an event have failed. -/
def failures (e : AuditEvent) (ms : List (Move Trail TrailEvent)) : ℕ := ms.countP (Fails e)

/-- A move writes the row of an event. -/
def Writes (e : AuditEvent) (m : Move Trail TrailEvent) : Prop :=
  m.post.tables.auditEvents.rows = m.pre.tables.auditEvents.rows ++ [e.row]

/-- Since the run began an event has got its row, or it still waits for it, or it has been given
up. -/
def Told (worker : AuditWorker) (ms : List (Move Trail TrailEvent)) (s : Trail) (e : AuditEvent) :
    Prop :=
  e ∈ s.waiting ∨ (∃ m ∈ ms, Writes e m) ∧ e.row ∈ s.tables.auditEvents ∨
    worker.maxRetries < failures e ms

end Worker
end Trail

/-! ## Inserts -/

section Inserts
variable [IpNetwork] {fate : InsertFate} {t : Tables} {e r : AuditEvent}

/-- An insert appends the row of the event, or it changes nothing and reports no success. -/
lemma insertEvent_cases (fate : InsertFate) (t : Tables) (e : AuditEvent) :
    t.insertAuditEvent e.row = .ok (insertEvent fate t e).2 ∨
    insertEvent fate t e = (false, t) := by
  unfold insertEvent
  split
  · exact Or.inl ‹_›
  · exact Or.inl ‹_›
  · exact Or.inr rfl

/-- An insert that reports success has appended the row. -/
lemma rows_of_insertEvent (h : (insertEvent fate t e).1 = true) :
    (insertEvent fate t e).2.auditEvents.rows = t.auditEvents.rows ++ [e.row] := by
  rcases insertEvent_cases fate t e with hinsert | hsame
  · exact (Tables.insertAuditEvent_eq_ok hinsert).2.1
  · rw [hsame] at h
    cases h

/-- The rows after an insert are those before and, if it has its effect, the row of the event. -/
lemma mem_insertEvent (h : r ∈ (insertEvent fate t e).2.auditEvents) :
    r ∈ t.auditEvents ∨ r = e.row := by
  rcases insertEvent_cases fate t e with hinsert | hsame
  · rw [← Table.mem_rows, (Tables.insertAuditEvent_eq_ok hinsert).2.1] at h
    exact (List.mem_append.mp h).imp_right List.mem_singleton.mp
  · rw [hsame] at h
    exact Or.inl h

/-- An insert leaves the events that are there. -/
lemma mem_insertEvent_of_mem (h : r ∈ t.auditEvents) :
    r ∈ (insertEvent fate t e).2.auditEvents := by
  rcases insertEvent_cases fate t e with hinsert | hsame
  · rw [← Table.mem_rows, (Tables.insertAuditEvent_eq_ok hinsert).2.1]
    exact List.mem_append_left _ h
  · rw [hsame]
    exact h

end Inserts

namespace Trail

/-! ## What a turn does -/

section Turns
variable [IpNetwork] {worker : AuditWorker} {s : Trail} {ms : List (Move Trail TrailEvent)}
  {m : Move Trail TrailEvent} {turn : DeliveryTurn} {d : AuditDelivery} {e r : AuditEvent}

/-- One more move is one more failure or none. -/
lemma failures_snoc :
    failures e (ms ++ [m]) = failures e ms + if Fails e m then 1 else 0 := by
  unfold failures
  rw [List.countP_append, List.countP_singleton]

/-- Failures are not forgotten. -/
lemma failures_le : failures e ms ≤ failures e (ms ++ [m]) := failures_snoc ▸ Nat.le_add_right _ _

omit [IpNetwork] in
/-- The counter is a `u32`; wrapping around makes it only smaller. -/
lemma afterInsert_counts (worker : AuditWorker) (e : AuditEvent) (attempt backoffMs : ℕ) (ok : Bool) :
    (ok = true ∨ worker.maxRetries < attempt + 1) ∧
        worker.afterInsert e attempt backoffMs ok = .receiving ∨
      ok = false ∧ ∃ k ≤ attempt + 1,
        worker.afterInsert e attempt backoffMs ok = .sleeping e k backoffMs := by
  have hwraps : (attempt + 1) % 2 ^ 32 ≤ attempt + 1 := Nat.mod_le _ _
  unfold AuditWorker.afterInsert
  cases ok with
  | true => exact Or.inl ⟨Or.inl rfl, rfl⟩
  | false =>
    by_cases hlast : worker.maxRetries < (attempt + 1) % 2 ^ 32
    · exact Or.inl ⟨Or.inr (hlast.trans_le hwraps), if_pos hlast⟩
    · exact Or.inr ⟨rfl, _, hwraps, if_neg hlast⟩

/-- A turn puts no new event in the queue. -/
lemma waiting_of_turn (own : ∀ e, turn ≠ .records e) (step : s.delivery.Step worker turn d)
    (he : e ∈ d.worker.inHand ++ d.channel.events) : e ∈ s.waiting := by
  unfold waiting
  cases AuditDelivery.cause_of_step step with
  | refuses => exact absurd rfl (own _)
  | accepts opened => exact absurd rfl (own _)
  | closes => exact he
  | takes waits queue =>
    have hqueue : s.channel.events = _ := queue
    rw [hqueue]
    exact List.mem_append_right _ he
  | stops waits queue closed => exact List.mem_append_right _ he
  | @inserts fate f attempt backoffMs stands =>
    have hstands : s.worker = _ := stands
    rw [hstands]
    rcases afterInsert_counts worker f attempt backoffMs (insertEvent fate s.tables f).1 with
      ⟨-, hafter⟩ | ⟨-, k, -, hafter⟩
    · rw [show worker.afterInsert f attempt backoffMs (insertEvent fate s.delivery.tables f).1 =
        .receiving from hafter] at he
      exact List.mem_append_right _ he
    · rw [show worker.afterInsert f attempt backoffMs (insertEvent fate s.delivery.tables f).1 =
        .sleeping f k backoffMs from hafter] at he
      exact he
  | wakes stands =>
    have hstands : s.worker = _ := stands
    rw [hstands]
    exact he

/-- A turn adds no row but that of the event in hand. -/
lemma rows_of_turn (step : s.delivery.Step worker turn d) (hr : r ∈ d.tables.auditEvents) :
    r ∈ s.tables.auditEvents ∨ ∃ e ∈ s.waiting, r = e.row := by
  cases AuditDelivery.cause_of_step step with
  | @inserts fate f attempt backoffMs stands =>
    have hstands : s.worker = _ := stands
    refine (mem_insertEvent hr).imp_right fun hrow => ⟨f, ?_, hrow⟩
    unfold waiting
    rw [hstands]
    exact List.mem_append_left _ (List.mem_singleton_self f)
  | _ => exact Or.inl hr

/-- A turn keeps the rows. -/
lemma mem_of_turn (step : s.delivery.Step worker turn d) (hr : r ∈ s.tables.auditEvents) :
    r ∈ d.tables.auditEvents := by
  cases AuditDelivery.cause_of_step step with
  | inserts stands => exact mem_insertEvent_of_mem hr
  | _ => exact hr

/-- A failed insert counts. -/
lemma failures_of_failed {fate : InsertFate} {attempt backoffMs : ℕ}
    (hcounted : attempt ≤ failures e ms) (stands : m.pre.worker = .inserting e attempt backoffMs)
    (hlabel : m.label = .turns (.inserts fate))
    (hfailed : (insertEvent fate m.pre.tables e).1 = false) :
    attempt + 1 ≤ failures e (ms ++ [m]) := by
  have hfails : Fails e m = true := by
    unfold Fails
    rw [hlabel, stands]
    simp [hfailed]
  rw [failures_snoc, hfails, if_pos rfl]
  exact Nat.add_le_add_right hcounted 1

/-- An event that waits, with all its attempts among the failed inserts. -/
def Counted (ms : List (Move Trail TrailEvent)) (s : Trail) (e : AuditEvent) : Prop :=
  e ∈ s.channel.events ∨ e ∈ s.worker.inHand ∧ s.worker.attempts ≤ failures e ms

/-- What holds of an event since it was put on the queue. -/
def Kept (worker : AuditWorker) (ms : List (Move Trail TrailEvent)) (s : Trail) (e : AuditEvent) :
    Prop :=
  Counted ms s e ∨ (∃ m ∈ ms, Writes e m) ∧ e.row ∈ s.tables.auditEvents ∨
    worker.maxRetries < failures e ms

/-- An event that is kept is told. -/
lemma Kept.told (h : Kept worker ms s e) : Told worker ms s e := by
  refine h.imp_left fun hcounted => ?_
  rcases hcounted with hqueue | ⟨hhand, -⟩
  · exact List.mem_append_right _ hqueue
  · exact List.mem_append_left _ hhand

/-- An insert leaves the event in hand or writes its row, or the event is given up. -/
lemma Kept.after_insert {fate : InsertFate} {attempt backoffMs : ℕ}
    (stands : s.worker = .inserting e attempt backoffMs) (hcounted : attempt ≤ failures e ms)
    {u : Trail} (htables : u.tables = (insertEvent fate s.tables e).2)
    (hworker : u.worker = worker.afterInsert e attempt backoffMs (insertEvent fate s.tables e).1) :
    Kept worker (ms ++ [⟨s, .turns (.inserts fate), u⟩]) u e := by
  cases hok : (insertEvent fate s.tables e).1 with
  | true =>
    have hrows := rows_of_insertEvent hok
    rw [← htables] at hrows
    refine Or.inr (Or.inl ⟨⟨_, List.mem_append_right _ (List.mem_singleton_self _), hrows⟩, ?_⟩)
    rw [← Table.mem_rows, hrows]
    exact List.mem_append_right _ (List.mem_singleton_self _)
  | false =>
    have hfailed : attempt + 1 ≤ failures e (ms ++ [⟨s, .turns (.inserts fate), u⟩]) :=
      failures_of_failed hcounted stands rfl hok
    rw [hok] at hworker
    rcases afterInsert_counts worker e attempt backoffMs false with
      ⟨hend, -⟩ | ⟨-, k, hk, hafter⟩
    · exact Or.inr (Or.inr ((hend.resolve_left Bool.false_ne_true).trans_le hfailed))
    · rw [hafter] at hworker
      refine Or.inl (Or.inr ?_)
      rw [hworker]
      exact ⟨List.mem_singleton_self e, hk.trans hfailed⟩

/-- A turn loses no event: the worker drops one only when its row is there or all its inserts have
failed. -/
lemma Kept.after_turn (own : ∀ e, turn ≠ .records e) (step : s.delivery.Step worker turn d)
    (h : Kept worker ms s e) :
    Kept worker (ms ++ [⟨s, .turns turn, ⟨d.tables, d.channel, d.worker, s.now⟩⟩])
      ⟨d.tables, d.channel, d.worker, s.now⟩ e := by
  rcases h with hcounted | ⟨⟨m, hm, hwrites⟩, hstored⟩ | hgiven
  · unfold Counted at hcounted
    cases AuditDelivery.cause_of_step step with
    | refuses => exact absurd rfl (own _)
    | accepts opened => exact absurd rfl (own _)
    | closes => exact Or.inl (hcounted.imp_right fun ⟨hhand, hle⟩ => ⟨hhand, hle.trans failures_le⟩)
    | @takes f rest waits queue =>
      rw [show s.worker = _ from waits, show s.channel.events = _ from queue] at hcounted
      rcases hcounted with hqueue | ⟨hhand, -⟩
      · rcases List.mem_cons.mp hqueue with rfl | hrest
        · exact Or.inl (Or.inr ⟨List.mem_singleton_self _, Nat.zero_le _⟩)
        · exact Or.inl (Or.inl hrest)
      · cases hhand
    | stops waits queue closed =>
      rw [show s.worker = _ from waits, show s.channel.events = _ from queue] at hcounted
      rcases hcounted with hqueue | ⟨hhand, -⟩
      · cases hqueue
      · cases hhand
    | @inserts fate f attempt backoffMs stands =>
      rcases hcounted with hqueue | ⟨hhand, hle⟩
      · exact Or.inl (Or.inl hqueue)
      · rw [show s.worker = _ from stands] at hhand hle
        obtain rfl := List.mem_singleton.mp hhand
        exact Kept.after_insert stands hle rfl rfl
    | @wakes f attempt backoffMs stands =>
      rw [show s.worker = _ from stands] at hcounted
      exact Or.inl (hcounted.imp_right fun ⟨hhand, hle⟩ => ⟨hhand, hle.trans failures_le⟩)
  · exact Or.inr (Or.inl ⟨⟨m, List.mem_append_left _ hm, hwrites⟩, mem_of_turn step hstored⟩)
  · exact Or.inr (Or.inr (hgiven.trans_le failures_le))

/-- A worker that has stopped has left nothing behind. -/
def Drained (s : Trail) : Prop :=
  s.worker = .stopped → s.channel.closed = true ∧ s.channel.events = []

/-- A worker that has stopped leaves nothing behind after its turn. -/
lemma Drained.after_turn (h : s.Drained) (own : ∀ e, turn ≠ .records e)
    (step : s.delivery.Step worker turn d) :
    Drained ⟨d.tables, d.channel, d.worker, s.now⟩ := by
  intro hstopped
  cases AuditDelivery.cause_of_step step with
  | refuses => exact absurd rfl (own _)
  | accepts opened => exact absurd rfl (own _)
  | closes => exact ⟨rfl, (h hstopped).2⟩
  | takes waits queue => cases hstopped
  | stops waits queue closed => exact ⟨closed, queue⟩
  | @inserts fate f attempt backoffMs stands =>
    have hstopped : worker.afterInsert f attempt backoffMs (insertEvent fate s.tables f).1 =
      .stopped := hstopped
    rcases afterInsert_counts worker f attempt backoffMs (insertEvent fate s.tables f).1 with
      ⟨-, hafter⟩ | ⟨-, k, -, hafter⟩
    · rw [hafter] at hstopped
      cases hstopped
    · rw [hafter] at hstopped
      cases hstopped
  | wakes stands => cases hstopped

end Turns

/-! ## Runs -/

section Runs
variable [Platform] [Sha256] [AuditCursorText] [IpNetwork] {config : JwtConfig}
  {worker : AuditWorker} {s s' : Trail} {ev : TrailEvent} {ms : List (Move Trail TrailEvent)}
  {e r : AuditEvent}

/-- A move puts an event on the queue: it is the one that its demand has offered, and it tells what
this demand was. -/
def Puts (config : JwtConfig) (e : AuditEvent) (m : Move Trail TrailEvent) : Prop :=
  ∃ x, m.label = .arrives x ∧ x.Records config e ∧
    m.post.channel.events = m.pre.channel.events ++ [e]

/-- An event that waits in a run waited at its start, or a move of the run has put it on the queue. -/
def Source (config : JwtConfig) (s : Trail) (ms : List (Move Trail TrailEvent)) (e : AuditEvent) :
    Prop :=
  e ∈ s.waiting ∨ ∃ m ∈ ms, Puts config e m

omit [AuditCursorText] [IpNetwork] in
/-- An event keeps its source. -/
lemma Source.snoc {m : Move Trail TrailEvent} (h : Source config s ms e) :
    Source config s (ms ++ [m]) e := by
  refine h.imp_right ?_
  rintro ⟨n, hn, hputs⟩
  exact ⟨n, List.mem_append_left _ hn, hputs⟩

/-- Over every run, whatever waits has a source. -/
lemma source_run (run : Run (Step config worker) s ms s') (he : e ∈ s'.waiting) :
    Source config s ms e := by
  induction run with
  | nil => exact Or.inl he
  | @snoc ms t ev u run step ih =>
    cases step with
    | @arrives x inserts tables channel later =>
      rcases List.mem_append.mp he with hhand | hqueue
      · exact (ih (List.mem_append_left _ hhand)).snoc
      · have hold (h : e ∈ x.world.audit.events) : Source config s (ms ++ [⟨t, .arrives x,
            ⟨(x.serve config).tables, (x.serve config).audit, t.worker, x.world.now⟩⟩]) e :=
          (ih (List.mem_append_right _ (channel ▸ h))).snoc
        rcases Arrival.hears config x with hsame | ⟨f, hrecords, hoffered⟩
        · exact hold (hsame ▸ hqueue)
        · have hqueue : e ∈ (x.serve config).audit.events := hqueue
          rw [hoffered] at hqueue
          rcases AuditChannel.mem_offered hqueue with h | ⟨rfl, hgrown⟩
          · exact hold h
          · refine Or.inr ⟨_, List.mem_append_right _ (List.mem_singleton_self _), x, rfl,
              hrecords, ?_⟩
            show (x.serve config).audit.events = t.channel.events ++ [e]
            rw [hoffered, hgrown, channel]
    | turns own step => exact (ih (waiting_of_turn own step he)).snoc

/-- A row of the audit log is there from the start, or it is that of an event with a source, or the
bootstrap's. -/
def Traced (config : JwtConfig) (s : Trail) (ms : List (Move Trail TrailEvent)) (r : AuditEvent) :
    Prop :=
  r ∈ s.tables.auditEvents ∨ (∃ e, Source config s ms e ∧ r = e.row) ∨
    ∃ m ∈ ms, ∃ x, m.label = .arrives x ∧ x.Seeds config r

/-- A row stays traced. -/
lemma Traced.snoc {m : Move Trail TrailEvent} (h : Traced config s ms r) :
    Traced config s (ms ++ [m]) r := by
  refine h.imp_right (Or.imp ?_ ?_)
  · rintro ⟨e, he, hrow⟩
    exact ⟨e, he.snoc, hrow⟩
  · rintro ⟨n, hn, hx⟩
    exact ⟨n, List.mem_append_left _ hn, hx⟩

/-- The audit log tells the truth: over every run, a row of it was there at the start, or it is that of
an event that waited then, or that a demand of the run has put on the channel and that tells what this
demand was, or it is the bootstrap's of the first administrator. -/
theorem rows_truthful (run : Run (Step config worker) s ms s') (hr : r ∈ s'.tables.auditEvents) :
    Traced config s ms r := by
  induction run with
  | nil => exact Or.inl hr
  | @snoc ms t ev u run step ih =>
    cases step with
    | @arrives x inserts tables channel later =>
      rcases Arrival.rows_serve inserts hr with hold | hseeds
      · rw [tables] at hold
        exact (ih hold).snoc
      · exact Or.inr (Or.inr ⟨_, List.mem_append_right _ (List.mem_singleton_self _), x, rfl, hseeds⟩)
    | turns own step =>
      rcases rows_of_turn step hr with hold | ⟨e, he, rfl⟩
      · exact (ih hold).snoc
      · exact Or.inr (Or.inl ⟨e, (source_run run he).snoc, rfl⟩)

/-- An event that has been put on the queue is kept over every run. -/
lemma kept_run (run : Run (Step config worker) s ms s') (he : e ∈ s.channel.events) :
    Kept worker ms s' e := by
  induction run with
  | nil => exact Or.inl (Or.inl he)
  | @snoc ms t ev u run step ih =>
    cases step with
    | @arrives x inserts tables channel later =>
      rcases ih with (hqueue | ⟨hhand, hle⟩) | ⟨⟨m, hm, hwrites⟩, hstored⟩ | hgiven
      · refine Or.inl (Or.inl ?_)
        show e ∈ (x.serve config).audit.events
        rw [← channel] at hqueue
        rcases Arrival.hears config x with hsame | ⟨f, -, hoffered⟩
        · exact hsame ▸ hqueue
        · exact hoffered ▸ AuditChannel.mem_offered_of_mem hqueue
      · exact Or.inl (Or.inr ⟨hhand, hle.trans failures_le⟩)
      · have hfollows : ReflTransGen (Effect.Step (x.Entitles config)) x.world.tables
            (x.serve config).tables := Arrival.serve_follows
        have hextends := Effect.extends_of_follows hfollows
        rw [tables] at hextends
        exact Or.inr (Or.inl ⟨⟨m, List.mem_append_left _ hm, hwrites⟩,
          hextends.events.subset hstored⟩)
      · exact Or.inr (Or.inr (hgiven.trans_le failures_le))
    | turns own step => exact ih.after_turn own step

/-- A worker that has stopped leaves nothing behind, over every run. -/
lemma drained_run (run : Run (Step config worker) s ms s') (h : s.Drained) : s'.Drained := by
  refine run.invariant Drained (fun _ => True) h ?_ fun _ _ => trivial
  intro t ev u step _ ht
  cases step with
  | @arrives x inserts tables channel later =>
    intro hstopped
    obtain ⟨hclosed, hempty⟩ := ht hstopped
    rw [← channel] at hclosed hempty
    show (x.serve config).audit.closed = true ∧ (x.serve config).audit.events = []
    rcases Arrival.hears config x with hsame | ⟨f, -, hoffered⟩
    · rw [hsame]
      exact ⟨hclosed, hempty⟩
    · rw [hoffered, AuditChannel.offered_of_closed hclosed]
      exact ⟨hclosed, hempty⟩
  | turns own step => exact ht.after_turn own step

omit [Platform] [Sha256] [AuditCursorText] [IpNetwork] in
/-- Nothing waits once the worker has stopped. -/
lemma Drained.waiting_eq_nil (h : s.Drained) (hstopped : s.worker = .stopped) : s.waiting = [] := by
  unfold waiting
  rw [hstopped, (h hstopped).2]
  rfl

/-- Every change is told: a move of a run in which a protected request changes the tables offers the
channel the event of this request. Unless the channel refuses it, the event is told over every run
from there: it gets its row, or it still waits, or the worker has given it up after more than
`max_retries` failed inserts; and once the worker has stopped nothing waits any more. -/
theorem changes_told (run : Run (Step config worker) s ms s') (hready : s.worker = .receiving)
    {m : Move Trail TrailEvent} (hm : m ∈ ms) {x : Arrival} (hlabel : m.label = .arrives x)
    {headers : Headers} {route : Route} (hdemand : x.demand = .guarded headers route)
    (hchanged : m.post.tables ≠ m.pre.tables) :
    ∃ p e, Principal.Presented config headers x.world p ∧ route.gate.Passes p m.pre.tables ∧
      route.Recorded p x.world.ledger
        ((respond config headers route).run x.world).1.toOption e ∧
      m.post.channel = m.pre.channel.offered e ∧
      (m.pre.Refuses ∨ ∀ ms' s'', Run (Step config worker) m.post ms' s'' →
        Told worker ms' s'' e ∧ (s''.worker = .stopped → s''.waiting = [])) := by
  obtain ⟨before, after, -, hbefore, -⟩ := run.split hm
  have hstep : Step config worker m.pre m.label m.post := run.step_of_mem hm
  have hdrained : m.post.Drained := by
    refine drained_run (.snoc hbefore hstep) fun hstopped => ?_
    rw [hready] at hstopped
    cases hstopped
  obtain ⟨pre, label, post⟩ := m
  subst hlabel
  obtain ⟨w, demand⟩ := x
  subst hdemand
  have hstep : Step config worker pre (.arrives ⟨w, .guarded headers route⟩) post := hstep
  cases hstep with
  | arrives inserts tables channel later =>
    have htables : w.tables = pre.tables := tables
    have hchannel : w.audit = pre.channel := channel
    cases hrun : (respond config headers route).run w with
    | mk r v =>
      have hserve : Arrival.serve config ⟨w, .guarded headers route⟩ = v := congrArg Prod.snd hrun
      obtain hsame | ⟨p, c, hpresented, hc, hadmits, ⟨e, he, haudit⟩, -⟩ := respond_told hrun
      · refine absurd ((congrArg World.tables hserve).trans ?_) hchanged
        exact (congrArg Ledger.tables hsame).trans htables
      · have hoffered : (Arrival.serve config ⟨w, .guarded headers route⟩).audit =
            pre.channel.offered e := by
          rw [hserve, haudit, hchannel]
        refine ⟨p, e, hpresented, htables ▸ hadmits.passes hc, he, hoffered, ?_⟩
        rcases AuditChannel.offered_cases pre.channel e with ⟨hrefuses, -⟩ | ⟨-, happends⟩
        · exact Or.inl hrefuses
        · refine Or.inr fun ms' s'' hrun' => ⟨(kept_run hrun' ?_).told, ?_⟩
          · show e ∈ (Arrival.serve config ⟨w, .guarded headers route⟩).audit.events
            rw [hoffered, happends]
            exact List.mem_append_right _ (List.mem_singleton_self e)
          · exact (drained_run hrun' hdrained).waiting_eq_nil

end Runs

/-! ## A logout that is written down -/

/-- What the logout of the owner records. -/
def ownerLeavesEvent : AuditEvent := .logout ⟨0x21, 0⟩ 0x11 0xa 0x21

/-- The worker waits for events, and there are none. -/
def ownerIn : Trail := ⟨ownerTables, ⟨[], 1024, false⟩, .receiving, 0⟩

/-- The owner has left, and the event waits. -/
def ownerOut : Trail := ⟨ownerLeft, ⟨[ownerLeavesEvent], 1024, false⟩, .receiving, 0⟩

/-- The worker has taken the event. -/
def ownerTaken : Trail :=
  ⟨ownerLeft, ⟨[], 1024, false⟩, .inserting ownerLeavesEvent 0 100, 0⟩

/-- The worker has inserted the event. -/
def ownerWritten : Trail where
  tables := (@insertEvent ⟨some⟩ .answered ownerLeft ownerLeavesEvent).2
  channel := ⟨[], 1024, false⟩
  worker := .receiving
  now := 0

/-- The moves that lead there. -/
def ownerMoves : List (Move Trail TrailEvent) :=
  [⟨ownerIn, .arrives ownerLeaves, ownerOut⟩, ⟨ownerOut, .turns .receives, ownerTaken⟩,
    ⟨ownerTaken, .turns (.inserts .answered), ownerWritten⟩]

/-- The moves are a run. -/
lemma ownerMoves_run :
    Run (@Step (signingPlatform ownerSession) ⟨id⟩ ⟨fun _ => "", fun _ => none⟩ ⟨some⟩ runConfig
      ⟨2, 100⟩) ownerIn ownerMoves ownerWritten := by
  let _ : Platform := signingPlatform ownerSession
  let _ : Sha256 := ⟨id⟩
  let _ : AuditCursorText := ⟨fun _ => "", fun _ => none⟩
  let _ : IpNetwork := ⟨some⟩
  have haudit : (ownerLeaves.serve runConfig).audit = ⟨[ownerLeavesEvent], 1024, false⟩ := by
    decide +kernel
  have harrives : Step runConfig ⟨2, 100⟩ ownerIn (.arrives ownerLeaves) ownerOut := by
    have hstep : Step runConfig ⟨2, 100⟩ ownerIn (.arrives ownerLeaves)
        ⟨ownerLeft, (ownerLeaves.serve runConfig).audit, .receiving, 0⟩ :=
      .arrives rfl rfl rfl le_rfl
    rwa [haudit] at hstep
  have htakes : Step runConfig ⟨2, 100⟩ ownerOut (.turns .receives) ownerTaken :=
    .turns (d := ⟨_, _, _, [], []⟩) (fun e h => by cases h) rfl
  have hinserts : Step runConfig ⟨2, 100⟩ ownerTaken (.turns (.inserts .answered)) ownerWritten := by
    have hok : (insertEvent .answered ownerLeft ownerLeavesEvent).1 = true := by decide +kernel
    have hstep : Step runConfig ⟨2, 100⟩ ownerTaken (.turns (.inserts .answered))
        ⟨(insertEvent .answered ownerLeft ownerLeavesEvent).2, ⟨[], 1024, false⟩,
          AuditWorker.afterInsert ⟨2, 100⟩ ownerLeavesEvent 0 100
            (insertEvent .answered ownerLeft ownerLeavesEvent).1, 0⟩ :=
      .turns (d := ⟨_, _, _, [], [⟨ownerLeavesEvent, .answered, _⟩]⟩) (fun e h => by cases h) rfl
    rw [hok] at hstep
    exact hstep
  exact .cons harrives (.cons htakes (.single hinserts))

/-- The row of the logout is traced to the request, which has put its event on the channel. -/
theorem rows_truthful_logout :
    ownerWritten.tables.auditEvents.rows = [ownerLeavesEvent] ∧
      @Traced (signingPlatform ownerSession) ⟨id⟩ ⟨fun _ => "", fun _ => none⟩ ⟨some⟩ runConfig
        ownerIn ownerMoves ownerLeavesEvent := by
  let _ : Platform := signingPlatform ownerSession
  let _ : Sha256 := ⟨id⟩
  let _ : AuditCursorText := ⟨fun _ => "", fun _ => none⟩
  let _ : IpNetwork := ⟨some⟩
  have hrows : ownerWritten.tables.auditEvents.rows = [ownerLeavesEvent] := by decide +kernel
  refine ⟨hrows, rows_truthful ownerMoves_run ?_⟩
  rw [← Table.mem_rows, hrows]
  exact List.mem_singleton_self _

/-- The change that the logout has made is told. -/
theorem changes_told_logout :
    let _ : Platform := signingPlatform ownerSession
    let _ : Sha256 := ⟨id⟩
    let _ : AuditCursorText := ⟨fun _ => "", fun _ => none⟩
    let _ : IpNetwork := ⟨some⟩
    ∃ p e, Principal.Presented runConfig ownerHeaders ownerLeaves.world p ∧
      Route.logout.gate.Passes p ownerTables ∧
      Route.Recorded .logout p ownerLeaves.world.ledger
        ((respond runConfig ownerHeaders .logout).run ownerLeaves.world).1.toOption e ∧
      ownerOut.channel = ownerIn.channel.offered e ∧
      (ownerIn.Refuses ∨ ∀ ms' s'', Run (Step runConfig ⟨2, 100⟩) ownerOut ms' s'' →
        Told ⟨2, 100⟩ ms' s'' e ∧ (s''.worker = .stopped → s''.waiting = [])) := by
  intro _ _ _ _
  have hchanged : ownerLeft ≠ ownerTables := by
    intro hsame
    have hrows : ownerLeft.revokedTokens.rows.length = 1 := by decide +kernel
    rw [hsame] at hrows
    cases hrows
  exact changes_told ownerMoves_run rfl (List.mem_cons_self ..) rfl rfl hchanged

end Trail
end Egras
