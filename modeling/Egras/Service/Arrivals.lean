import Egras.Service.Policy

/-!
# From headers to rows

The service over whole runs of what reaches it: protected requests with their headers, each of which
first has to pass `AuthService::call`, and the operations that need no caller. A protected request is
entitled to an effect when its headers carry a valid credential of a principal that passes the gate
of the route and the policy of the route permits the effect to it (`Entitles`). Over every run the
tables move by such effects only (`permitted`).
-/

namespace Egras
open Lib Relation

/-! ## What reaches the service -/

/-- An operation is done for a caller, or to find out who the caller is. -/
def Operation.needsCaller : Operation → Bool
  | request _ _ _ | call _ => true
  | login _ | passwordResetRequest _ _ | passwordResetConfirm _ | touchLastUsed _
  | insertAuditEvent _ | bootstrapSeedAdmin _ => false

/-- What the service is asked for: by a protected request with its headers, or without a caller. -/
inductive Demand
  | guarded (headers : Headers) (route : Route)
  | unguarded (operation : Operation) (free : operation.needsCaller = false)

/-- A demand with the world in which it is answered. -/
structure Arrival where
  world : World
  demand : Demand

namespace Arrival
variable [Platform] [Sha256] [AuditCursorText]

/-- The world after a demand has been answered. -/
def serve (config : JwtConfig) (x : Arrival) : World :=
  match x.demand with
  | .guarded headers route => ((respond config headers route).run x.world).2
  | .unguarded operation _ => OperationCall.serve config ⟨x.world, operation⟩

/-- A demand that arrives at an instant no earlier than the one before and is served whole before the
next one. -/
structure Step (config : JwtConfig) (i : Instant) (x : Arrival) (j : Instant) : Prop where
  pre : x.world.tables = i.tables
  later : i.now ≤ x.world.now
  post : (x.serve config).tables = j.tables
  now : j.now = x.world.now

omit [AuditCursorText] in
/-- A demand is entitled to an effect on the tables `t`. -/
def Entitles (config : JwtConfig) (x : Arrival) (t : Tables) (e : Effect) : Prop :=
  match x.demand with
  | .guarded headers route => ∃ p c, Principal.Presented config headers x.world p ∧
    AuthedCaller.Represents c p x.world.tables ∧ route.gate.Passes p x.world.tables ∧
    route.Permits c x.world.tables x.world.now t e
  | .unguarded operation _ => operation.Permits x.world t e

end Arrival

/-! ## The service keeps to the policy -/

namespace Arrival
variable [Platform] [Sha256] {config : JwtConfig}

/-- A protected request has only effects that it is entitled to. -/
lemma follows_respond {w : World} {headers : Headers} {route : Route} :
    Prog.Follows World.tables (Effect.Step (Entitles config ⟨w, .guarded headers route⟩)) w
      (respond config headers route) := by
  refine .bind_reads reads_call fun ext u hcall hu => ?_
  obtain ⟨p, c, hpresented, hc, rfl⟩ := call_presents hcall
  have hnow : u.now = w.now := reads_call.of_run hcall
  refine (follows_handler.mono ?_).mapErr
  rintro t t' ⟨e, ⟨hadmits, hpermits⟩, happly⟩
  rw [hu, hnow] at hpermits
  exact ⟨e, ⟨p, c, hpresented, hc, hadmits.passes hc, hpermits⟩, happly⟩

variable [AuditCursorText]

/-- A demand has only effects that it is entitled to. -/
theorem serve_follows {x : Arrival} :
    ReflTransGen (Effect.Step (x.Entitles config)) x.world.tables (x.serve config).tables := by
  obtain ⟨w, demand⟩ := x
  cases demand with
  | guarded headers route => exact follows_respond
  | unguarded operation free => exact OperationCall.serve_follows (x := ⟨w, operation⟩)

variable {x : Arrival} {i j : Instant} {ms : List (Move Instant Arrival)}

/-- A step goes along effects that its demand is entitled to. -/
lemma Step.follows (step : x.Step config i j) :
    ReflTransGen (Effect.Step (x.Entitles config)) i.tables j.tables :=
  step.pre ▸ step.post ▸ serve_follows

/-- A move of a run does an effect on its way, to which its demand is entitled. -/
structure Does (config : JwtConfig) (m : Move Instant Arrival) (s : Tables) (e : Effect)
    (s' : Tables) : Prop where
  before : ReflTransGen (Effect.Step (m.label.Entitles config)) m.pre.tables s
  entitled : m.label.Entitles config s e
  effect : Effect.apply s e = .ok s'
  after : ReflTransGen (Effect.Step (m.label.Entitles config)) s' m.post.tables

/-- What the tables tell at the end of a run and not at its start has been brought about by an
effect of a move. -/
lemma turn_of_run {P : Tables → Prop} (run : Run (Step config) i ms j) (hi : ¬ P i.tables)
    (hj : P j.tables) : ∃ m ∈ ms, ∃ s e s', Does config m s e s' ∧ ¬ P s ∧ P s' := by
  obtain ⟨m, hm, hpre, hpost⟩ := run.exists_turn (P := fun s => P s.tables) hi hj
  obtain ⟨s, s', before, ⟨e, hentitled, happly⟩, after, hs, hs'⟩ :=
    exists_turn (run.step_of_mem hm).follows hpre hpost
  exact ⟨m, hm, s, e, s', ⟨before, hentitled, happly, after⟩, hs, hs'⟩

/-- What every effect preserves holds over every run. -/
lemma preserved {I : Tables → Prop}
    (hI : ∀ t t' e, Effect.apply t e = .ok t' → I t → I t') (run : Run (Step config) i ms j)
    (h : I i.tables) : I j.tables :=
  run.invariant (fun s => I s.tables) (fun _ => True) h
    (fun _ _ _ step _ hs => Effect.invariant (fun t t' e _ => hI t t' e) step.follows hs)
    fun _ _ => trivial

/-- Over every run, whoever sends what and whatever fails on the way, the tables move by effects only
that a demand of the run is entitled to. -/
theorem permitted (run : Run (Step config) i ms j) :
    ReflTransGen (Effect.Step fun t e => ∃ m ∈ ms, m.label.Entitles config t e)
      i.tables j.tables := by
  induction run with
  | nil => exact .refl
  | snoc run step ih =>
    refine .trans (ReflTransGen.mono ?_ _ _ ih) (ReflTransGen.mono ?_ _ _ step.follows)
    · rintro t t' ⟨e, ⟨m, hm, he⟩, happly⟩
      exact ⟨e, ⟨m, List.mem_append_left _ hm, he⟩, happly⟩
    · rintro t t' ⟨e, he, happly⟩
      exact ⟨e, ⟨_, List.mem_append_right _ (List.mem_singleton_self _), he⟩, happly⟩

end Arrival

/-- The owner of `acme` ends the session. -/
def ownerLeaves : Arrival := ⟨.calm ownerTables 0, .guarded ownerHeaders .logout⟩

/-- The tables after that. -/
def ownerLeft : Tables :=
  (@Arrival.serve (signingPlatform ownerSession) ⟨id⟩ ⟨fun _ => "", fun _ => none⟩ runConfig
    ownerLeaves).tables

/-- The owner's logout is a step. -/
lemma ownerLeaves_step :
    @Arrival.Step (signingPlatform ownerSession) ⟨id⟩ ⟨fun _ => "", fun _ => none⟩ runConfig
      ⟨ownerTables, 0⟩ ownerLeaves ⟨ownerLeft, 0⟩ :=
  let _ : Platform := signingPlatform ownerSession
  let _ : Sha256 := ⟨id⟩
  let _ : AuditCursorText := ⟨fun _ => "", fun _ => none⟩
  ⟨rfl, le_rfl, rfl, rfl⟩

/-- The session is revoked then, to which the request was entitled. -/
theorem permitted_ownerLeaves :
    ownerLeft.revokedTokens.rows.length = 1 ∧
      ReflTransGen (@Effect.Step (signingPlatform ownerSession).toCaseMapping fun t e =>
        ∃ m ∈ [Move.mk (Instant.mk ownerTables 0) ownerLeaves ⟨ownerLeft, 0⟩],
          @Arrival.Entitles (signingPlatform ownerSession) ⟨id⟩ runConfig m.label t e)
        ownerTables ownerLeft := by
  let _ : Platform := signingPlatform ownerSession
  let _ : Sha256 := ⟨id⟩
  let _ : AuditCursorText := ⟨fun _ => "", fun _ => none⟩
  exact ⟨by decide +kernel, Arrival.permitted (.single ownerLeaves_step)⟩

end Egras
