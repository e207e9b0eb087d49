import Egras.Features.Service
import Egras.Lib.Interleave

/-!
# Feature flags, step by step

The positions of an evaluation and of the calls that set or clear a flag, with what one step of each
does (`EvalPos.next`, `setNext`, `clearNext`). A step is one statement, one access to the cache or
one reading of the clock, and is a run of that part of the source alone; what comes between two of
them happens at the end of the first. `rest` is the part of the source that a position stands
before, and `run_evalNext`, `run_setNext` and `run_clearNext` say that a step leads there: taken one
after the other with nothing in between, the steps are a run of the source.

`featureSystem` lets any number of these calls interleave on one node. The decisive step of an
evaluation reads the override, the one of the other calls writes it. `Moves` lists what a step can
do.
-/

namespace Egras
open Lib

/-- Where an evaluation stands. -/
inductive EvalPos
  | clock
  | lookup (now : Timestamp)
  | override (now : Timestamp)
  | definition (now : Timestamp)
  | insert (now : Timestamp) (value : Value)
  | done (r : Except EvaluateError Value)
deriving DecidableEq

/-- An evaluation with the time to live as a parameter. -/
def evaluateWithTtl (ttl : ℕ) (org : Uuid) (slug : String) : Action EvaluateError Value := do
  let now ← utcNow
  match (← cacheGet org slug).filter (fun entry => now < entry.expiresAt) with
  | some entry => return entry.value
  | none =>
    let value ← evaluateMiss org slug
    cacheInsert ⟨org, slug, value, now + ttl⟩
    return value

/-- The evaluator keeps values for 60 seconds. -/
lemma evaluate_eq {org : Uuid} {slug : String} :
    evaluate org slug = evaluateWithTtl 60000000 org slug := rfl

namespace EvalPos
variable (ttl : ℕ) (org : Uuid) (slug : String)

/-- What is left of an evaluation. -/
def rest : EvalPos → Action EvaluateError Value
  | clock => evaluateWithTtl ttl org slug
  | lookup now => do
    match (← cacheGet org slug).filter (fun entry => now < entry.expiresAt) with
    | some entry => return entry.value
    | none =>
      let value ← evaluateMiss org slug
      cacheInsert ⟨org, slug, value, now + ttl⟩
      return value
  | override now => do
    let value ← evaluateMiss org slug
    cacheInsert ⟨org, slug, value, now + ttl⟩
    return value
  | definition now => do
    let value ← (do
      match ← (getDefinition slug).mapErr .repo with
      | some d => return d.defaultValue
      | none => .fail .unknownSlug : Action EvaluateError Value)
    cacheInsert ⟨org, slug, value, now + ttl⟩
    return value
  | insert now value => do
    cacheInsert ⟨org, slug, value, now + ttl⟩
    return value
  | done r => .ofExcept r

/-- One step of an evaluation. -/
def next : EvalPos → World → Option (EvalPos × World)
  | clock, w => some (lookup w.now, w)
  | lookup now, w =>
    match (w.cache.find? (org, slug)).filter (fun entry => now < entry.expiresAt) with
    | some entry => some (done (.ok entry.value), w)
    | none => some (override now, w)
  | override now, w =>
    match (getOverride org slug).run w with
    | (.ok (some ov), w') => some (insert now ov.value, w')
    | (.ok none, w') => some (definition now, w')
    | (.error e, w') => some (done (.error (.repo e)), w')
  | definition now, w =>
    match (getDefinition slug).run w with
    | (.ok (some d), w') => some (insert now d.defaultValue, w')
    | (.ok none, w') => some (done (.error .unknownSlug), w')
    | (.error e, w') => some (done (.error (.repo e)), w')
  | insert now value, w =>
    some (done (.ok value), { w with cache := w.cache.upsert ⟨org, slug, value, now + ttl⟩ })
  | done _, _ => none

variable {ttl org slug}

/-- A step of an evaluation leads to what the evaluation does next. -/
theorem run_next {p q : EvalPos} {w w' : World} (h : p.next ttl org slug w = some (q, w')) :
    (p.rest ttl org slug).run w = (q.rest ttl org slug).run w' := by
  cases p with
  | clock =>
    cases h
    rfl
  | lookup now =>
    simp only [next] at h
    show (Prog.run (match (w.cache.find? (org, slug)).filter
      (fun entry => now < entry.expiresAt) with
      | some entry => _
      | none => _) w) = _
    split at h
    · cases h
      rfl
    · cases h
      rfl
  | override now =>
    simp only [next] at h
    simp only [rest, evaluateMiss]
    rw [Prog.run_bind, Prog.run_bind, Prog.run_mapErr]
    split at h
    · rename_i ov w₁ hrun
      cases h
      rw [hrun]
      rfl
    · rename_i w₁ hrun
      cases h
      rw [hrun]
      simp only [Except.mapError]
      exact Prog.run_bind.symm
    · rename_i e w₁ hrun
      cases h
      rw [hrun]
      rfl
  | definition now =>
    simp only [next] at h
    simp only [rest]
    rw [Prog.run_bind, Prog.run_bind, Prog.run_mapErr]
    split at h
    · rename_i d w₁ hrun
      cases h
      rw [hrun]
      rfl
    · rename_i w₁ hrun
      cases h
      rw [hrun]
      rfl
    · rename_i e w₁ hrun
      cases h
      rw [hrun]
      rfl
  | insert now value =>
    cases h
    rfl
  | done r => cases h

end EvalPos

/-- Where a call that sets or clears a flag stands. -/
inductive WritePos (ε : Type)
  | definition
  | write (d : FeatureDefinition)
  | invalidate (d : FeatureDefinition) (oldValue : Option Value)
  | audit (d : FeatureDefinition) (oldValue : Option Value)
  | done (r : Except ε Unit)
deriving DecidableEq

section Set
variable (input : SetOrgFeatureInput)

/-- What is left of setting a flag. -/
def setRest : WritePos SetOrgFeatureError → Action SetOrgFeatureError Unit
  | .definition => setOrgFeature input
  | .write d => do
    let oldValue ← (upsertOverride input.organisationId input.slug input.value
      input.actorUserId).mapErr (fun _ => SetOrgFeatureError.other)
    invalidate input.organisationId input.slug
    record (fun s => .featureSet s input.actorUserId input.actorOrgId input.organisationId
      input.slug oldValue input.value d.selfService)
  | .invalidate d oldValue => do
    invalidate input.organisationId input.slug
    record (fun s => .featureSet s input.actorUserId input.actorOrgId input.organisationId
      input.slug oldValue input.value d.selfService)
  | .audit d oldValue =>
    record (fun s => .featureSet s input.actorUserId input.actorOrgId input.organisationId
      input.slug oldValue input.value d.selfService)
  | .done r => .ofExcept r

/-- One step of setting a flag. -/
def setNext : WritePos SetOrgFeatureError → World → Option (WritePos SetOrgFeatureError × World)
  | .definition, w =>
    match (getDefinition input.slug).run w with
    | (.error _, w') => some (.done (.error .other), w')
    | (.ok none, w') => some (.done (.error .unknownSlug), w')
    | (.ok (some d), w') =>
      match d.valueType.validate input.value with
      | .error reason => some (.done (.error (.invalidValue reason)), w')
      | .ok _ =>
        if d.selfService || input.actorIsOperator then some (.write d, w')
        else some (.done (.error .notSelfService), w')
  | .write d, w =>
    match (upsertOverride input.organisationId input.slug input.value input.actorUserId).run w with
    | (.error _, w') => some (.done (.error .other), w')
    | (.ok oldValue, w') => some (.invalidate d oldValue, w')
  | .invalidate d oldValue, w =>
    some (.audit d oldValue, ((invalidate input.organisationId input.slug : Action Anyhow _).run w).2)
  | .audit d oldValue, w =>
    some (.done (.ok ()), ((record (fun s => .featureSet s input.actorUserId input.actorOrgId
      input.organisationId input.slug oldValue input.value d.selfService) : Action Anyhow _).run w).2)
  | .done _, _ => none

variable {input}

/-- A step of setting a flag leads to what the call does next. -/
theorem run_setNext {p q : WritePos SetOrgFeatureError} {w w' : World}
    (h : setNext input p w = some (q, w')) :
    (setRest input p).run w = (setRest input q).run w' := by
  cases p with
  | definition =>
    simp only [setNext] at h
    simp only [setRest, setOrgFeature]
    rw [Prog.run_bind, Prog.run_mapErr]
    split at h
    · rename_i e w₁ hrun
      cases h
      rw [hrun]
      rfl
    · rename_i w₁ hrun
      cases h
      rw [hrun]
      rfl
    · rename_i d w₁ hrun
      rw [hrun]
      simp only [Except.mapError]
      split at h
      · rename_i reason hvalid
        cases h
        rw [hvalid]
        rfl
      · rename_i hvalid
        rw [hvalid]
        show Prog.run (require _ _ >>= _) w₁ = _
        rw [run_require_bind]
        split at h
        · rename_i hpass
          cases h
          rw [if_pos hpass]
        · rename_i hpass
          cases h
          rw [if_neg hpass]
          rfl
  | write d =>
    simp only [setNext] at h
    simp only [setRest]
    rw [Prog.run_bind, Prog.run_mapErr]
    split at h
    · rename_i e w₁ hrun
      cases h
      rw [hrun]
      rfl
    · rename_i oldValue w₁ hrun
      cases h
      rw [hrun]
      rfl
  | invalidate d oldValue =>
    cases h
    rfl
  | audit d oldValue =>
    cases h
    rfl
  | done r => cases h

end Set

section Clear
variable (input : ClearOrgFeatureInput)

/-- What is left of clearing a flag. -/
def clearRest : WritePos ClearOrgFeatureError → Action ClearOrgFeatureError Unit
  | .definition => clearOrgFeature input
  | .write d => do
    let oldValue ← (deleteOverride input.organisationId input.slug).mapErr
      (fun _ => ClearOrgFeatureError.other)
    invalidate input.organisationId input.slug
    record (fun s => .featureCleared s input.actorUserId input.actorOrgId input.organisationId
      input.slug oldValue d.selfService)
  | .invalidate d oldValue => do
    invalidate input.organisationId input.slug
    record (fun s => .featureCleared s input.actorUserId input.actorOrgId input.organisationId
      input.slug oldValue d.selfService)
  | .audit d oldValue =>
    record (fun s => .featureCleared s input.actorUserId input.actorOrgId input.organisationId
      input.slug oldValue d.selfService)
  | .done r => .ofExcept r

/-- One step of clearing a flag. -/
def clearNext :
    WritePos ClearOrgFeatureError → World → Option (WritePos ClearOrgFeatureError × World)
  | .definition, w =>
    match (getDefinition input.slug).run w with
    | (.error _, w') => some (.done (.error .other), w')
    | (.ok none, w') => some (.done (.error .unknownSlug), w')
    | (.ok (some d), w') =>
      if d.selfService || input.actorIsOperator then some (.write d, w')
      else some (.done (.error .notSelfService), w')
  | .write d, w =>
    match (deleteOverride input.organisationId input.slug).run w with
    | (.error _, w') => some (.done (.error .other), w')
    | (.ok oldValue, w') => some (.invalidate d oldValue, w')
  | .invalidate d oldValue, w =>
    some (.audit d oldValue, ((invalidate input.organisationId input.slug : Action Anyhow _).run w).2)
  | .audit d oldValue, w =>
    some (.done (.ok ()), ((record (fun s => .featureCleared s input.actorUserId input.actorOrgId
      input.organisationId input.slug oldValue d.selfService) : Action Anyhow _).run w).2)
  | .done _, _ => none

variable {input}

/-- A step of clearing a flag leads to what the call does next. -/
theorem run_clearNext {p q : WritePos ClearOrgFeatureError} {w w' : World}
    (h : clearNext input p w = some (q, w')) :
    (clearRest input p).run w = (clearRest input q).run w' := by
  cases p with
  | definition =>
    simp only [clearNext] at h
    simp only [clearRest, clearOrgFeature]
    rw [Prog.run_bind, Prog.run_mapErr]
    split at h
    · rename_i e w₁ hrun
      cases h
      rw [hrun]
      rfl
    · rename_i w₁ hrun
      cases h
      rw [hrun]
      rfl
    · rename_i d w₁ hrun
      rw [hrun]
      simp only [Except.mapError]
      rw [run_require_bind]
      split at h
      · rename_i hpass
        cases h
        rw [if_pos hpass]
      · rename_i hpass
        cases h
        rw [if_neg hpass]
        rfl
  | write d =>
    simp only [clearNext] at h
    simp only [clearRest]
    rw [Prog.run_bind, Prog.run_mapErr]
    split at h
    · rename_i e w₁ hrun
      cases h
      rw [hrun]
      rfl
    · rename_i oldValue w₁ hrun
      cases h
      rw [hrun]
      rfl
  | invalidate d oldValue =>
    cases h
    rfl
  | audit d oldValue =>
    cases h
    rfl
  | done r => cases h

end Clear

/-! ## Calls on one node -/

/-- Where a call on the flags of a node stands. -/
inductive FeaturePos
  | evaluating (org : Uuid) (slug : String) (p : EvalPos)
  | setting (input : SetOrgFeatureInput) (p : WritePos SetOrgFeatureError)
  | clearing (input : ClearOrgFeatureInput) (p : WritePos ClearOrgFeatureError)
deriving DecidableEq

namespace FeaturePos

/-- The organisation and the flag of a call. -/
def key : FeaturePos → Uuid × String
  | evaluating org slug _ => (org, slug)
  | setting input _ => (input.organisationId, input.slug)
  | clearing input _ => (input.organisationId, input.slug)

/-- Where calls begin. -/
def starts : FeaturePos → Bool
  | evaluating _ _ .clock => true
  | setting _ .definition => true
  | clearing _ .definition => true
  | _ => false

/-- Where calls end. -/
def final : FeaturePos → Bool
  | evaluating _ _ (.done _) => true
  | setting _ (.done _) => true
  | clearing _ (.done _) => true
  | _ => false

/-- The call evaluates a flag. -/
def evaluates : FeaturePos → Bool
  | evaluating _ _ _ => true
  | _ => false

/-- A call that sets or clears a flag has written and has removed the value from the cache. -/
def hasInvalidated : FeaturePos → Bool
  | setting _ (.audit _ _) => true
  | setting _ (.done (.ok _)) => true
  | clearing _ (.audit _ _) => true
  | clearing _ (.done (.ok _)) => true
  | _ => false

/-- A call that sets or clears a flag has written. -/
def hasWritten : FeaturePos → Bool
  | setting _ (.invalidate _ _) => true
  | setting _ (.audit _ _) => true
  | setting _ (.done (.ok _)) => true
  | clearing _ (.invalidate _ _) => true
  | clearing _ (.audit _ _) => true
  | clearing _ (.done (.ok _)) => true
  | _ => false

/-- A call that sets or clears a flag has returned `Ok`. -/
def succeeded : FeaturePos → Bool
  | setting _ (.done (.ok _)) => true
  | clearing _ (.done (.ok _)) => true
  | _ => false

/-- A write that has succeeded has invalidated. -/
lemma hasInvalidated_of_succeeded {p : FeaturePos} (h : p.succeeded = true) :
    p.hasInvalidated = true := by
  unfold succeeded at h
  split at h
  · rfl
  · rfl
  · cases h

/-- A write that has invalidated has written. -/
lemma hasWritten_of_hasInvalidated {p : FeaturePos} (h : p.hasInvalidated = true) :
    p.hasWritten = true := by
  unfold hasInvalidated at h
  split at h
  · rfl
  · rfl
  · rfl
  · rfl
  · cases h

/-- A call that has written does not evaluate. -/
lemma evaluates_of_hasWritten {p : FeaturePos} (h : p.hasWritten = true) :
    p.evaluates = false := by
  unfold hasWritten at h
  split at h
  · rfl
  · rfl
  · rfl
  · rfl
  · rfl
  · rfl
  · cases h

/-- A call that begins has written nothing. -/
lemma not_hasWritten_of_starts {p : FeaturePos} (h : p.starts = true) : p.hasWritten = false := by
  unfold starts at h
  split at h
  · rfl
  · rfl
  · rfl
  · cases h

/-- An evaluation has read the override; another call has written. -/
def decisive : FeaturePos → FeaturePos → Bool
  | evaluating _ _ (.override _), evaluating _ _ (.definition _) => true
  | evaluating _ _ (.override _), evaluating _ _ (.insert _ _) => true
  | setting _ (.write _), setting _ (.invalidate _ _) => true
  | clearing _ (.write _), clearing _ (.invalidate _ _) => true
  | _, _ => false

/-- One step of a call. -/
def next (ttl : ℕ) : FeaturePos → World → Option (FeaturePos × World)
  | evaluating org slug p, w =>
    (p.next ttl org slug w).map (fun r => (evaluating org slug r.1, r.2))
  | setting input p, w => (setNext input p w).map (fun r => (setting input r.1, r.2))
  | clearing input p, w => (clearNext input p w).map (fun r => (clearing input r.1, r.2))

/-- A call that can go on has not ended. -/
lemma final_of_next {ttl : ℕ} {p q : FeaturePos} {w w' : World}
    (h : p.next ttl w = some (q, w')) : p.final = false := by
  unfold final
  split
  · cases h
  · cases h
  · cases h
  · rfl

end FeaturePos

/-- Evaluations, settings and clearings of flags on one node. -/
def featureSystem (ι : Type) (ttl : ℕ) (env : World → World → Prop) :
    System ι World FeaturePos where
  starts := FeaturePos.starts
  step _ p w q w' := p.next ttl w = some (q, w')
  env := env
  decisive := FeaturePos.decisive
  final := FeaturePos.final
  stops h := FeaturePos.final_of_next h

/-! ### What a step can do -/

/-- Tables, cache and clock are the same. -/
structure Quiet (w w' : World) : Prop where
  tables : w'.tables = w.tables
  cache : w'.cache = w.cache
  now : w'.now = w.now

/-- The overrides may have changed, and each still belongs to a known flag if each did before. -/
structure Overwrites (w w' : World) : Prop where
  definitions : w'.tables.featureDefinitions = w.tables.featureDefinitions
  known : ∀ f ∈ w'.tables.organisationFeatures, f ∈ w.tables.organisationFeatures ∨
    (w.tables.definition f.slug).isSome = true
  cache : w'.cache = w.cache
  now : w'.now = w.now

/-- What one step of a call does. -/
inductive Moves (ttl : ℕ) : FeaturePos → World → FeaturePos → World → Prop
  | clocks {org slug w} :
      Moves ttl (.evaluating org slug .clock) w (.evaluating org slug (.lookup w.now)) w
  | hits {org slug now w entry} (found : w.cache.find? (org, slug) = some entry)
      (fresh : now < entry.expiresAt) :
      Moves ttl (.evaluating org slug (.lookup now)) w
        (.evaluating org slug (.done (.ok entry.value))) w
  | misses {org slug now w} :
      Moves ttl (.evaluating org slug (.lookup now)) w (.evaluating org slug (.override now)) w
  | overridden {org slug now w w' ov} (found : w.tables.override org slug = some ov)
      (quiet : Quiet w w') :
      Moves ttl (.evaluating org slug (.override now)) w
        (.evaluating org slug (.insert now ov.value)) w'
  | plain {org slug now w w'} (none : w.tables.override org slug = none) (quiet : Quiet w w') :
      Moves ttl (.evaluating org slug (.override now)) w
        (.evaluating org slug (.definition now)) w'
  | defaults {org slug now w w' d} (found : w.tables.definition slug = some d)
      (quiet : Quiet w w') :
      Moves ttl (.evaluating org slug (.definition now)) w
        (.evaluating org slug (.insert now d.defaultValue)) w'
  | fails {org slug p w w' e} (quiet : Quiet w w') (before : p = .clock ∨ (∃ now, p = .override now) ∨
      ∃ now, p = .definition now) :
      Moves ttl (.evaluating org slug p) w (.evaluating org slug (.done (.error e))) w'
  | fills {org slug now value w} :
      Moves ttl (.evaluating org slug (.insert now value)) w
        (.evaluating org slug (.done (.ok value)))
        { w with cache := w.cache.upsert ⟨org, slug, value, now + ttl⟩ }
  | writes {p q : FeaturePos} {w w'} (writer : q.evaluates = false) (key : q.key = p.key)
      (decisive : p.decisive q = true) (pending : q.hasInvalidated = false)
      (writes : Overwrites w w') : Moves ttl p w q w'
  | invalidates {p q : FeaturePos} {w} (writer : q.evaluates = false) (key : q.key = p.key)
      (decisive : p.decisive q = false) (written : p.hasWritten = true)
      (invalidated : q.hasInvalidated = true) :
      Moves ttl p w q { w with cache := w.cache.deleteWhere (fun c => c.key = p.key) }
  | prepares {p q : FeaturePos} {w w'} (writer : q.evaluates = false) (key : q.key = p.key)
      (decisive : p.decisive q = false) (same : q.hasInvalidated = p.hasInvalidated)
      (written : q.hasWritten = true → p.hasWritten = true) (quiet : Quiet w w') :
      Moves ttl p w q w'

section Moves
variable {w w' : World} {org : Uuid} {slug : String}

/-- A statement that is counted changes nothing else. -/
lemma quiet_tick : Quiet w w.tick := ⟨rfl, rfl, rfl⟩

/-- A statement that fails has no effect. -/
lemma quiet_execute {ε α : Type} {f : World → Except SqlError (α × Tables)} {g : SqlError → ε} {e : ε}
    (h : ((execute f).mapErr g).run w = (.error e, w')) : Quiet w w' := by
  rw [Prog.run_mapErr, run_execute] at h
  unfold World.exec at h
  split at h
  · split at h
    · cases h
    · cases h
      exact quiet_tick
  · cases h
    exact quiet_tick

/-- An accepted override belongs to a known flag. -/
lemma overwrites_of_upsertFeature {f : OrgFeatureOverride}
    (hupsert : w.tables.upsertFeature f = .ok w'.tables) (hcache : w'.cache = w.cache)
    (hnow : w'.now = w.now) : Overwrites w w' := by
  obtain ⟨hknown, htables⟩ := Tables.upsertFeature_eq_ok hupsert
  refine ⟨by rw [htables], fun q hq => ?_, hcache, hnow⟩
  rw [htables] at hq
  rcases Table.mem_upsert.mp hq with ⟨hold, -⟩ | rfl
  · exact Or.inl hold
  · exact Or.inr hknown

/-- The statement of a setting overwrites. -/
lemma overwrites_upsertOverride {value : Value} {updatedBy : Uuid} {old : Option Value}
    (h : (upsertOverride org slug value updatedBy).run w = (.ok old, w')) : Overwrites w w' := by
  obtain ⟨t, heffect, rfl, -⟩ := execute_eq_ok (Prog.mapErr_eq_ok h)
  exact overwrites_of_upsertFeature (return_eq_ok.mp heffect).1 rfl rfl

/-- The statement of a clearing overwrites. -/
lemma overwrites_deleteOverride {old : Option Value}
    (h : (deleteOverride org slug).run w = (.ok old, w')) : Overwrites w w' := by
  obtain ⟨t, heffect, rfl, -⟩ := execute_eq_ok (Prog.mapErr_eq_ok h)
  cases heffect
  exact ⟨rfl, fun f hf => Or.inl (Table.mem_deleteWhere.mp hf).1, rfl, rfl⟩

variable {ttl : ℕ}

/-- A step of an evaluation is one of the moves. -/
lemma moves_evaluating {p q : EvalPos} (h : p.next ttl org slug w = some (q, w')) :
    Moves ttl (.evaluating org slug p) w (.evaluating org slug q) w' := by
  cases p with
  | clock =>
    cases h
    exact .clocks
  | lookup now =>
    simp only [EvalPos.next] at h
    split at h
    · rename_i entry hentry
      cases h
      obtain ⟨hfound, hfresh⟩ := Option.filter_eq_some_iff.mp hentry
      exact .hits hfound (of_decide_eq_true hfresh)
    · cases h
      exact .misses
  | override now =>
    simp only [EvalPos.next] at h
    split at h
    · rename_i ov w₁ hrun
      cases h
      obtain ⟨hfound, rfl, -⟩ := query_eq_ok (Prog.mapErr_eq_ok hrun)
      exact .overridden hfound.symm quiet_tick
    · rename_i w₁ hrun
      cases h
      obtain ⟨hnone, rfl, -⟩ := query_eq_ok (Prog.mapErr_eq_ok hrun)
      exact .plain hnone.symm quiet_tick
    · rename_i e w₁ hrun
      cases h
      exact .fails (quiet_execute hrun) (Or.inr (Or.inl ⟨now, rfl⟩))
  | definition now =>
    simp only [EvalPos.next] at h
    split at h
    · rename_i d w₁ hrun
      cases h
      obtain ⟨hfound, rfl, -⟩ := query_eq_ok (Prog.mapErr_eq_ok hrun)
      exact .defaults hfound.symm quiet_tick
    · rename_i w₁ hrun
      cases h
      obtain ⟨-, rfl, -⟩ := query_eq_ok (Prog.mapErr_eq_ok hrun)
      exact .fails quiet_tick (Or.inr (Or.inr ⟨now, rfl⟩))
    · rename_i e w₁ hrun
      cases h
      exact .fails (quiet_execute hrun) (Or.inr (Or.inr ⟨now, rfl⟩))
  | insert now value =>
    cases h
    exact .fills
  | done r => cases h

/-- Reading a definition leaves tables, cache and clock alone, whatever it returns. -/
lemma quiet_getDefinition {r : Except FeatureRepoError (Option FeatureDefinition)}
    (h : (getDefinition slug).run w = (r, w')) : Quiet w w' := by
  cases r with
  | error e => exact quiet_execute h
  | ok found =>
    obtain ⟨-, rfl, -⟩ := query_eq_ok (Prog.mapErr_eq_ok h)
    exact quiet_tick

/-- Recording changes neither tables, cache nor clock. -/
lemma quiet_record {event : Stamp → AuditEvent} :
    Quiet w ((record event : Action Anyhow Unit).run w).2 := ⟨rfl, rfl, rfl⟩

/-- A step of a setting is one of the moves. -/
lemma moves_setting {input : SetOrgFeatureInput} {p q : WritePos SetOrgFeatureError}
    (h : setNext input p w = some (q, w')) :
    Moves ttl (.setting input p) w (.setting input q) w' := by
  cases p with
  | definition =>
    simp only [setNext] at h
    split at h
    · rename_i e w₁ hrun
      cases h
      exact .prepares rfl rfl rfl rfl id (quiet_getDefinition hrun)
    · rename_i w₁ hrun
      cases h
      exact .prepares rfl rfl rfl rfl id (quiet_getDefinition hrun)
    · rename_i d w₁ hrun
      split at h
      · cases h
        exact .prepares rfl rfl rfl rfl id (quiet_getDefinition hrun)
      · split at h
        · cases h
          exact .prepares rfl rfl rfl rfl id (quiet_getDefinition hrun)
        · cases h
          exact .prepares rfl rfl rfl rfl id (quiet_getDefinition hrun)
  | write d =>
    simp only [setNext] at h
    split at h
    · rename_i e w₁ hrun
      cases h
      exact .prepares rfl rfl rfl rfl id (quiet_execute hrun)
    · rename_i oldValue w₁ hrun
      cases h
      exact .writes rfl rfl rfl rfl (overwrites_upsertOverride hrun)
  | invalidate d oldValue =>
    cases h
    exact .invalidates rfl rfl rfl rfl rfl
  | audit d oldValue =>
    cases h
    exact .prepares rfl rfl rfl rfl id quiet_record
  | done r => cases h

/-- A step of a clearing is one of the moves. -/
lemma moves_clearing {input : ClearOrgFeatureInput} {p q : WritePos ClearOrgFeatureError}
    (h : clearNext input p w = some (q, w')) :
    Moves ttl (.clearing input p) w (.clearing input q) w' := by
  cases p with
  | definition =>
    simp only [clearNext] at h
    split at h
    · rename_i e w₁ hrun
      cases h
      exact .prepares rfl rfl rfl rfl id (quiet_getDefinition hrun)
    · rename_i w₁ hrun
      cases h
      exact .prepares rfl rfl rfl rfl id (quiet_getDefinition hrun)
    · rename_i d w₁ hrun
      split at h
      · cases h
        exact .prepares rfl rfl rfl rfl id (quiet_getDefinition hrun)
      · cases h
        exact .prepares rfl rfl rfl rfl id (quiet_getDefinition hrun)
  | write d =>
    simp only [clearNext] at h
    split at h
    · rename_i e w₁ hrun
      cases h
      exact .prepares rfl rfl rfl rfl id (quiet_execute hrun)
    · rename_i oldValue w₁ hrun
      cases h
      exact .writes rfl rfl rfl rfl (overwrites_deleteOverride hrun)
  | invalidate d oldValue =>
    cases h
    exact .invalidates rfl rfl rfl rfl rfl
  | audit d oldValue =>
    cases h
    exact .prepares rfl rfl rfl rfl id quiet_record
  | done r => cases h

/-- What one step of a call does, whichever call it is. -/
lemma moves_of_next {p q : FeaturePos} (h : p.next ttl w = some (q, w')) : Moves ttl p w q w' := by
  cases p with
  | evaluating org slug p =>
    obtain ⟨⟨q, w₁⟩, hnext, heq⟩ := Option.map_eq_some_iff.mp h
    cases heq
    exact moves_evaluating hnext
  | setting input p =>
    obtain ⟨⟨q, w₁⟩, hnext, heq⟩ := Option.map_eq_some_iff.mp h
    cases heq
    exact moves_setting hnext
  | clearing input p =>
    obtain ⟨⟨q, w₁⟩, hnext, heq⟩ := Option.map_eq_some_iff.mp h
    cases heq
    exact moves_clearing hnext

/-- No step changes the catalog of flags. -/
lemma Moves.definitions {p q : FeaturePos} (h : Moves ttl p w q w') :
    w'.tables.featureDefinitions = w.tables.featureDefinitions := by
  cases h with
  | writes _ _ _ _ writes => exact writes.definitions
  | overridden _ quiet => rw [quiet.tables]
  | plain _ quiet => rw [quiet.tables]
  | defaults _ quiet => rw [quiet.tables]
  | fails quiet _ => rw [quiet.tables]
  | prepares _ _ _ _ _ quiet => rw [quiet.tables]
  | clocks => rfl
  | hits _ _ => rfl
  | misses => rfl
  | fills => rfl
  | invalidates _ _ _ _ _ => rfl

/-- A value in the cache was there before or is filled in by an evaluation. -/
lemma Moves.entry {p q : FeaturePos} (h : Moves ttl p w q w') {entry : CachedValue}
    (hentry : entry ∈ w'.cache) : entry ∈ w.cache ∨ ∃ now,
      p = .evaluating entry.organisationId entry.slug (.insert now entry.value) ∧
        entry.expiresAt = now + ttl := by
  cases h with
  | @fills org slug now value =>
    rcases Table.mem_upsert.mp hentry with ⟨hold, -⟩ | rfl
    · exact Or.inl hold
    · exact Or.inr ⟨now, rfl, rfl⟩
  | invalidates _ _ _ _ _ => exact Or.inl (Table.mem_deleteWhere.mp hentry).1
  | writes _ _ _ _ writes => exact Or.inl (writes.cache ▸ hentry)
  | overridden _ quiet => exact Or.inl (quiet.cache ▸ hentry)
  | plain _ quiet => exact Or.inl (quiet.cache ▸ hentry)
  | defaults _ quiet => exact Or.inl (quiet.cache ▸ hentry)
  | fails quiet _ => exact Or.inl (quiet.cache ▸ hentry)
  | prepares _ _ _ _ _ quiet => exact Or.inl (quiet.cache ▸ hentry)
  | clocks => exact Or.inl hentry
  | hits _ _ => exact Or.inl hentry
  | misses => exact Or.inl hentry

end Moves
end Egras
