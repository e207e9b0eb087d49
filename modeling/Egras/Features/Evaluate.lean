import Egras.Features.Repository

/-!
# Evaluating a feature flag

The evaluator keeps each value it has read for 60 seconds. `World.evaluated` is what an evaluation
answers: the cached value while it is fresh, else the value the tables give. `evaluate_ok` says that
an evaluation that returns answers this and changes the cache only.

Rust → Lean naming: `PgFeatureEvaluator::evaluate` → `evaluate`, `invalidate` → `invalidate`,
`CachedValue.expires_at` → `CachedValue.expiresAt`.
-/

namespace Egras
open Lib

/-- Why a flag is not evaluated. -/
inductive EvaluateError
  | unknownSlug
  | repo (e : FeatureRepoError)
deriving DecidableEq

/-- How long a value is kept: 60 seconds. -/
def cacheTtl : Int := 60000000

/-- Look a flag of an organisation up in the cache. -/
def cacheGet {ε} (org : Uuid) (slug : String) : Action ε (Option CachedValue) :=
  .lift (fun w => (w.cache.find? (org, slug), w))

/-- Keep a value in the cache. -/
def cacheInsert {ε} (entry : CachedValue) : Action ε Unit :=
  .lift (fun w => ((), { w with cache := w.cache.upsert entry }))

/-- Forget the value of a flag of an organisation. -/
def invalidate {ε} (org : Uuid) (slug : String) : Action ε Unit :=
  .lift (fun w => ((), { w with cache := w.cache.deleteWhere (fun c => c.key = (org, slug)) }))

/-- Read the value from the tables. -/
def evaluateMiss (org : Uuid) (slug : String) : Action EvaluateError Value := do
  match ← (getOverride org slug).mapErr .repo with
  | some ov => return ov.value
  | none =>
    match ← (getDefinition slug).mapErr .repo with
    | some definition => return definition.defaultValue
    | none => .fail .unknownSlug

/-- The value of a flag for an organisation. -/
def evaluate (org : Uuid) (slug : String) : Action EvaluateError Value := do
  let now ← utcNow
  match (← cacheGet org slug).filter (fun entry => now < entry.expiresAt) with
  | some entry => return entry.value
  | none =>
    let value ← evaluateMiss org slug
    cacheInsert ⟨org, slug, value, now + cacheTtl⟩
    return value

/-- The value in the cache that has not expired. -/
def World.cached (w : World) (org : Uuid) (slug : String) : Option Value :=
  ((w.cache.find? (org, slug)).filter (fun entry => w.now < entry.expiresAt)).map CachedValue.value

/-- What an evaluation answers. -/
def World.evaluated (w : World) (org : Uuid) (slug : String) : Option Value :=
  (w.cached org slug).orElse (fun _ => w.tables.effective org slug)

variable {w t : World} {org : Uuid} {slug : String} {v : Value}

/-- A flag that is not cached is evaluated from the tables. -/
lemma evaluateMiss_eq_ok (h : (evaluateMiss org slug).run w = (.ok v, t)) :
    w.tables.effective org slug = some v ∧ t.tables = w.tables ∧ t.now = w.now := by
  obtain ⟨ov, u, h₁, h₂⟩ := Prog.bind_eq_ok h
  obtain ⟨rfl, rfl, -⟩ := query_eq_ok (Prog.mapErr_eq_ok (Prog.mapErr_eq_ok h₁))
  unfold Tables.effective
  cases hov : w.tables.override org slug with
  | some ov =>
    rw [hov] at h₂
    cases h₂
    exact ⟨rfl, rfl, rfl⟩
  | none =>
    rw [hov] at h₂
    obtain ⟨definition, u, h₃, h₄⟩ := Prog.bind_eq_ok h₂
    obtain ⟨rfl, rfl, -⟩ := query_eq_ok (Prog.mapErr_eq_ok (Prog.mapErr_eq_ok h₃))
    simp only [World.tick_tables] at h₄
    cases hdef : w.tables.definition slug with
    | none =>
      rw [hdef] at h₄
      cases h₄
    | some definition =>
      rw [hdef] at h₄
      cases h₄
      exact ⟨rfl, rfl, rfl⟩

/-- An evaluation that returns answers the evaluated value and touches no table. -/
lemma evaluate_eq_ok (h : (evaluate org slug).run w = (.ok v, t)) :
    w.evaluated org slug = some v ∧ t.tables = w.tables ∧ t.now = w.now := by
  obtain ⟨now, u, h₁, h₂⟩ := Prog.bind_eq_ok h
  cases h₁
  obtain ⟨entry, u, h₃, h₄⟩ := Prog.bind_eq_ok h₂
  cases h₃
  unfold World.evaluated World.cached
  cases hc : (w.cache.find? (org, slug)).filter (fun entry => w.now < entry.expiresAt) with
  | some entry =>
    rw [hc] at h₄
    cases h₄
    exact ⟨rfl, rfl, rfl⟩
  | none =>
    rw [hc] at h₄
    obtain ⟨value, u, h₅, h₆⟩ := Prog.bind_eq_ok h₄
    obtain ⟨he, ht, hn⟩ := evaluateMiss_eq_ok h₅
    obtain ⟨_, u', h₇, h₈⟩ := Prog.bind_eq_ok h₆
    cases h₇
    cases h₈
    exact ⟨he, ht, hn⟩

/-- Reading the value touches nothing that statements do not. -/
lemma reads_evaluateMiss {τ : Type} {V : World → τ} (hV : Untimed V) {org : Uuid} {slug : String} :
    Prog.Reads V (evaluateMiss org slug) := by
  refine Prog.Reads.bind (reads_query hV).mapErr.mapErr (fun ov => ?_)
  cases ov with
  | some ov => exact Prog.Reads.ret
  | none =>
    refine Prog.Reads.bind (reads_query hV).mapErr.mapErr (fun definition => ?_)
    cases definition with
    | some definition => exact Prog.Reads.ret
    | none => exact Prog.Reads.fail

/-- An evaluation touches nothing but the cache. -/
lemma reads_evaluate {τ : Type} {V : World → τ} [Blind V] {org : Uuid} {slug : String} :
    Prog.Reads V (evaluate org slug) := by
  refine Prog.Reads.bind reads_utcNow (fun now => ?_)
  refine Prog.Reads.bind (Prog.Reads.lift (fun _ => rfl)) (fun entry => ?_)
  cases entry.filter (fun entry => now < entry.expiresAt) with
  | some entry => exact Prog.Reads.ret
  | none =>
    refine Prog.Reads.bind (reads_evaluateMiss Blind.tick) (fun value => ?_)
    exact Prog.Reads.bind (Prog.Reads.lift (fun w => Blind.cache w _)) (fun _ => Prog.Reads.ret)

end Egras
