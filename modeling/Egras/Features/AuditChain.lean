import Egras.Features.ReadYourWrites

/-!
# Whether the audited values of a flag form a chain

Setting a flag writes the override and reads the value that it replaces in one statement, but in two
views: what is written is the latest row, what is read (`WITH prev`) is the row at the start of the
statement. Clearing deletes the latest version of the row that was there at the start, and nothing
when there was none. To tell the two views apart a statement takes two steps here, its snapshot and
its write, and a row carries how often one has been inserted under its key. `upserting_next` and
`deleting_next` say that a statement that nothing comes in between is that of the repository.

The value that a call obtains is the one that the write before it left exactly in the runs in which
no statement completes on a snapshot that another write has made obsolete (`audit_chain_iff`).
-/

namespace Egras
open Lib

/-! ## Statements in two steps -/

/-- The version of an override that a statement sees: its value and which insertion it stems from. -/
structure Seen where
  value : Value
  generation : ℕ
deriving DecidableEq

/-- The world, and how many rows have been inserted under each key of `organisation_features`. -/
structure Versioned where
  world : World
  generation : Uuid × String → ℕ

namespace Versioned

/-- The value of an override. -/
def value (s : Versioned) (k : Uuid × String) : Option Value :=
  (s.world.tables.override k.1 k.2).map OrgFeatureOverride.value

/-- What the snapshot of a statement sees of an override. -/
def seen (s : Versioned) (k : Uuid × String) : Option Seen :=
  (s.value k).map (fun v => ⟨v, s.generation k⟩)

/-- After a write of an override; one that was not there is inserted. -/
def written (s : Versioned) (k : Uuid × String) (w : World) : Versioned where
  world := w
  generation :=
    if (s.value k).isNone then Function.update s.generation k (s.generation k + 1)
    else s.generation

end Versioned

/-- Delete an override, whose latest version a statement finds from the one that it has seen. -/
def deleteSeen (seen : Option Seen) (generation : ℕ) (org : Uuid) (slug : String) :
    Action FeatureRepoError (Option Value) :=
  if seen.map Seen.generation = some generation then deleteOverride org slug
  else (query (fun _ => none)).mapErr .other

/-- Where a call that sets or clears a flag stands. -/
inductive FlagPos
  | setting (input : SetOrgFeatureInput) (p : WritePos SetOrgFeatureError)
  | upserting (input : SetOrgFeatureInput) (d : FeatureDefinition) (seen : Option Seen)
  | clearing (input : ClearOrgFeatureInput) (p : WritePos ClearOrgFeatureError)
  | deleting (input : ClearOrgFeatureInput) (d : FeatureDefinition) (seen : Option Seen)
deriving DecidableEq

namespace FlagPos

/-- The organisation and the flag of a call. -/
def key : FlagPos → Uuid × String
  | setting input _ => (input.organisationId, input.slug)
  | upserting input _ _ => (input.organisationId, input.slug)
  | clearing input _ => (input.organisationId, input.slug)
  | deleting input _ _ => (input.organisationId, input.slug)

/-- Where calls begin. -/
def starts : FlagPos → Bool
  | setting _ .definition => true
  | clearing _ .definition => true
  | _ => false

/-- Where calls end. -/
def final : FlagPos → Bool
  | setting _ (.done _) => true
  | clearing _ (.done _) => true
  | _ => false

/-- What the statement of a call that is about to write has seen. -/
def writing : FlagPos → Option (Option Seen)
  | upserting _ _ seen => some seen
  | deleting _ _ seen => some seen
  | _ => none

/-- The old value that a call has obtained and is going to record. -/
def obtained : FlagPos → Option (Option Value)
  | setting _ (.invalidate _ old) => some old
  | setting _ (.audit _ old) => some old
  | clearing _ (.invalidate _ old) => some old
  | clearing _ (.audit _ old) => some old
  | _ => none

/-- The statement on the override has completed. -/
def hasWritten : FlagPos → Bool
  | setting _ (.invalidate _ _) => true
  | setting _ (.audit _ _) => true
  | setting _ (.done (.ok _)) => true
  | clearing _ (.invalidate _ _) => true
  | clearing _ (.audit _ _) => true
  | clearing _ (.done (.ok _)) => true
  | _ => false

/-- The audit event of a call that has obtained a value. -/
def event (old : Option Value) (selfService : Bool) : FlagPos → Stamp → AuditEvent
  | setting input _ | upserting input _ _ => fun s => .featureSet s input.actorUserId
      input.actorOrgId input.organisationId input.slug old input.value selfService
  | clearing input _ | deleting input _ _ => fun s => .featureCleared s input.actorUserId
      input.actorOrgId input.organisationId input.slug old selfService

/-- A statement takes its snapshot or writes. -/
def decisive : FlagPos → FlagPos → Bool
  | setting _ _, upserting _ _ _ => true
  | upserting _ _ _, setting _ (.invalidate _ _) => true
  | clearing _ _, deleting _ _ _ => true
  | deleting _ _ _, clearing _ (.invalidate _ _) => true
  | _, _ => false

/-- One step of a call. -/
def next : FlagPos → Versioned → Option (FlagPos × Versioned)
  | setting input (.write d), s =>
    some (upserting input d (s.seen (input.organisationId, input.slug)), s)
  | setting input p, s =>
    (setNext input p s.world).map (fun r => (setting input r.1, { s with world := r.2 }))
  | upserting input d seen, s =>
    match (upsertOverride input.organisationId input.slug input.value input.actorUserId).run
        s.world with
    | (.error _, w') => some (setting input (.done (.error .other)), { s with world := w' })
    | (.ok _, w') => some (setting input (.invalidate d (seen.map Seen.value)),
        s.written (input.organisationId, input.slug) w')
  | clearing input (.write d), s =>
    some (deleting input d (s.seen (input.organisationId, input.slug)), s)
  | clearing input p, s =>
    (clearNext input p s.world).map (fun r => (clearing input r.1, { s with world := r.2 }))
  | deleting input d seen, s =>
    match (deleteSeen seen (s.generation (input.organisationId, input.slug)) input.organisationId
        input.slug).run s.world with
    | (.error _, w') => some (clearing input (.done (.error .other)), { s with world := w' })
    | (.ok old, w') => some (clearing input (.invalidate d old), { s with world := w' })

/-- A call that begins has seen and written nothing. -/
lemma starts_eq {p : FlagPos} (h : p.starts = true) :
    p.writing = none ∧ p.hasWritten = false := by
  unfold starts at h
  split at h
  · exact ⟨rfl, rfl⟩
  · exact ⟨rfl, rfl⟩
  · cases h

/-- A call that can go on has not ended. -/
lemma final_of_next {p q : FlagPos} {s s' : Versioned} (h : p.next s = some (q, s')) :
    p.final = false := by
  unfold final
  split
  · cases h
  · cases h
  · rfl

end FlagPos

section Atomic
variable {s : Versioned} {d : FeatureDefinition}

/-- A statement that sets a flag right after its snapshot is that of the repository. -/
theorem upserting_next {input : SetOrgFeatureInput} :
    ((FlagPos.upserting input d (s.seen (input.organisationId, input.slug))).next s).map
        (fun r => (r.1, r.2.world)) =
      (setNext input (.write d) s.world).map (fun r => (FlagPos.setting input r.1, r.2)) := by
  simp only [FlagPos.next, setNext]
  cases hrun : (upsertOverride input.organisationId input.slug input.value input.actorUserId).run
      s.world with
  | mk r w' =>
    cases r with
    | error e => rfl
    | ok old =>
      obtain ⟨t, heffect, -, -⟩ := execute_eq_ok (Prog.mapErr_eq_ok hrun)
      obtain ⟨-, rfl⟩ := return_eq_ok.mp heffect
      simp [Versioned.seen, Versioned.value, Versioned.written, Function.comp_def]

/-- Deleting an override that is not there does nothing. -/
lemma run_deleteOverride_of_none {w : World} {org : Uuid} {slug : String}
    (h : w.tables.override org slug = none) :
    (deleteOverride org slug).run w =
      ((query (fun _ => none) : Action SqlError (Option Value)).mapErr FeatureRepoError.other).run
        w := by
  have hrows : w.tables.organisationFeatures.deleteWhere (fun f => f.key = (org, slug)) =
      w.tables.organisationFeatures :=
    Table.deleteWhere_eq_self fun f hf => decide_eq_false (Table.find?_eq_none.mp h f hf)
  unfold deleteOverride
  rw [Prog.run_mapErr, Prog.run_mapErr, run_execute, run_query]
  unfold World.exec
  rw [h, hrows]
  cases w.answers <;> rfl

/-- A statement that clears a flag right after its snapshot is that of the repository. -/
theorem deleting_next {input : ClearOrgFeatureInput} :
    ((FlagPos.deleting input d (s.seen (input.organisationId, input.slug))).next s).map
        (fun r => (r.1, r.2.world)) =
      (clearNext input (.write d) s.world).map (fun r => (FlagPos.clearing input r.1, r.2)) := by
  have hrun : (deleteSeen (s.seen (input.organisationId, input.slug))
      (s.generation (input.organisationId, input.slug)) input.organisationId input.slug).run
        s.world = (deleteOverride input.organisationId input.slug).run s.world := by
    unfold deleteSeen Versioned.seen Versioned.value
    cases hfound : s.world.tables.override input.organisationId input.slug with
    | none => exact (run_deleteOverride_of_none hfound).symm
    | some f => exact congrArg (fun p : Action FeatureRepoError _ => p.run s.world) (if_pos rfl)
  simp only [FlagPos.next, clearNext, hrun]
  cases (deleteOverride input.organisationId input.slug).run s.world with
  | mk r w' => cases r <;> rfl

end Atomic

/-! ## Calls that interleave -/

/-- What happens besides the calls: anything that leaves the overrides alone. -/
structure KeepsOverrides (s s' : Versioned) : Prop where
  overrides : s'.world.tables.organisationFeatures = s.world.tables.organisationFeatures
  generation : s'.generation = s.generation

/-- Settings and clearings of flags, on any number of nodes. -/
def flagSystem (ι : Type) : System ι Versioned FlagPos where
  starts := FlagPos.starts
  step _ p s q s' := p.next s = some (q, s')
  env := KeepsOverrides
  decisive := FlagPos.decisive
  final := FlagPos.final
  stops h := FlagPos.final_of_next h

/-- What one step of a call does to the overrides. -/
inductive FlagStep : FlagPos → Versioned → FlagPos → Versioned → Prop
  | sees {p q s} (key : q.key = p.key) (idle : p.writing = none) (fresh : p.hasWritten = false)
      (seen : q.writing = some (s.seen q.key)) (unwritten : q.hasWritten = false)
      (obtained : q.obtained = none) (decisive : p.decisive q = true) : FlagStep p s q s
  | sets {input d seen s w'} (tables : s.world.tables.upsertFeature
        ⟨input.organisationId, input.slug, input.value, s.world.now, input.actorUserId⟩ =
        .ok w'.tables) :
      FlagStep (.upserting input d seen) s (.setting input (.invalidate d (seen.map Seen.value)))
        (s.written (input.organisationId, input.slug) w')
  | clears {input d v s s'} (overrides : s'.world.tables.organisationFeatures =
        s.world.tables.organisationFeatures.deleteWhere
          (fun f => f.key = (input.organisationId, input.slug)))
      (generation : s'.generation = s.generation) :
      FlagStep (.deleting input d (some ⟨v, s.generation (input.organisationId, input.slug)⟩)) s
        (.clearing input (.invalidate d (s.value (input.organisationId, input.slug)))) s'
  | overlooks {input d seen s s'}
      (other : seen.map Seen.generation ≠ some (s.generation (input.organisationId, input.slug)))
      (same : KeepsOverrides s s') :
      FlagStep (.deleting input d seen) s (.clearing input (.invalidate d none)) s'
  | goes {p q s s'} (key : q.key = p.key) (idle : q.writing = none)
      (written : q.hasWritten = p.hasWritten) (obtained : p.writing.isSome = true → q.obtained = none)
      (decisive : p.decisive q = false) (same : KeepsOverrides s s') : FlagStep p s q s'

section Steps
variable {s s' : Versioned} {k : Uuid × String}

/-- A step that leaves the tables alone keeps the overrides. -/
lemma keepsOverrides_of_tables {w' : World} (h : w'.tables = s.world.tables) :
    KeepsOverrides s { s with world := w' } := ⟨by rw [h], rfl⟩

/-- A step of a call that is between its statements. -/
lemma FlagStep.passes {p q : FlagPos} (key : q.key = p.key) (idle : p.writing = none)
    (still : q.writing = none) (written : q.hasWritten = p.hasWritten)
    (decisive : p.decisive q = false) (same : KeepsOverrides s s') : FlagStep p s q s' := by
  refine .goes key still written (fun hwriting => ?_) decisive same
  rw [idle] at hwriting
  cases hwriting

/-- A step of a setting before its statement is a step on the overrides. -/
lemma flagStep_setting {input : SetOrgFeatureInput} {p : WritePos SetOrgFeatureError} {q : FlagPos}
    (h : (FlagPos.setting input p).next s = some (q, s')) : FlagStep (.setting input p) s q s' := by
  cases p with
  | write d =>
    cases h
    exact .sees rfl rfl rfl rfl rfl rfl rfl
  | definition =>
    obtain ⟨⟨q', w'⟩, hnext, heq⟩ := Option.map_eq_some_iff.mp h
    cases heq
    simp only [setNext] at hnext
    split at hnext
    · rename_i hrun
      cases hnext
      exact .passes rfl rfl rfl rfl rfl (keepsOverrides_of_tables (reads_getDefinition.of_run hrun))
    · rename_i hrun
      cases hnext
      exact .passes rfl rfl rfl rfl rfl (keepsOverrides_of_tables (reads_getDefinition.of_run hrun))
    · rename_i hrun
      have hkeeps := keepsOverrides_of_tables (s := s) (reads_getDefinition.of_run hrun)
      split at hnext
      · cases hnext
        exact .passes rfl rfl rfl rfl rfl hkeeps
      · split at hnext
        · cases hnext
          exact .passes rfl rfl rfl rfl rfl hkeeps
        · cases hnext
          exact .passes rfl rfl rfl rfl rfl hkeeps
  | invalidate d old =>
    cases h
    exact .passes rfl rfl rfl rfl rfl (keepsOverrides_of_tables rfl)
  | audit d old =>
    cases h
    exact .passes rfl rfl rfl rfl rfl (keepsOverrides_of_tables rfl)
  | done r => cases h

/-- A step of a clearing before its statement is a step on the overrides. -/
lemma flagStep_clearing {input : ClearOrgFeatureInput} {p : WritePos ClearOrgFeatureError}
    {q : FlagPos} (h : (FlagPos.clearing input p).next s = some (q, s')) :
    FlagStep (.clearing input p) s q s' := by
  cases p with
  | write d =>
    cases h
    exact .sees rfl rfl rfl rfl rfl rfl rfl
  | definition =>
    obtain ⟨⟨q', w'⟩, hnext, heq⟩ := Option.map_eq_some_iff.mp h
    cases heq
    simp only [clearNext] at hnext
    split at hnext
    · rename_i hrun
      cases hnext
      exact .passes rfl rfl rfl rfl rfl (keepsOverrides_of_tables (reads_getDefinition.of_run hrun))
    · rename_i hrun
      cases hnext
      exact .passes rfl rfl rfl rfl rfl (keepsOverrides_of_tables (reads_getDefinition.of_run hrun))
    · rename_i hrun
      have hkeeps := keepsOverrides_of_tables (s := s) (reads_getDefinition.of_run hrun)
      split at hnext
      · cases hnext
        exact .passes rfl rfl rfl rfl rfl hkeeps
      · cases hnext
        exact .passes rfl rfl rfl rfl rfl hkeeps
  | invalidate d old =>
    cases h
    exact .passes rfl rfl rfl rfl rfl (keepsOverrides_of_tables rfl)
  | audit d old =>
    cases h
    exact .passes rfl rfl rfl rfl rfl (keepsOverrides_of_tables rfl)
  | done r => cases h

/-- The statement of a setting sets the override or fails. -/
lemma flagStep_upserting {input : SetOrgFeatureInput} {d : FeatureDefinition} {seen : Option Seen}
    {q : FlagPos} (h : (FlagPos.upserting input d seen).next s = some (q, s')) :
    FlagStep (.upserting input d seen) s q s' := by
  simp only [FlagPos.next] at h
  split at h
  · rename_i e w' hrun
    cases h
    exact .goes rfl rfl rfl (fun _ => rfl) rfl
      (keepsOverrides_of_tables (Prog.Atomic.mapErr atomic_execute _ _ _ hrun))
  · rename_i old w' hrun
    cases h
    obtain ⟨t, heffect, rfl, -⟩ := execute_eq_ok (Prog.mapErr_eq_ok hrun)
    exact .sets (return_eq_ok.mp heffect).1

/-- The statement of a clearing clears the override or fails. -/
lemma flagStep_deleting {input : ClearOrgFeatureInput} {d : FeatureDefinition} {seen : Option Seen}
    {q : FlagPos} (h : (FlagPos.deleting input d seen).next s = some (q, s')) :
    FlagStep (.deleting input d seen) s q s' := by
  simp only [FlagPos.next, deleteSeen] at h
  split at h
  · rename_i e w' hrun
    cases h
    refine .goes rfl rfl rfl (fun _ => rfl) rfl (keepsOverrides_of_tables ?_)
    split at hrun
    · exact Prog.Atomic.mapErr atomic_execute _ _ _ hrun
    · exact Prog.Atomic.mapErr atomic_execute _ _ _ hrun
  · rename_i old w' hrun
    cases h
    split at hrun
    · rename_i hsame
      obtain ⟨⟨v, n⟩, rfl, hn⟩ := Option.map_eq_some_iff.mp hsame
      cases hn
      obtain ⟨t, heffect, rfl, -⟩ := execute_eq_ok (Prog.mapErr_eq_ok hrun)
      cases heffect
      exact .clears rfl rfl
    · rename_i hother
      obtain ⟨rfl, rfl, -⟩ := query_eq_ok (Prog.mapErr_eq_ok hrun)
      exact .overlooks hother (keepsOverrides_of_tables rfl)

/-- Every step of a call is a step on the overrides. -/
lemma flagStep_of_next {p q : FlagPos} (h : p.next s = some (q, s')) : FlagStep p s q s' := by
  cases p with
  | setting input p => exact flagStep_setting h
  | upserting input d seen => exact flagStep_upserting h
  | clearing input p => exact flagStep_clearing h
  | deleting input d seen => exact flagStep_deleting h

/-- What leaves the overrides alone shows what was shown. -/
lemma seen_of_keepsOverrides (h : KeepsOverrides s s') : s'.seen k = s.seen k := by
  unfold Versioned.seen Versioned.value Tables.override
  rw [h.overrides, h.generation]

/-- A snapshot shows the value of the override. -/
lemma map_value_seen : (s.seen k).map Seen.value = s.value k := by
  unfold Versioned.seen
  rw [Option.map_map]
  exact Option.map_id'

/-- The same snapshot shows the same value. -/
lemma value_of_seen (h : s'.seen k = s.seen k) : s'.value k = s.value k := by
  rw [← map_value_seen, h, map_value_seen]

/-- Another override is seen as it was when one is written. -/
lemma seen_of_sets {f : OrgFeatureOverride} {w' : World} (hne : f.key ≠ k)
    (h : s.world.tables.upsertFeature f = .ok w'.tables) :
    (s.written f.key w').seen k = s.seen k := by
  have hvalue : (s.written f.key w').value k = s.value k := by
    unfold Versioned.value Tables.override Versioned.written
    rw [(Tables.upsertFeature_eq_ok h).2, Table.find?_upsert, if_neg hne]
  have hgeneration : (s.written f.key w').generation k = s.generation k := by
    unfold Versioned.written
    split
    · exact Function.update_of_ne hne.symm _ _
    · rfl
  unfold Versioned.seen
  rw [hvalue, hgeneration]

/-- Clearing one override leaves the snapshot of another as it was. -/
lemma seen_of_clears {p : Uuid × String} (hne : p ≠ k) (h : s'.world.tables.organisationFeatures =
      s.world.tables.organisationFeatures.deleteWhere (fun f => f.key = p))
    (hgeneration : s'.generation = s.generation) : s'.seen k = s.seen k := by
  have hvalue : s'.value k = s.value k := by
    unfold Versioned.value Tables.override
    rw [h, Table.find?_deleteWhere_of_ne hne.symm]
  unfold Versioned.seen
  rw [hvalue, hgeneration]

/-- A step that changes an override is one of a statement on it that completes. -/
lemma seen_of_next {p q : FlagPos} (h : p.next s = some (q, s')) : s'.seen k = s.seen k ∨
    p.key = k ∧ q.key = k ∧ p.writing.isSome = true ∧ q.obtained.isSome = true ∧
      q.hasWritten = true ∧ p.decisive q = true := by
  cases flagStep_of_next h with
  | sees key idle fresh seen unwritten obtained decisive => exact Or.inl rfl
  | @sets input d seen s w' tables =>
    by_cases hk : (input.organisationId, input.slug) = k
    · exact Or.inr ⟨hk, hk, rfl, rfl, rfl, rfl⟩
    · exact Or.inl (seen_of_sets (f := ⟨input.organisationId, input.slug, input.value, s.world.now,
        input.actorUserId⟩) hk tables)
  | @clears input d v s s' overrides generation =>
    by_cases hk : (input.organisationId, input.slug) = k
    · exact Or.inr ⟨hk, hk, rfl, rfl, rfl, rfl⟩
    · exact Or.inl (seen_of_clears hk overrides generation)
  | overlooks other same => exact Or.inl (seen_of_keepsOverrides same)
  | goes key idle written obtained decisive same => exact Or.inl (seen_of_keepsOverrides same)

namespace FlagPos

/-- The snapshot of a statement that is about to write is obsolete: for a setting, the value is
another one by now; for a clearing, there is a row that it has not seen. -/
def misled : FlagPos → Versioned → Bool
  | upserting input _ seen, s =>
    seen.map Seen.value ≠ s.value (input.organisationId, input.slug)
  | deleting input _ seen, s =>
    (s.value (input.organisationId, input.slug)).isSome &&
      seen.map Seen.generation ≠ some (s.generation (input.organisationId, input.slug))
  | _, _ => false

/-- The statement that a call is about to run completes. -/
def completes : FlagPos → Versioned → Prop
  | upserting input _ _, s => s.world.answers = true ∧ ∃ t, s.world.tables.upsertFeature
      ⟨input.organisationId, input.slug, input.value, s.world.now, input.actorUserId⟩ = .ok t
  | deleting _ _ _, s => s.world.answers = true
  | _, _ => False

/-- A statement whose snapshot is up to date is not misled. -/
lemma not_misled {p : FlagPos} (h : p.writing = some (s.seen p.key)) : p.misled s = false := by
  cases p with
  | upserting input d seen =>
    obtain rfl : seen = s.seen (input.organisationId, input.slug) := Option.some.inj h
    simp [misled, map_value_seen]
  | deleting input d seen =>
    obtain rfl : seen = s.seen (input.organisationId, input.slug) := Option.some.inj h
    unfold misled Versioned.seen
    cases hvalue : s.value (input.organisationId, input.slug) <;> simp [hvalue]
  | setting input p => rfl
  | clearing input p => rfl

/-- A statement takes its snapshot in a step of its own. -/
lemma writing_of_next {p q : FlagPos} (h : p.next s = some (q, s'))
    (hq : q.writing.isSome = true) :
    p.decisive q = true ∧ q.writing = some (s.seen q.key) ∧ s' = s := by
  cases flagStep_of_next h with
  | sees key idle fresh seen unwritten obtained decisive => exact ⟨decisive, seen, rfl⟩
  | sets => cases hq
  | clears => cases hq
  | overlooks => cases hq
  | goes key idle written obtained decisive same =>
    rw [idle] at hq
    cases hq

/-- A call that has written goes on to its end. -/
lemma written_of_next {p q : FlagPos} (h : p.next s = some (q, s')) (hp : p.hasWritten = true) :
    q.key = p.key ∧ q.hasWritten = true ∧ p.decisive q = false := by
  cases flagStep_of_next h with
  | sees key idle fresh seen unwritten obtained decisive =>
    rw [fresh] at hp
    cases hp
  | sets => cases hp
  | clears => cases hp
  | overlooks => cases hp
  | goes key idle written obtained decisive same => exact ⟨key, written.trans hp, decisive⟩

/-- A call obtains the value that is there exactly when its statement is not misled. -/
lemma obtained_eq_iff {p q : FlagPos} {old : Option Value} (h : p.next s = some (q, s'))
    (hp : p.writing.isSome = true) (hq : q.obtained = some old) :
    p.completes s ∧ (old = s.value p.key ↔ p.misled s = false) := by
  cases p with
  | setting input p => cases hp
  | clearing input p => cases hp
  | upserting input d seen =>
    simp only [next] at h
    split at h
    · cases h
      cases hq
    · rename_i v w' hrun
      cases h
      cases hq
      obtain ⟨t, heffect, -, hanswers⟩ := execute_eq_ok (Prog.mapErr_eq_ok hrun)
      refine ⟨⟨hanswers, t, (return_eq_ok.mp heffect).1⟩, ?_⟩
      simp [misled, key]
  | deleting input d seen =>
    simp only [next, deleteSeen] at h
    split at h
    · cases h
      cases hq
    · rename_i v w' hrun
      cases h
      cases hq
      split at hrun
      · rename_i hsame
        -- the row that was seen is deleted in the version it has now
        obtain ⟨t, heffect, -, hanswers⟩ := execute_eq_ok (Prog.mapErr_eq_ok hrun)
        cases heffect
        refine ⟨hanswers, ?_⟩
        simp [misled, key, hsame, Versioned.value]
      · rename_i hother
        -- nothing is deleted and nothing obtained, which is right only when no row is there
        obtain ⟨rfl, -, hanswers⟩ := query_eq_ok (Prog.mapErr_eq_ok hrun)
        refine ⟨hanswers, ?_⟩
        simp only [misled, key, decide_eq_true hother, ne_eq]
        cases s.value (input.organisationId, input.slug) <;> simp

/-- The value that a call has obtained is the one that it records. -/
theorem recorded_of_next {p q : FlagPos} {old : Option Value} (h : p.next s = some (q, s'))
    (hp : p.obtained = some old) :
    q.obtained = some old ∨ ∃ selfService, s' =
      { s with world := ((record (p.event old selfService) : Action Anyhow Unit).run s.world).2 } := by
  cases p with
  | upserting input d seen => cases hp
  | deleting input d seen => cases hp
  | setting input p =>
    cases p with
    | invalidate d old' =>
      cases h
      exact Or.inl hp
    | audit d old' =>
      cases hp
      cases h
      exact Or.inr ⟨d.selfService, rfl⟩
    | _ => cases hp
  | clearing input p =>
    cases p with
    | invalidate d old' =>
      cases h
      exact Or.inl hp
    | audit d old' =>
      cases hp
      cases h
      exact Or.inr ⟨d.selfService, rfl⟩
    | _ => cases hp

/-- A statement that completes had its snapshot. -/
lemma writing_of_completes {p : FlagPos} (h : p.completes s) : p.writing.isSome = true := by
  cases p with
  | setting input p => exact h.elim
  | upserting input d seen => rfl
  | clearing input p => exact h.elim
  | deleting input d seen => rfl

/-- A call whose statement completes obtains a value. -/
lemma obtained_of_completes {p q : FlagPos} (h : p.next s = some (q, s'))
    (hp : p.completes s) : q.obtained.isSome = true ∧ q.key = p.key := by
  cases p with
  | setting input p => exact hp.elim
  | clearing input p => exact hp.elim
  | upserting input d seen =>
    obtain ⟨hanswers, t, ht⟩ := hp
    have hrun : (upsertOverride input.organisationId input.slug input.value
        input.actorUserId).run s.world = (.ok (s.value (input.organisationId, input.slug)),
          { s.world.tick with tables := t }) :=
      Prog.run_mapErr_ok (run_execute_ok hanswers (return_eq_ok.mpr ⟨ht, rfl⟩))
    simp only [next, hrun] at h
    cases h
    exact ⟨rfl, rfl⟩
  | deleting input d seen =>
    simp only [next, deleteSeen] at h
    split at h
    · rename_i e w' hrun
      have hanswers : s.world.answers = true := hp
      split at hrun
      · rw [deleteOverride, Prog.run_mapErr_ok (run_execute_ok hanswers rfl)] at hrun
        cases hrun
      · rw [Prog.run_mapErr_ok (run_query_ok hanswers)] at hrun
        cases hrun
    · cases h
      exact ⟨rfl, rfl⟩

end FlagPos

end Steps

/-! ## Runs -/

section
variable {ι : Type} {k : Uuid × String} {P Q : Pool ι Versioned FlagPos} {turn : Turn ι}
  {start : Option Value} {s : Versioned}

/-- A statement on the override completes in a move. -/
def Finishes (k : Uuid × String) (m : Move (Pool ι Versioned FlagPos) (Turn ι)) (i : ι)
    (old : Option Value) : Prop :=
  m.label = .moves i ∧ ∃ b c, m.pre.calls i = some b ∧ m.post.calls i = some c ∧ b.pos.key = k ∧
    b.pos.writing.isSome = true ∧ c.pos.obtained = some old

/-- The value that the last write among the moves has left, or else the one from the start. -/
def LastLeft (k : Uuid × String) (start : Option Value)
    (ms : List (Move (Pool ι Versioned FlagPos) (Turn ι))) (v : Option Value) : Prop :=
  (∃ before m after, ms = before ++ m :: after ∧ (∃ i old, Finishes k m i old) ∧
    (∀ n ∈ after, ∀ i old, ¬ Finishes k n i old) ∧ v = m.post.state.value k) ∨
  (∀ n ∈ ms, ∀ i old, ¬ Finishes k n i old) ∧ v = start

/-- Another statement on the override has completed since the one of a call took its snapshot. -/
def Outdated (k : Uuid × String) (P : Pool ι Versioned FlagPos) (c : Call FlagPos) : Prop :=
  ∃ j d n m, P.calls j = some d ∧ d.pos.key = k ∧ d.pos.hasWritten = true ∧ c.mark = some n ∧
    d.mark = some m ∧ n < m

/-- A statement on the override is about to complete on a snapshot that another one, which has
completed since, has made obsolete. -/
def Misses (k : Uuid × String) (P : Pool ι Versioned FlagPos) (i : ι) : Prop :=
  ∃ c, P.calls i = some c ∧ c.pos.key = k ∧ c.pos.completes P.state ∧
    c.pos.misled P.state = true ∧ Outdated k P c

/-- The invariant of all runs: a snapshot shows the override as it is, unless another statement on
it has completed since. -/
structure Sighted (k : Uuid × String) (P : Pool ι Versioned FlagPos) : Prop where
  timely : ∀ i c, P.calls i = some c → Pool.Timely (flagSystem ι) P c
  marked : ∀ i c, P.calls i = some c → c.pos.writing.isSome = true → c.mark.isSome = true
  sight : ∀ i c, P.calls i = some c → c.pos.key = k → c.pos.writing.isSome = true →
    c.pos.writing = some (P.state.seen k) ∨ Outdated k P c

/-- Without calls every snapshot is up to date. -/
lemma sighted_idle : Sighted k (Pool.idle ι FlagPos s) :=
  ⟨Pool.timely_idle, fun _ _ hc => (nomatch hc), fun _ _ hc => (nomatch hc)⟩

variable [DecidableEq ι]

/-- A step of the settings and clearings. -/
abbrev FlagsStep (ι : Type) [DecidableEq ι] := Pool.Step (flagSystem ι)

/-- A step shows the override as it was, or a statement on it completes in it. -/
lemma seen_of_step (h : FlagsStep ι P turn Q) : Q.state.seen k = P.state.seen k ∨
    ∃ i b c, turn = .moves i ∧ P.calls i = some b ∧ Q.calls i = some c ∧ b.pos.key = k ∧
      c.pos.key = k ∧ b.pos.writing.isSome = true ∧ c.pos.obtained.isSome = true ∧
      c.pos.hasWritten = true ∧ c.mark = some (P.time + 1) := by
  cases h.cause with
  | begins i hturn state => exact Or.inl (by rw [state])
  | elsewhere hturn env => exact Or.inl (seen_of_keepsOverrides env)
  | moved i b c hturn there here step hcall =>
    rcases seen_of_next step with hsame | ⟨hb, hc, hwriting, hobtained, hwritten, hdecisive⟩
    · exact Or.inl hsame
    · refine Or.inr ⟨i, b, c, hturn, there, here, hb, hc, hwriting, hobtained, hwritten, ?_⟩
      rw [hcall]
      exact Pool.moved_mark hdecisive

/-- A snapshot that is obsolete stays so. -/
lemma Outdated.step (h : FlagsStep ι P turn Q) {c : Call FlagPos} (hP : Outdated k P c) :
    Outdated k Q c := by
  obtain ⟨j, d, n, m, hd, hkey, hwritten, hn, hm, hless⟩ := hP
  rcases h.kept hd with hsame | ⟨-, e, he, step, hcall⟩
  · exact ⟨j, d, n, m, hsame, hkey, hwritten, hn, hm, hless⟩
  · obtain ⟨hekey, hewritten, hdecisive⟩ := FlagPos.written_of_next step hwritten
    refine ⟨j, e, n, m, he, hekey.trans hkey, hewritten, hn, ?_, hless⟩
    rw [hcall, Pool.moved_mark_of_not hdecisive]
    exact hm

/-- Every step keeps the invariant. -/
lemma Sighted.step (h : FlagsStep ι P turn Q) (hP : Sighted k P) : Sighted k Q := by
  refine ⟨Pool.Timely.step h hP.timely, fun i c hc hwriting => ?_, fun i c hc hkey hwriting => ?_⟩
  · cases h.call hc with
    | same hold => exact hP.marked i c hold hwriting
    | opened _ _ starts _ _ =>
      rw [(FlagPos.starts_eq starts).1] at hwriting
      cases hwriting
    | moved hturn b there step hcall =>
      rw [hcall, Pool.moved_mark (FlagPos.writing_of_next step hwriting).1]
      rfl
  · cases h.call hc with
    | same hold =>
      rcases seen_of_step (k := k) h with hsame | ⟨j, b, d, -, -, hd, -, hdkey, -, -, hwritten, hmark⟩
      · rcases hP.sight i c hold hkey hwriting with hsight | hout
        · rw [hsame]
          exact Or.inl hsight
        · exact Or.inr (hout.step h)
      · -- the snapshot becomes outdated in this step
        obtain ⟨n, hn⟩ := Option.isSome_iff_exists.mp (hP.marked i c hold hwriting)
        have hpast := ((hP.timely i c hold).mark n hn).2
        exact Or.inr ⟨j, d, n, P.time + 1, hd, hdkey, hwritten, hn, hmark, by omega⟩
    | opened _ _ starts _ _ =>
      rw [(FlagPos.starts_eq starts).1] at hwriting
      cases hwriting
    | moved hturn b there step hcall =>
      obtain ⟨-, hseen, hstate⟩ := FlagPos.writing_of_next step hwriting
      rw [hseen, hkey, hstate]
      exact Or.inl rfl

/-- An override changes only in a step in which a statement on it completes. -/
lemma value_of_step (h : FlagsStep ι P turn Q) :
    Q.state.value k = P.state.value k ∨ ∃ i old, Finishes k ⟨P, turn, Q⟩ i old := by
  rcases seen_of_step (k := k) h with
    hsame | ⟨i, b, c, hturn, hb, hc, hkey, -, hwriting, hobtained, -, -⟩
  · exact Or.inl (value_of_seen hsame)
  · obtain ⟨old, hold⟩ := Option.isSome_iff_exists.mp hobtained
    exact Or.inr ⟨i, old, hturn, b, c, hb, hc, hkey, hwriting, hold⟩

/-- Without a statement that completes the value stays. -/
lemma value_of_run {ms : List (Move (Pool ι Versioned FlagPos) (Turn ι))}
    (run : Run (FlagsStep ι) P ms Q) (h : ∀ m ∈ ms, ∀ i old, ¬ Finishes k m i old) :
    Q.state.value k = P.state.value k := by
  refine run.invariant (fun R => R.state.value k = P.state.value k)
    (fun m => ∀ i old, ¬ Finishes k m i old) rfl (fun a l b step hnone ha => ?_) h
  rcases value_of_step step with hsame | ⟨i, old, hcompletes⟩
  · exact hsame.trans ha
  · exact absurd hcompletes (hnone i old)

/-- The value that the last write has left is the one that is there. -/
lemma lastLeft_iff {ms : List (Move (Pool ι Versioned FlagPos) (Turn ι))} {v : Option Value}
    (run : Run (FlagsStep ι) (Pool.idle ι FlagPos s) ms P) :
    LastLeft k (s.value k) ms v ↔ v = P.state.value k := by
  constructor
  · rintro (⟨before, m, after, rfl, -, hnone, rfl⟩ | ⟨hnone, rfl⟩)
    · obtain ⟨Q, -, hlast⟩ := run.of_append
      exact (value_of_run hlast.of_cons.2.2 hnone).symm
    · exact (value_of_run run hnone).symm
  · rintro rfl
    induction run with
    | nil => exact Or.inr ⟨by simp, rfl⟩
    | @snoc ms Q turn P run step ih =>
      by_cases hcompletes : ∃ i old, Finishes k ⟨Q, turn, P⟩ i old
      · exact Or.inl ⟨ms, _, [], rfl, hcompletes, by simp, rfl⟩
      · have hnone : ∀ i old, ¬ Finishes k ⟨Q, turn, P⟩ i old :=
          fun i old h => hcompletes ⟨i, old, h⟩
        have hsame : P.state.value k = Q.state.value k :=
          (value_of_step step).resolve_right hcompletes
        rw [hsame]
        rcases ih with ⟨before, m, after, rfl, hm, hafter, hvalue⟩ | ⟨hall, hvalue⟩
        · refine Or.inl ⟨before, m, after ++ [⟨Q, turn, P⟩], by simp, hm, fun n hn => ?_, hvalue⟩
          rcases List.mem_append.mp hn with hn | hn
          · exact hafter n hn
          · cases List.mem_singleton.mp hn
            exact hnone
        · refine Or.inr ⟨fun n hn => ?_, hvalue⟩
          rcases List.mem_append.mp hn with hn | hn
          · exact hall n hn
          · cases List.mem_singleton.mp hn
            exact hnone

/-- A statement on the override that completes is that of a call which is about to write, and its
old value is the one that is there exactly when its snapshot is not obsolete. -/
lemma Finishes.writes {m : Move (Pool ι Versioned FlagPos) (Turn ι)} {i : ι} {old : Option Value}
    (step : FlagsStep ι m.pre m.label m.post) (h : Finishes k m i old) :
    ∃ b, m.pre.calls i = some b ∧ b.pos.key = k ∧ b.pos.writing.isSome = true ∧
      b.pos.completes m.pre.state ∧
      (old = m.pre.state.value k ↔ b.pos.misled m.pre.state = false) := by
  obtain ⟨hlabel, b, c, hb, hc, rfl, hwriting, hold⟩ := h
  cases step.cause with
  | begins j hturn state => cases hlabel.symm.trans hturn
  | elsewhere hturn env => cases hlabel.symm.trans hturn
  | moved j d e hturn there here next hcall =>
    cases hlabel.symm.trans hturn
    cases hb.symm.trans there
    cases hc.symm.trans here
    exact ⟨b, hb, rfl, hwriting, FlagPos.obtained_eq_iff next hwriting hold⟩

/-- A statement that is about to complete does so when its call moves. -/
lemma Misses.completes {m : Move (Pool ι Versioned FlagPos) (Turn ι)} {i : ι}
    (step : FlagsStep ι m.pre m.label m.post) (hlabel : m.label = .moves i)
    (h : Misses k m.pre i) : ∃ old, Finishes k m i old ∧ old ≠ m.pre.state.value k := by
  obtain ⟨b, hb, rfl, hcompletes, hmisled, -⟩ := h
  have hwriting := FlagPos.writing_of_completes hcompletes
  cases step.cause with
  | begins j hturn state => cases hlabel.symm.trans hturn
  | elsewhere hturn env => cases hlabel.symm.trans hturn
  | moved j d e hturn there here next hcall =>
    cases hlabel.symm.trans hturn
    cases hb.symm.trans there
    obtain ⟨old, hold⟩ :=
      Option.isSome_iff_exists.mp (FlagPos.obtained_of_completes next hcompletes).1
    refine ⟨old, ⟨hlabel, b, e, hb, here, rfl, hwriting, hold⟩, fun hvalue => ?_⟩
    rw [(FlagPos.obtained_eq_iff next hwriting hold).2.mp hvalue] at hmisled
    cases hmisled

/-- The value that each setting or clearing of a flag obtains and records is the one that the write
before it has left, exactly in the runs in which no statement completes on a snapshot that another
one has made obsolete. -/
theorem audit_chain_iff (k : Uuid × String) (s : Versioned)
    (ms : List (Move (Pool ι Versioned FlagPos) (Turn ι))) (P : Pool ι Versioned FlagPos)
    (run : Run (FlagsStep ι) (Pool.idle ι FlagPos s) ms P) :
    (∀ before m after, ms = before ++ m :: after → ∀ i old, Finishes k m i old →
        LastLeft k (s.value k) before old) ↔
      ∀ m ∈ ms, ∀ i, m.label = .moves i → ¬ Misses k m.pre i := by
  constructor
  · intro hchain m hm i hlabel hmisses
    obtain ⟨before, after, rfl, hbefore, -⟩ := run.split hm
    obtain ⟨old, hcompletes, hother⟩ := hmisses.completes (run.step_of_mem hm) hlabel
    exact hother ((lastLeft_iff hbefore).mp (hchain before m after rfl i old hcompletes))
  · rintro hsafe before m after rfl i old hcompletes
    have hm : m ∈ before ++ m :: after := List.mem_append_right _ (List.mem_cons_self ..)
    obtain ⟨hstep, hsighted⟩ := run.forall_moves (Sighted k) (fun _ => True) sighted_idle
      (fun _ _ _ step _ hP => hP.step step) (fun _ _ => trivial) m hm
    obtain ⟨Q, hbefore, hrest⟩ := run.of_append
    obtain rfl := hrest.of_cons.1
    refine (lastLeft_iff hbefore).mpr ?_
    obtain ⟨b, hb, hkey, hwriting, hdone, hiff⟩ := hcompletes.writes hstep
    refine hiff.mpr ?_
    by_contra hmisled
    have hmisses := hsafe m hm i hcompletes.1
    rcases hsighted.sight i b hb hkey hwriting with hsight | hout
    · rw [← hkey] at hsight
      exact hmisled (FlagPos.not_misled hsight)
    · exact hmisses ⟨b, hb, hkey, hdone, Bool.of_not_eq_false hmisled, hout⟩

end

section Runs

/-- The operator widens the API-key headers of `acme` again. -/
def widenHeaders : SetOrgFeatureInput :=
  { narrowHeaders with value := .array [.string "x-api-key", .string "authorization-bearer"] }

/-- The API-key headers of `acme`. -/
def headersKey : Uuid × String := (0xa, "auth.api_key_headers")

/-- A database without overrides. -/
def noOverrides : Versioned := ⟨.calm .twoTenants 0, fun _ => 0⟩

/-- A schedule of a few calls that set flags. -/
def performFlags (ok : Pool Client Versioned FlagPos → Turn Client → Bool)
    (as : List (Act Client FlagPos)) : Option (Pool Client Versioned FlagPos) :=
  Pool.perform (flagSystem Client) (fun _ => FlagPos.next) ok (Pool.idle Client FlagPos noOverrides)
    as

/-- No call is about to write on an obsolete snapshot. -/
def seesLatest (P : Pool Client Versioned FlagPos) : Turn Client → Bool
  | .moves i => (P.calls i).all (fun c => !c.pos.misled P.state)
  | _ => true

/-- A call that sees the latest override does not miss. -/
lemma not_misses {P : Pool Client Versioned FlagPos} {i : Client}
    (h : seesLatest P (.moves i) = true) : ¬ Misses headersKey P i := by
  rintro ⟨c, hc, -, -, hmisled, -⟩
  simp [seesLatest, hc, hmisled] at h

/-- Two settings one after the other. -/
def turnByTurn : List (Act Client FlagPos) :=
  .begins .first (.setting narrowHeaders .definition) :: Act.steps .first 5 ++
    .begins .second (.setting widenHeaders .definition) :: Act.steps .second 3

/-- Two settings that both take their snapshots before the first one writes. -/
def sameSnapshot : List (Act Client FlagPos) :=
  .begins .first (.setting narrowHeaders .definition) :: Act.steps .first 2 ++
    .begins .second (.setting widenHeaders .definition) :: Act.steps .second 2 ++
    Act.steps .first 1

/-- The second of two settings one after the other obtains what the first one wrote. -/
theorem audit_chain_iff_turnByTurn :
    ∃ ms P, Run (FlagsStep Client) (Pool.idle Client FlagPos noOverrides) ms P ∧
      (∀ before m after, ms = before ++ m :: after → ∀ i old, Finishes headersKey m i old →
        LastLeft headersKey (noOverrides.value headersKey) before old) ∧
      (P.calls .second).bind (fun c => c.pos.obtained) = some (some narrowHeaders.value) := by
  have hends : (performFlags seesLatest turnByTurn).map
      (fun P => (P.calls .second).bind (fun c => c.pos.obtained)) =
      some (some (some narrowHeaders.value)) := by decide +kernel
  obtain ⟨P, hP, hobtained⟩ := Option.map_eq_some_iff.mp hends
  obtain ⟨ms, hrun, hok⟩ := Pool.run_of_perform (fun h => h) hP
  have hsafe : ∀ m ∈ ms, ∀ i, m.label = .moves i → ¬ Misses headersKey m.pre i :=
    fun m hm i hi => not_misses (hi ▸ hok m hm)
  exact ⟨ms, P, hrun, (audit_chain_iff headersKey _ ms P hrun).mpr hsafe, hobtained⟩

/-- The second of two settings that overlap obtains no value, although the first one has left one. -/
theorem audit_chain_broken :
    ∃ ms m P, Run (FlagsStep Client) (Pool.idle Client FlagPos noOverrides) (ms ++ [m]) P ∧
      Finishes headersKey m .second none ∧
      ¬ LastLeft headersKey (noOverrides.value headersKey) ms none := by
  have hends : (performFlags (fun _ _ => true) sameSnapshot).map
      (fun P => (P.state.value headersKey, P.calls .second)) =
      some (some narrowHeaders.value,
        some ⟨.upserting widenHeaders seededFeatureDefinition none, 4, some 6, none⟩) := by
    decide +kernel
  have hlast : ∀ P ∈ performFlags (fun _ _ => true) sameSnapshot,
      (((FlagPos.upserting widenHeaders seededFeatureDefinition none).next P.state).map
        (fun r => r.1)) = some (.setting widenHeaders (.invalidate seededFeatureDefinition none)) := by
    decide +kernel
  obtain ⟨P, hP, heq⟩ := Option.map_eq_some_iff.mp hends
  obtain ⟨hvalue, hcall⟩ := Prod.mk.inj heq
  obtain ⟨ms, hrun, -⟩ := Pool.run_of_perform (fun h => h) hP
  obtain ⟨⟨q, s⟩, hnext, rfl⟩ := Option.map_eq_some_iff.mp (hlast P hP)
  refine ⟨ms, _, _, hrun.snoc (.moves hcall hnext),
    ⟨rfl, _, _, hcall, Pool.put_calls_self, rfl, rfl, rfl⟩, fun hleft => ?_⟩
  rw [lastLeft_iff hrun, hvalue] at hleft
  cases hleft

end Runs
end Egras
