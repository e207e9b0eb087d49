import Mathlib.Data.List.Nodup

/-!
# Keyed tables

A table of rows of type `ρ` under a primary key `key : ρ → κ`: the rows in storage order together
with the proof that no two of them share a key, so that a table with a duplicate key cannot be
built. The operations are the ones a statement makes on a stored table: look a key up, insert a row
under a fresh key, delete or update the rows that satisfy a predicate.

Each operation comes with its membership lemma (`mem_insert?`, `mem_upsert`, `mem_deleteWhere`,
`mem_updateWhere`) and with its lookup lemma (`find?_insert?`, `find?_upsert`, `find?_deleteWhere`,
`find?_updateWhere`). The lookup lemmas say what the operation does to one key, which is how frame
conditions are proved: a key that the predicate does not select reads back as before. `ChangedIn`
says which rows may differ between two states of a table, with one lemma for each operation.
-/

namespace Egras.Lib

/-- Rows under a primary key, no two with the same key. -/
structure Table (ρ : Type) {κ : Type} (key : ρ → κ) where
  rows : List ρ
  nodup : (rows.map key).Nodup
deriving DecidableEq

namespace Table
variable {ρ κ : Type} {key : ρ → κ}

/-- The table with no rows. -/
def empty : Table ρ key := ⟨[], List.nodup_nil⟩

/-- A row is in a table when it is among its rows. -/
instance : Membership ρ (Table ρ key) := ⟨fun t r => r ∈ t.rows⟩

/-- Being among the rows is being in the table. -/
@[simp] lemma mem_rows {t : Table ρ key} {r} : r ∈ t.rows ↔ r ∈ t := Iff.rfl

/-- The empty table has no row. -/
@[simp] lemma not_mem_empty {r} : ¬ r ∈ (empty : Table ρ key) := List.not_mem_nil

/-- Two tables with the same rows in the same order are equal. -/
@[ext] lemma ext {t u : Table ρ key} (h : t.rows = u.rows) : t = u := by
  cases t
  cases u
  cases h
  rfl

/-- A key determines its row. -/
lemma eq_of_key {t : Table ρ key} {r q} (hr : r ∈ t) (hq : q ∈ t) (h : key r = key q) : r = q :=
  List.inj_on_of_nodup_map t.nodup hr hq h

/-- The rows selected by a predicate, in storage order. -/
def select (t : Table ρ key) (p : ρ → Bool) : List ρ := t.rows.filter p

/-- A row is selected when it is there and meets the condition. -/
@[simp] lemma mem_select {t : Table ρ key} {p r} : r ∈ t.select p ↔ r ∈ t ∧ p r := List.mem_filter

/-- Whether some row satisfies a predicate. -/
def any (t : Table ρ key) (p : ρ → Bool) : Bool := t.rows.any p

/-- Some row meets the condition. -/
@[simp] lemma any_eq_true {t : Table ρ key} {p} : t.any p = true ↔ ∃ r ∈ t, p r := List.any_eq_true

/-- No row meets the condition. -/
lemma any_eq_false {t : Table ρ key} {p} : t.any p = false ↔ ∀ r ∈ t, ¬ p r := List.any_eq_false

/-- Delete the rows that satisfy a predicate. -/
def deleteWhere (t : Table ρ key) (p : ρ → Bool) : Table ρ key where
  rows := t.rows.filter (fun r => !p r)
  nodup := (List.filter_sublist.map key).nodup t.nodup

/-- The rows that do not meet the condition stay. -/
@[simp] lemma mem_deleteWhere {t : Table ρ key} {p r} :
    r ∈ t.deleteWhere p ↔ r ∈ t ∧ p r = false := by
  simp [deleteWhere, ← mem_rows]

/-- Deleting rows none of which exists changes nothing. -/
lemma deleteWhere_eq_self {t : Table ρ key} {p} (h : ∀ r ∈ t, p r = false) :
    t.deleteWhere p = t := by
  apply ext
  exact List.filter_eq_self.mpr (fun r hr => by simp [h r hr])

/-- A selection after a deletion. -/
lemma select_deleteWhere {t : Table ρ key} {p q : ρ → Bool} :
    (t.deleteWhere p).select q = (t.select q).filter (fun r => !p r) := by
  unfold select deleteWhere
  rw [List.filter_filter, List.filter_filter]
  exact List.filter_congr fun r _ => Bool.and_comm _ _

/-- Update the rows that satisfy a predicate by a function that keeps their key. -/
def updateWhere (t : Table ρ key) (p : ρ → Bool) (f : ρ → ρ)
    (hf : ∀ r, key (f r) = key r := by intro _; rfl) : Table ρ key where
  rows := t.rows.map (fun r => if p r then f r else r)
  nodup := by
    have h : key ∘ (fun r => if p r then f r else r) = key := by
      funext r
      by_cases hp : p r <;> simp [hp, hf]
    rw [List.map_map, h]
    exact t.nodup

/-- The rows that meet the condition are changed, the others stay. -/
@[simp] lemma mem_updateWhere {t : Table ρ key} {p f hf r} :
    r ∈ t.updateWhere p f hf ↔ ∃ q ∈ t, (if p q then f q else q) = r := List.mem_map

/-- Updating rows none of which exists changes nothing. -/
lemma updateWhere_eq_self {t : Table ρ key} {p f hf} (h : ∀ r ∈ t, p r = false) :
    t.updateWhere p f hf = t := by
  apply ext
  calc t.rows.map (fun r => if p r then f r else r)
      = t.rows.map id := List.map_congr_left (fun r hr => by simp [h r hr])
    _ = t.rows := List.map_id _

/-- What an update takes out of a selection is no longer selected. -/
lemma select_updateWhere {t : Table ρ key} {p q : ρ → Bool} {f hf}
    (h : ∀ r ∈ t, p r = true → q (f r) = false) :
    (t.updateWhere p f hf).select q = t.select (fun r => q r && !p r) := by
  obtain ⟨rows, hnodup⟩ := t
  have h' : ∀ r ∈ rows, p r = true → q (f r) = false := h
  show (rows.map (fun r => if p r then f r else r)).filter q = rows.filter (fun r => q r && !p r)
  clear h hnodup
  induction rows with
  | nil => rfl
  | cons r rows ih =>
    obtain ⟨hr, hrows⟩ := List.forall_mem_cons.mp h'
    rw [List.map_cons]
    cases hp : p r with
    | true => simp [hp, hr hp, ih hrows]
    | false => cases hq : q r <;> simp [hp, hq, ih hrows]

/-- A selection is longer by one than the part of it without one row. -/
lemma length_select_of_one {t : Table ρ key} {p q : ρ → Bool} {k : ρ} (hk : k ∈ t) (hq : q k = true)
    (hp : ∀ r ∈ t, q r = true → (p r = true ↔ r = k)) :
    (t.select q).length = (t.select (fun r => q r && !p r)).length + 1 := by
  have hrows : t.rows.Nodup := List.Nodup.of_map key t.nodup
  have hone : ((t.select q).filter p).Perm [k] := by
    refine (List.perm_ext_iff_of_nodup ((hrows.filter q).filter p) (List.nodup_singleton k)).mpr ?_
    intro r
    rw [List.mem_filter, List.mem_filter, mem_rows, List.mem_singleton]
    constructor
    · rintro ⟨⟨hr, hqr⟩, hpr⟩
      exact (hp r hr hqr).mp hpr
    · rintro rfl
      exact ⟨⟨hk, hq⟩, (hp r hk hq).mpr rfl⟩
  have hrest : (t.select q).filter (fun r => !p r) = t.select (fun r => q r && !p r) := by
    unfold select
    rw [List.filter_filter]
    exact congrArg t.rows.filter (funext fun r => Bool.and_comm _ _)
  rw [← hrest, List.length_eq_length_filter_add p, hone.length_eq, Nat.add_comm]
  rfl

section Lookup
variable [DecidableEq κ]

/-- The row stored under a key. -/
def find? (t : Table ρ key) (k : κ) : Option ρ := t.rows.find? (fun r => key r = k)

/-- A row is found under a key exactly when it is stored and carries the key. -/
lemma find?_eq_some {t : Table ρ key} {k r} : t.find? k = some r ↔ r ∈ t ∧ key r = k := by
  constructor
  · intro h
    exact ⟨List.mem_of_find?_eq_some h, by simpa using List.find?_some h⟩
  · rintro ⟨hr, hk⟩
    cases hf : t.find? k with
    | none =>
      have hne := List.find?_eq_none.mp hf r hr
      simp [hk] at hne
    | some q =>
      have hq : key q = k := by simpa using List.find?_some hf
      rw [eq_of_key (List.mem_of_find?_eq_some hf) hr (hq.trans hk.symm)]

/-- Nothing is found under a key exactly when no row carries it. -/
lemma find?_eq_none {t : Table ρ key} {k} : t.find? k = none ↔ ∀ r ∈ t, key r ≠ k := by
  simp [find?, List.find?_eq_none]

/-- A stored row is found under its own key. -/
lemma find?_key {t : Table ρ key} {r} (h : r ∈ t) : t.find? (key r) = some r :=
  find?_eq_some.mpr ⟨h, rfl⟩

/-- Nothing is found in the empty table. -/
@[simp] lemma find?_empty {k} : (empty : Table ρ key).find? k = none := rfl

/-- Insert a row; refused when its key is taken. -/
def insert? (t : Table ρ key) (r : ρ) : Option (Table ρ key) :=
  if h : key r ∈ t.rows.map key then none
  else some ⟨t.rows ++ [r], by
    rw [List.map_append]
    exact t.nodup.append (List.nodup_singleton _) (by simpa using h)⟩

/-- An insertion is refused exactly when the key is taken. -/
lemma insert?_eq_none {t : Table ρ key} {r} : t.insert? r = none ↔ ∃ q ∈ t, key q = key r := by
  simp [insert?, ← mem_rows]

/-- What an accepted insertion tells: the key was free and the row is appended. -/
lemma insert?_eq_some {t t' : Table ρ key} {r} (h : t.insert? r = some t') :
    (∀ q ∈ t, key q ≠ key r) ∧ t'.rows = t.rows ++ [r] := by
  unfold insert? at h
  split at h
  · cases h
  · rename_i hk
    cases h
    exact ⟨fun q hq e => hk (List.mem_map.mpr ⟨q, hq, e⟩), rfl⟩

/-- An insert adds its row and no other. -/
lemma mem_insert? {t t' : Table ρ key} {r q} (h : t.insert? r = some t') :
    q ∈ t' ↔ q ∈ t ∨ q = r := by
  rw [← mem_rows, (insert?_eq_some h).2]
  simp

/-- A selection with one more row that it selects is longer by one. -/
lemma length_select_insert? {t t' : Table ρ key} {r : ρ} {q : ρ → Bool}
    (h : t.insert? r = some t') (hq : q r = true) :
    (t'.select q).length = (t.select q).length + 1 := by
  unfold select
  rw [(insert?_eq_some h).2, List.filter_append, List.length_append]
  simp [hq]

/-- An insertion changes what is stored under its own key only. -/
lemma find?_insert? {t t' : Table ρ key} {r k} (h : t.insert? r = some t') :
    t'.find? k = if key r = k then some r else t.find? k := by
  by_cases hk : key r = k
  · rw [if_pos hk]
    exact find?_eq_some.mpr ⟨(mem_insert? h).mpr (Or.inr rfl), hk⟩
  · rw [if_neg hk]
    have hrows := (insert?_eq_some h).2
    simp [find?, hrows, List.find?_append, hk]

/-- Insert rows one after the other, leaving out those whose key is taken. -/
def insertAll (t : Table ρ key) : List ρ → Table ρ key
  | [] => t
  | r :: rs => ((t.insert? r).getD t).insertAll rs

/-- One row more. -/
lemma insertAll_snoc {t : Table ρ key} {rs : List ρ} {r : ρ} :
    t.insertAll (rs ++ [r]) = ((t.insertAll rs).insert? r).getD (t.insertAll rs) := by
  induction rs generalizing t with
  | nil => rfl
  | cons q rs ih => exact ih

/-- A key is taken after the insertions when it was before or when one of the rows has it. -/
lemma taken_insertAll {t : Table ρ key} {rs : List ρ} {k : κ} :
    (∃ q ∈ t.insertAll rs, key q = k) ↔ (∃ q ∈ t, key q = k) ∨ ∃ q ∈ rs, key q = k := by
  induction rs generalizing t with
  | nil => simp [insertAll]
  | cons r rs ih =>
    have hcons : (∃ q ∈ r :: rs, key q = k) ↔ key r = k ∨ ∃ q ∈ rs, key q = k := by simp
    rw [insertAll, ih, hcons, ← or_assoc]
    refine or_congr_left ?_
    cases h : t.insert? r with
    | none =>
      obtain ⟨p, hp, hkey⟩ := insert?_eq_none.mp h
      exact ⟨Or.inl, fun hk => hk.elim id fun hr => ⟨p, hp, hkey.trans hr⟩⟩
    | some t' =>
      constructor
      · rintro ⟨q, hq, hk⟩
        rcases (mem_insert? h).mp hq with hold | rfl
        · exact Or.inl ⟨q, hold, hk⟩
        · exact Or.inr hk
      · rintro (⟨q, hq, hk⟩ | hk)
        · exact ⟨q, (mem_insert? h).mpr (Or.inl hq), hk⟩
        · exact ⟨r, (mem_insert? h).mpr (Or.inr rfl), hk⟩

/-- Rows under fresh keys are all inserted. -/
lemma mem_insertAll {t : Table ρ key} {rs : List ρ} {q : ρ}
    (hfresh : ∀ r ∈ rs, ∀ p ∈ t, key p ≠ key r) (hnodup : (rs.map key).Nodup) :
    q ∈ t.insertAll rs ↔ q ∈ t ∨ q ∈ rs := by
  induction rs generalizing t with
  | nil => simp [insertAll]
  | cons r rs ih =>
    obtain ⟨hr, hnodup⟩ := List.nodup_cons.mp hnodup
    unfold insertAll
    cases h : t.insert? r with
    | none =>
      obtain ⟨p, hp, hkey⟩ := insert?_eq_none.mp h
      exact absurd hkey (hfresh r List.mem_cons_self p hp)
    | some t' =>
      have hfresh' : ∀ s ∈ rs, ∀ p ∈ t', key p ≠ key s := by
        intro s hs p hp
        rcases (mem_insert? h).mp hp with hold | rfl
        · exact hfresh s (List.mem_cons_of_mem _ hs) p hold
        · exact fun hkey => hr (hkey ▸ List.mem_map_of_mem hs)
      rw [Option.getD_some, ih hfresh' hnodup, mem_insert? h, List.mem_cons, or_assoc]

/-- Put a row in the place of whatever is stored under its key. -/
def upsert (t : Table ρ key) (r : ρ) : Table ρ key where
  rows := t.rows.filter (fun q => !decide (key q = key r)) ++ [r]
  nodup := by
    rw [List.map_append]
    refine ((List.filter_sublist.map key).nodup t.nodup).append (List.nodup_singleton _) ?_
    simp

/-- An upsert puts its row in the place of the one with its key. -/
lemma mem_upsert {t : Table ρ key} {r q} : q ∈ t.upsert r ↔ q ∈ t ∧ key q ≠ key r ∨ q = r := by
  simp [upsert, ← mem_rows]

/-- Writing a row changes what is stored under its own key only. -/
lemma find?_upsert {t : Table ρ key} {r k} :
    (t.upsert r).find? k = if key r = k then some r else t.find? k := by
  by_cases hk : key r = k
  · rw [if_pos hk]
    exact find?_eq_some.mpr ⟨mem_upsert.mpr (Or.inr rfl), hk⟩
  · rw [if_neg hk]
    cases hf : t.find? k with
    | some q =>
      obtain ⟨hq, hqk⟩ := find?_eq_some.mp hf
      have hne : key q ≠ key r := fun e => hk (e.symm.trans hqk)
      exact find?_eq_some.mpr ⟨mem_upsert.mpr (Or.inl ⟨hq, hne⟩), hqk⟩
    | none =>
      refine find?_eq_none.mpr (fun q hq => ?_)
      obtain ⟨hq, -⟩ | rfl := mem_upsert.mp hq
      · exact find?_eq_none.mp hf q hq
      · exact hk

/-- A deletion removes what it selects under a key and leaves the rest. -/
lemma find?_deleteWhere {t : Table ρ key} {p k} :
    (t.deleteWhere p).find? k = (t.find? k).filter (fun r => !p r) := by
  cases hf : t.find? k with
  | none =>
    have hn := find?_eq_none.mp hf
    exact find?_eq_none.mpr (fun r hr => hn r (mem_deleteWhere.mp hr).1)
  | some r =>
    obtain ⟨hr, hk⟩ := find?_eq_some.mp hf
    cases hp : p r with
    | false => simpa [Option.filter, hp] using find?_eq_some.mpr ⟨mem_deleteWhere.mpr ⟨hr, hp⟩, hk⟩
    | true =>
      simp only [Option.filter, hp, Bool.not_true, Bool.false_eq_true, if_false]
      refine find?_eq_none.mpr (fun q hq hqk => ?_)
      obtain ⟨hq, hpq⟩ := mem_deleteWhere.mp hq
      rw [eq_of_key hq hr (hqk.trans hk.symm), hp] at hpq
      cases hpq

/-- A deletion of one key leaves the other keys. -/
lemma find?_deleteWhere_of_ne {t : Table ρ key} {k k' : κ} (h : k ≠ k') :
    (t.deleteWhere (fun r => key r = k')).find? k = t.find? k := by
  rw [find?_deleteWhere]
  cases hfind : t.find? k with
  | none => rfl
  | some r =>
    have hkept : (!decide (key r = k')) = true := by
      rw [(find?_eq_some.mp hfind).2, decide_eq_false h]
      rfl
    rw [Option.filter_some, hkept]
    rfl

/-- An update rewrites what it selects under a key and leaves the rest. -/
lemma find?_updateWhere {t : Table ρ key} {p f hf k} :
    (t.updateWhere p f hf).find? k = (t.find? k).map (fun r => if p r then f r else r) := by
  have hkey : ∀ r, key (if p r then f r else r) = key r := by
    intro r
    by_cases hp : p r <;> simp [hp, hf]
  cases hfind : t.find? k with
  | none =>
    have hn := find?_eq_none.mp hfind
    refine find?_eq_none.mpr (fun r hr => ?_)
    obtain ⟨q, hq, rfl⟩ := mem_updateWhere.mp hr
    rw [hkey]
    exact hn q hq
  | some r =>
    obtain ⟨hr, hk⟩ := find?_eq_some.mp hfind
    exact find?_eq_some.mpr ⟨mem_updateWhere.mpr ⟨r, hr, rfl⟩, (hkey r).trans hk⟩

end Lookup

/-- The rows by which two states of a table differ: those that are gone satisfy `P`, those that are
new satisfy `Q`; an updated row counts as both. -/
structure ChangedIn (P Q : ρ → Prop) (t t' : Table ρ key) : Prop where
  removed : ∀ r ∈ t, r ∉ t' → P r
  added : ∀ r ∈ t', r ∉ t → Q r

section ChangedIn
variable {P Q : ρ → Prop} {t t' : Table ρ key} {r : ρ}

/-- Nothing has changed. -/
lemma ChangedIn.refl : ChangedIn P Q t t :=
  ⟨fun _ hr hn => absurd hr hn, fun _ hr hn => absurd hr hn⟩

/-- One change after another. -/
lemma ChangedIn.trans {t'' : Table ρ key} (h : ChangedIn P Q t t') (h' : ChangedIn P Q t' t'') :
    ChangedIn P Q t t'' := by
  constructor
  · intro r hr hn
    by_cases hmem : r ∈ t'
    · exact h'.removed r hmem hn
    · exact h.removed r hr hmem
  · intro r hr hn
    by_cases hmem : r ∈ t'
    · exact h.added r hmem hn
    · exact h'.added r hr hmem

/-- A deletion touches the rows that meet its condition. -/
lemma changedIn_deleteWhere {p : ρ → Bool} (h : ∀ r ∈ t, p r = true → P r) :
    ChangedIn P Q t (t.deleteWhere p) := by
  refine ⟨fun r hr hn => ?_, fun r hr hn => absurd (mem_deleteWhere.mp hr).1 hn⟩
  cases hp : p r with
  | true => exact h r hr hp
  | false => exact absurd (mem_deleteWhere.mpr ⟨hr, hp⟩) hn

/-- An update touches the rows that meet its condition. -/
lemma changedIn_updateWhere {p : ρ → Bool} {f : ρ → ρ} {hf}
    (h : ∀ r ∈ t, p r = true → P r ∧ Q (f r)) : ChangedIn P Q t (t.updateWhere p f hf) := by
  constructor
  · intro r hr hn
    cases hp : p r with
    | true => exact (h r hr hp).1
    | false => exact absurd (mem_updateWhere.mpr ⟨r, hr, by simp [hp]⟩) hn
  · intro r hr hn
    obtain ⟨q, hq, rfl⟩ := mem_updateWhere.mp hr
    cases hp : p q with
    | true => simpa [hp] using (h q hq hp).2
    | false =>
      simp only [hp, Bool.false_eq_true, if_false] at hn
      exact absurd hq hn

variable [DecidableEq κ]

/-- An insert touches no row that is there. -/
lemma changedIn_insert? (h : t.insert? r = some t') (hr : Q r) : ChangedIn P Q t t' := by
  refine ⟨fun q hq hn => absurd ((mem_insert? h).mpr (Or.inl hq)) hn, fun q hq hn => ?_⟩
  rcases (mem_insert? h).mp hq with hold | rfl
  · exact absurd hold hn
  · exact hr

/-- An upsert touches the row with its key. -/
lemma changedIn_upsert (hold : ∀ q ∈ t, key q = key r → P q) (hr : Q r) :
    ChangedIn P Q t (t.upsert r) := by
  constructor
  · intro q hq hn
    by_contra hP
    exact hn (mem_upsert.mpr (Or.inl ⟨hq, fun hk => hP (hold q hq hk)⟩))
  · intro q hq hn
    rcases mem_upsert.mp hq with ⟨hq, -⟩ | rfl
    · exact absurd hq hn
    · exact hr

end ChangedIn
end Table
end Egras.Lib
