import Egras.Base.Codecs
import Egras.Db.Seeds
import Egras.Lib.Paging
import Egras.Security.Repository

/-!
# Positions in a listing

The two orders in which rows are listed, by instant and identifier, and what it means that a client
pages through a listing over fixed tables (`Serves`): each page is served in a world of its own over
these tables.
-/

namespace Egras
open Lib

namespace Cursor

/-- The position of a row is past a cursor in ascending order. -/
def lt (c d : Cursor) : Bool := c.before d.createdAt d.id

/-- The position of a row is past a cursor in descending order. -/
def gt (c d : Cursor) : Bool := c.after d.createdAt d.id

/-- A cursor is before another by its date, and by its id at the same date. -/
lemma lt_iff {c d : Cursor} :
    c.lt d = true ↔
      c.createdAt < d.createdAt ∨ c.createdAt = d.createdAt ∧ c.id.toNat < d.id.toNat := by
  simp [lt, before, BitVec.lt_def]

/-- After is before the other way round. -/
lemma gt_eq_lt {c d : Cursor} : c.gt d = d.lt c := by
  unfold gt lt after before
  congr 2

/-- Cursors at the same date with the same number are equal. -/
lemma ext_toNat {c d : Cursor} (hat : c.createdAt = d.createdAt) (hid : c.id.toNat = d.id.toNat) :
    c = d := by
  cases c
  cases d
  cases hat
  cases BitVec.eq_of_toNat_eq hid
  rfl

/-- The earliest first is an order of keys. -/
lemma keyOrder_lt : KeyOrder lt := by
  constructor
  · intro c d h
    have harith : ∀ (a b : ℤ) (i j : ℕ), (a < b ∨ a = b ∧ i < j) → ¬ (b < a ∨ b = a ∧ j < i) := by
      omega
    rw [Bool.eq_false_iff, ne_eq, lt_iff]
    exact harith _ _ _ _ (lt_iff.mp h)
  · intro c d e hcd hde
    have harith : ∀ (a b c : ℤ) (i j k : ℕ), (a < b ∨ a = b ∧ i < j) → (b < c ∨ b = c ∧ j < k) →
        (a < c ∨ a = c ∧ i < k) := by
      omega
    exact lt_iff.mpr (harith _ _ _ _ _ _ (lt_iff.mp hcd) (lt_iff.mp hde))
  · intro c d
    have harith : ∀ (a b : ℤ) (i j : ℕ), (a < b ∨ a = b ∧ i < j) ∨ (a = b ∧ i = j) ∨
        (b < a ∨ b = a ∧ j < i) := by
      omega
    rcases harith c.createdAt d.createdAt c.id.toNat d.id.toNat with h | ⟨hat, hid⟩ | h
    · exact Or.inl (lt_iff.mpr h)
    · exact Or.inr (Or.inl (ext_toNat hat hid))
    · exact Or.inr (Or.inr (lt_iff.mpr h))

/-- The latest first is an order of keys. -/
lemma keyOrder_gt : KeyOrder gt := by
  constructor
  · intro c d h
    rw [gt_eq_lt] at h ⊢
    exact keyOrder_lt.asymm _ _ h
  · intro c d e hcd hde
    rw [gt_eq_lt] at hcd hde ⊢
    exact keyOrder_lt.trans _ _ _ hde hcd
  · intro c d
    rw [gt_eq_lt, gt_eq_lt]
    rcases keyOrder_lt.total c d with h | h | h
    · exact Or.inr (Or.inr h)
    · exact Or.inr (Or.inl h)
    · exact Or.inl h

/-- `ORDER BY created_at ASC, id ASC`. -/
lemma ascending_iff (c d : Cursor) :
    (c.createdAt < d.createdAt ∨ c.createdAt = d.createdAt ∧ c.id ≤ d.id) ↔
      c.lt d = true ∨ c = d := by
  rw [lt_iff]
  constructor
  · rintro (hat | ⟨hat, hid⟩)
    · exact Or.inl (Or.inl hat)
    · rcases Nat.lt_or_eq_of_le (BitVec.le_def.mp hid) with hlt | heq
      · exact Or.inl (Or.inr ⟨hat, hlt⟩)
      · exact Or.inr (ext_toNat hat heq)
  · rintro ((hat | ⟨hat, hid⟩) | rfl)
    · exact Or.inl hat
    · exact Or.inr ⟨hat, BitVec.le_def.mpr hid.le⟩
    · exact Or.inr ⟨rfl, BitVec.le_def.mpr (Nat.le_refl _)⟩

/-- `ORDER BY created_at DESC, id DESC`. -/
lemma descending_iff (c d : Cursor) :
    (d.createdAt < c.createdAt ∨ d.createdAt = c.createdAt ∧ d.id ≤ c.id) ↔
      c.gt d = true ∨ c = d := by
  rw [ascending_iff, gt_eq_lt]
  exact or_congr_right eq_comm

end Cursor

/-- The cursor codecs give back what they encode. -/
structure CursorRoundTrips [CursorText] : Prop where
  id : ∀ c, CursorText.decodeIdCursor (CursorText.encodeIdCursor c) = some c
  user : ∀ c, CursorText.decodeUserCursor (CursorText.encodeUserCursor c) = some c

/-- A cursor that was handed out is accepted. -/
lemma decodeCursor_map {ε : Type} {encode : Cursor → String} {decode : String → Option Cursor}
    (h : ∀ c, decode (encode c) = some c) (after : Option Cursor) {invalid : ε} :
    decodeCursor decode (after.map encode) invalid = .ok after := by
  cases after with
  | none => rfl
  | some c =>
    simp only [Option.map_some, decodeCursor, h]

/-- The cursors of the platform come back as they were. -/
lemma cursorRoundTrips_paging : @CursorRoundTrips pagingPlatform.toCursorText := by
  let _ : Platform := pagingPlatform
  exact ⟨cursorOfBase64_encode (by decide) (by decide), cursorOfBase64_encode (by decide) (by decide)⟩

/-- A page of a listing over some tables, served in some world. -/
def Serves {α γ ε : Type} (request : Option γ → Action ε (Page α γ)) (t : Tables)
    (after : Option γ) (page : Page α γ) : Prop :=
  ∃ w w', w.tables = t ∧ (request after).run w = (.ok page, w')

section Serves
variable {α γ ε : Type} {request : Option γ → Action ε (Page α γ)} {t : Tables} {after : Option γ}

/-- What is served when a request that returns gives the same page in all worlds over the tables, and
returns in a calm one. -/
lemma serves_iff {page : Page α γ}
    (hall : ∀ w, w.tables = t → ∀ p, ((request after).run w).1 = .ok p → p = page)
    (hcalm : ((request after).run (.calm t 0)).1 = .ok page) (p : Page α γ) :
    Serves request t after p ↔ p = page := by
  constructor
  · rintro ⟨w, w', htables, hrun⟩
    exact hall w htables p (congrArg Prod.fst hrun)
  · rintro rfl
    exact ⟨.calm t 0, _, rfl, Prod.ext hcalm rfl⟩

/-- What is served when a request is one statement. -/
lemma serves_of_run {page : Page α γ} (e : ε)
    (hrun : ∀ w, w.tables = t → (request after).run w =
      if w.answers then (.ok page, w.tick) else (.error e, w.tick)) (p : Page α γ) :
    Serves request t after p ↔ p = page := by
  refine serves_iff (fun w htables p h => ?_) ?_ p
  · rw [hrun w htables] at h
    split at h
    · cases h
      rfl
    · cases h
  · exact congrArg Prod.fst (hrun (.calm t 0) rfl)

end Serves

end Egras
