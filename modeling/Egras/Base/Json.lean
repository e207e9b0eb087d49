import Mathlib.Tactic.Lemma

/-!
# JSON values

`serde_json::Value`: the payload of a job, the value and the default of a feature flag, the payload
of an audit event. A number is kept in the three forms `serde_json` distinguishes, since the code
asks which one it has (`is_i64`, `is_u64`); a float is kept by its bits.

Equality is decided by the structural comparison `beq`, proved equivalent to equality by induction
on the value, its elements and its fields.
-/

namespace Egras

/-- A JSON number (Rust `serde_json::Number`). -/
inductive Number where
  | posInt (n : UInt64)
  | negInt (n : Int64)
  | float (bits : BitVec 64)
deriving DecidableEq, Repr

/-- A JSON value (Rust `serde_json::Value`). -/
inductive Value where
  | null
  | bool (b : Bool)
  | number (n : Number)
  | string (s : String)
  | array (elems : List Value)
  | object (fields : List (String × Value))
deriving Repr, Inhabited

namespace Value

mutual
/-- Structural comparison of two values. -/
def beq : Value → Value → Bool
  | .null, .null => true
  | .bool a, .bool b => a == b
  | .number a, .number b => a == b
  | .string a, .string b => a == b
  | .array a, .array b => beqElems a b
  | .object a, .object b => beqFields a b
  | _, _ => false

/-- Structural comparison of the elements of two arrays. -/
def beqElems : List Value → List Value → Bool
  | [], [] => true
  | a :: as, b :: bs => beq a b && beqElems as bs
  | _, _ => false

/-- Structural comparison of the fields of two objects. -/
def beqFields : List (String × Value) → List (String × Value) → Bool
  | [], [] => true
  | (k, a) :: as, (l, b) :: bs => k == l && beq a b && beqFields as bs
  | _, _ => false
end

mutual
/-- Values that compare equal are equal. -/
lemma eq_of_beq : ∀ {a b : Value}, beq a b = true → a = b
  | .null, b, h => by cases b <;> simp_all [beq]
  | .bool a, b, h => by cases b <;> simp_all [beq]
  | .number a, b, h => by cases b <;> simp_all [beq]
  | .string a, b, h => by cases b <;> simp_all [beq]
  | .array a, b, h => by
    cases b <;> simp [beq] at h
    rw [eq_of_beqElems h]
  | .object a, b, h => by
    cases b <;> simp [beq] at h
    rw [eq_of_beqFields h]

/-- Elements that compare equal are equal. -/
lemma eq_of_beqElems : ∀ {a b : List Value}, beqElems a b = true → a = b
  | [], b, h => by cases b <;> simp_all [beqElems]
  | a :: as, b, h => by
    cases b with
    | nil => simp [beqElems] at h
    | cons b bs =>
      simp only [beqElems, Bool.and_eq_true] at h
      rw [eq_of_beq h.1, eq_of_beqElems h.2]

/-- Fields that compare equal are equal. -/
lemma eq_of_beqFields : ∀ {a b : List (String × Value)}, beqFields a b = true → a = b
  | [], b, h => by cases b <;> simp_all [beqFields]
  | (k, a) :: as, b, h => by
    cases b with
    | nil => simp [beqFields] at h
    | cons b bs =>
      simp only [beqFields, Bool.and_eq_true, beq_iff_eq] at h
      obtain ⟨⟨hk, ha⟩, hs⟩ := h
      rw [hk, eq_of_beq ha, eq_of_beqFields hs]
end

mutual
/-- Every value compares equal to itself. -/
lemma beq_self : ∀ a : Value, beq a a = true
  | .null | .bool _ | .number _ | .string _ => by simp [beq]
  | .array a => by simp [beq, beqElems_self a]
  | .object a => by simp [beq, beqFields_self a]

/-- Every list of elements compares equal to itself. -/
lemma beqElems_self : ∀ a : List Value, beqElems a a = true
  | [] => by simp [beqElems]
  | a :: as => by simp [beqElems, beq_self a, beqElems_self as]

/-- Every list of fields compares equal to itself. -/
lemma beqFields_self : ∀ a : List (String × Value), beqFields a a = true
  | [] => by simp [beqFields]
  | (k, a) :: as => by simp [beqFields, beq_self a, beqFields_self as]
end

/-- Equality of values can be decided. -/
instance : DecidableEq Value := fun a b =>
  if h : beq a b = true then isTrue (eq_of_beq h)
  else isFalse (fun e => h (e ▸ beq_self a))

end Value
end Egras
