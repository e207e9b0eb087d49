import Egras.Db.Schema

/-!
# Feature values

When a JSON value has the declared type of a flag, and what a flag evaluates to for an organisation.

Rust → Lean naming: `FeatureValueType::validate` → `FeatureValueType.validate`, `is_i64` → `isI64`,
`as_str` → `asStr?`, `as_array` → `asArray?`.
-/

namespace Egras

/-- Whether a number fits an `i64`. -/
def Number.isI64 : Number → Bool
  | .posInt n => n.toNat < 2 ^ 63
  | .negInt _ => true
  | .float _ => false

namespace Value

/-- The value is a text. -/
def isString : Value → Bool
  | .string _ => true
  | _ => false

/-- The text of a value that is one. -/
def asStr? : Value → Option String
  | .string s => some s
  | _ => none

/-- The elements of a value that has them. -/
def asArray? : Value → Option (List Value)
  | .array elems => some elems
  | _ => none

end Value

/-- Check a value against the declared type; an error names what was expected. -/
def FeatureValueType.validate : FeatureValueType → Value → Except String Unit
  | .bool, .bool _ => .ok ()
  | .string, .string _ => .ok ()
  | .int, v =>
    match v with
    | .number n => if n.isI64 then .ok () else .error "expected integer"
    | _ => .error "expected integer"
  | .enumSet, v =>
    match v with
    | .array elems => if elems.all Value.isString then .ok () else .error "expected array of strings"
    | _ => .error "expected array of strings"
  | .json, _ => .ok ()
  | .bool, _ => .error "expected boolean"
  | .string, _ => .error "expected string"

/-- Where an evaluated value comes from. -/
inductive FeatureSource
  | default
  | override
deriving DecidableEq

/-- The value of a flag for an organisation, as it is shown. -/
structure EvaluatedFeature where
  slug : String
  value : Value
  source : FeatureSource
  valueType : FeatureValueType
  selfService : Bool
deriving DecidableEq

end Egras
