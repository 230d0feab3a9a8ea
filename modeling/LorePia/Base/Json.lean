import LorePia.Base.Ieee
import LorePia.Base.OrdMap

/-!
# JSON values

A `serde_json::Value`. The fields of an object stand in ascending order of their names, as in its `BTreeMap`.
`structFields` gives the fields that a derived `Deserialize` reads of a struct: by name from an object, whose
other fields it ignores, and by position from an array of exactly the right length.
-/

namespace Base

/-- A `serde_json::Number`. -/
inductive JsonNumber
  | posInt (n : Nat)
  | negInt (n : Int)
  | float (x : F64)
deriving DecidableEq

/-- A `serde_json::Value`. -/
inductive Json
  | null
  | bool (b : Bool)
  | number (n : JsonNumber)
  | string (s : String)
  | array (items : List Json)
  | object (fields : List (String × Json))

namespace Json

/-- `value.get(key)`. -/
def get? (key : String) : Json → Option Json
  | .object fields => OrdMap.find key fields
  | _ => none

/-- `value.as_str()`. -/
def asStr : Json → Option String
  | .string s => some s
  | _ => none

/-- `value.as_u64()`. -/
def asU64 : Json → Option Nat
  | .number (.posInt n) => some n
  | _ => none

/-- `value.is_null()`. -/
def isNull : Json → Bool
  | .null => true
  | _ => false

/-- `value.is_object()`. -/
def isObject : Json → Bool
  | .object _ => true
  | _ => false

/-! ## Derived deserialization -/

/-- The fields of a struct with the given names. -/
def structFields (names : List String) : Json → Option (String → Option Json)
  | .object fields => some fun name => OrdMap.find name fields
  | .array items => if items.length = names.length then some fun name => items[names.idxOf name]? else none
  | _ => none

/-- A field of an optional type: a missing field and a null are `None`. -/
def optionField {α : Type} (decode : Json → Option α) : Option Json → Option (Option α)
  | none | some .null => some none
  | some value => (decode value).map some

/-- A field that must be there. -/
def requiredField {α : Type} (decode : Json → Option α) (value : Option Json) : Option α := value.bind decode

end Json

end Base
