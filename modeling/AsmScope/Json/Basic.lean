import AsmScope.Number.Binary64
import AsmScope.Table
/-! # Values of the data format

The values that settings and compile-commands files hold. Integers have no bound and are kept apart
from floating-point numbers; an object keeps its fields in the order in which they were first
written. -/

namespace AsmScope

/-- A value of a data file. -/
inductive Json
  | null
  | bool (value : Bool)
  | int (value : Int)
  | float (value : Binary64)
  | text (value : String)
  | array (items : List Json)
  | object (fields : List (String × Json))
  deriving Repr

namespace Json

instance : Inhabited Json := ⟨.null⟩

/-- Whether a value stands for nothing: null, false, a zero, an empty text, array or object. -/
def isEmptyValue : Json → Bool
  | .null => true
  | .bool value => !value
  | .int value => value == 0
  | .float value => value.isZero
  | .text value => value.isEmpty
  | .array items => items.isEmpty
  | .object fields => fields.isEmpty

/-- The text of a text value. -/
def text? : Json → Option String
  | .text value => some value
  | _ => none

/-- The items of an array. -/
def items? : Json → Option (List Json)
  | .array items => some items
  | _ => none

/-- The fields of an object. -/
def fields? : Json → Option (Table String Json)
  | .object fields => some fields
  | _ => none

end Json

end AsmScope
