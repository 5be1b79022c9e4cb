import AuditTrail.Number.Binary64
import AuditTrail.Register

/-!
# Decoded JSON

The values of JSON. Whole numbers stay apart from fractional ones, the members of an
object keep their order, and a repeated name has its last value at its first place.
-/

namespace AuditTrail

/-- A decoded JSON value. -/
inductive Json where
  | null
  | bool (value : Bool)
  | int (value : Int)
  | real (value : Binary64)
  | text (value : Text)
  | array (items : List Json)
  | object (members : List (Text × Json))

namespace Json

/-- Whether a value says nothing: null, false, a zero, or an empty text, array or object. -/
def isVacant : Json -> Bool
  | .null => true
  | .bool value => !value
  | .int value => value = 0
  | .real value => value.isZero
  | .text value => value.isEmpty
  | .array items => items.isEmpty
  | .object members => members.isEmpty

/-- The members of an object. -/
def members? : Json -> Option (Register Json)
  | .object members => some members
  | _ => none

/-- The items of an array. -/
def items? : Json -> Option (List Json)
  | .array items => some items
  | _ => none

/-- The text of a text value. -/
def text? : Json -> Option Text
  | .text value => some value
  | _ => none

/-- The number of a whole-number value. -/
def int? : Json -> Option Int
  | .int value => some value
  | _ => none

/-- The member of an object with a name, null if there is none. -/
def member (name : Text) (members : Register Json) : Json :=
  (members.get? name).getD .null

/-- The name of a value's kind in messages. -/
def kindName : Json -> Text
  | .null => "NoneType"
  | .bool _ => "bool"
  | .int _ => "int"
  | .real _ => "float"
  | .text _ => "str"
  | .array _ => "list"
  | .object _ => "dict"

end Json

end AuditTrail
