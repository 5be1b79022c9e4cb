import AuditTrail.Json.Value
import AuditTrail.Number.Shortest
import AuditTrail.Text.Quoted

/-!
# The spelling of a value

Where a record holds some other value than the text that is wanted, the value is spelt out:
`None`, `True`, numbers in decimal, texts between quotation marks, and arrays and objects
with their parts separated by a comma and a blank. A text by itself needs no marks.
-/

namespace AuditTrail.Json

mutual

/-- A value as it is shown inside messages and inside other values. -/
def spelling : Json -> Text
  | .null => "None"
  | .bool value => if value then "True" else "False"
  | .int value => Text.ofInt value
  | .real value => value.text
  | .text value => value.quoted
  | .array items => "[" ++ spellItems true items ++ "]"
  | .object members => "\x7b" ++ spellMembers true members ++ "\x7d"

/-- The items of an array; every one but the first has a separator in front. -/
def spellItems (first : Bool) : List Json -> Text
  | [] => []
  | item :: rest =>
    (if first then ([] : Text) else ", ") ++ spelling item ++ spellItems false rest

/-- The members of an object; every one but the first has a separator in front. -/
def spellMembers (first : Bool) : List (Text × Json) -> Text
  | [] => []
  | (name, value) :: rest =>
    (if first then ([] : Text) else ", ") ++ name.quoted ++ ": " ++ spelling value
      ++ spellMembers false rest

end

/-- A value as a text of its own. -/
def asText : Json -> Text
  | .text value => value
  | other => other.spelling

/-- A value as a label: empty when it says nothing. -/
def label (value : Json) : Text := if value.isVacant then [] else value.asText

/-- The label in a member of an object. -/
def labelOf (name : Text) (members : Register Json) : Text := (member name members).label

end AuditTrail.Json
