import AuditTrail.Json.Value
import AuditTrail.Number.Shortest

/-!
# Writing JSON

A value on one line, without blanks and in printable ASCII only. Code points outside that
range are written by their number, those above U+FFFF as a surrogate pair.
-/

namespace AuditTrail.Json

/-- A number of sixteen bits as an escape. -/
def unitEscape (unit : Nat) : Text := "\\u" ++ Text.hexadecimal 4 unit

/-- One code point inside a text. -/
def escaped (c : CodePoint) : Text :=
  if c = CodePoint.ofChar '"' ∨ c = CodePoint.ofChar '\\' then [CodePoint.ofChar '\\', c]
  else if 0x20 ≤ c.val ∧ c.val ≤ 0x7E then [c]
  else if c.val = 0x0A then "\\n"
  else if c.val = 0x0D then "\\r"
  else if c.val = 0x09 then "\\t"
  else if c.val = 0x0C then "\\f"
  else if c.val = 0x08 then "\\b"
  else if c.val < 0x10000 then unitEscape c.val
  else
    let above := c.val - 0x10000
    unitEscape (0xD800 + above / 0x400) ++ unitEscape (0xDC00 + above % 0x400)

/-- A text between double quotes. -/
def writeText (t : Text) : Text := "\"" ++ t.flatMap escaped ++ "\""

/-- A fractional number; infinities and the value that is no number have names. -/
def writeReal : Binary64 -> Text
  | .nan => "NaN"
  | .infinite negative => if negative then "-Infinity" else "Infinity"
  | value => value.text

mutual

/-- A value on one line. -/
def write : Json -> Text
  | .null => "null"
  | .bool value => if value then "true" else "false"
  | .int value => Text.ofInt value
  | .real value => writeReal value
  | .text value => writeText value
  | .array items => "[" ++ writeItems true items ++ "]"
  | .object members => "\x7b" ++ writeMembers true members ++ "\x7d"

/-- The items of an array; every one but the first has a comma in front. -/
def writeItems (first : Bool) : List Json -> Text
  | [] => []
  | item :: rest =>
    (if first then ([] : Text) else ",") ++ write item ++ writeItems false rest

/-- The members of an object; every one but the first has a comma in front. -/
def writeMembers (first : Bool) : List (Text × Json) -> Text
  | [] => []
  | (name, value) :: rest =>
    (if first then ([] : Text) else ",") ++ writeText name ++ ":" ++ write value
      ++ writeMembers false rest

end

end AuditTrail.Json
