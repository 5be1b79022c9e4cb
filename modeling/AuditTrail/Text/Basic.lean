/-!
# Text as code points

Audit records carry every code point that JSON can spell, unpaired surrogates
included, so a text here is a list of code points rather than a `String`. This
module fixes that carrier, the literals that coerce into it, and the decimal and
hexadecimal numerals that messages are built from.
-/

namespace AuditTrail

/-- One Unicode code point; surrogates count. -/
abbrev CodePoint := Fin 0x110000

/-- A sequence of code points. -/
abbrev Text := List CodePoint

/-- One octet. -/
abbrev Byte := UInt8

/-- A sequence of octets. -/
abbrev Bytes := List Byte

namespace CodePoint

/-- The code point of a scalar value. -/
def ofChar (c : Char) : CodePoint :=
  ⟨c.toNat, by
    have valid := c.valid
    simp only [UInt32.isValidChar, Nat.isValidChar] at valid
    have same : c.toNat = c.val.toNat := rfl
    omega⟩

instance : Coe Char CodePoint := ⟨ofChar⟩

/-- The code point with the given number; numbers outside the range wrap round. -/
def ofNat (n : Nat) : CodePoint := Fin.ofNat 0x110000 n

/-- The first half of a surrogate pair. -/
def isHighSurrogate (c : CodePoint) : Bool := 0xD800 ≤ c.val && c.val ≤ 0xDBFF

/-- The second half of a surrogate pair. -/
def isLowSurrogate (c : CodePoint) : Bool := 0xDC00 ≤ c.val && c.val ≤ 0xDFFF

/-- A code point that UTF-8 has no form for. -/
def isSurrogate (c : CodePoint) : Bool := 0xD800 ≤ c.val && c.val ≤ 0xDFFF

/-- The code point that a surrogate pair stands for. -/
def ofPair (high low : CodePoint) : CodePoint :=
  ofNat (0x10000 + (high.val - 0xD800) * 0x400 + (low.val - 0xDC00))

/-- The value of an ASCII decimal digit. -/
def digit? (c : CodePoint) : Option Nat :=
  if 0x30 ≤ c.val ∧ c.val ≤ 0x39 then some (c.val - 0x30) else none

/-- An ASCII decimal digit. -/
def isDigit (c : CodePoint) : Bool := c.digit?.isSome

/-- The value of a hexadecimal digit of either case. -/
def hexDigit? (c : CodePoint) : Option Nat :=
  if 0x30 ≤ c.val ∧ c.val ≤ 0x39 then some (c.val - 0x30)
  else if 0x41 ≤ c.val ∧ c.val ≤ 0x46 then some (c.val - 0x41 + 10)
  else if 0x61 ≤ c.val ∧ c.val ≤ 0x66 then some (c.val - 0x61 + 10)
  else none

/-- The lower-case hexadecimal digit of a number below sixteen. -/
def ofHexDigit (n : Nat) : CodePoint :=
  if n < 10 then ofNat (0x30 + n) else ofNat (0x61 + n - 10)

end CodePoint

namespace Text

/-- The code points of a string. -/
def ofString (s : String) : Text := s.toList.map CodePoint.ofChar

instance : Coe String Text := ⟨ofString⟩

/-- The lowest `width` decimal digits of a number, zeros in front. -/
def padded : Nat -> Nat -> Text
  | 0, _ => []
  | width + 1, n => padded width (n / 10) ++ [CodePoint.ofNat (0x30 + n % 10)]

@[simp] theorem length_padded (width n : Nat) : (padded width n).length = width := by
  induction width generalizing n with
  | zero => rfl
  | succ width ih => simp [padded, ih]

/-- The lowest `width` hexadecimal digits of a number, in lower case. -/
def hexadecimal : Nat -> Nat -> Text
  | 0, _ => []
  | width + 1, n => hexadecimal width (n / 16) ++ [CodePoint.ofHexDigit (n % 16)]

/-- A number in decimal, without leading zeros. -/
def ofNat (n : Nat) : Text := (Nat.toDigits 10 n).map CodePoint.ofChar

/-- A number in decimal, a minus sign in front of a negative one. -/
def ofInt : Int -> Text
  | .ofNat n => ofNat n
  | .negSucc n => CodePoint.ofChar '-' :: ofNat (n + 1)

/-- A number with one more ASCII digit written behind it. -/
def appendDigit (number : Option Nat) (c : CodePoint) : Option Nat :=
  match number, c.digit? with
  | some n, some digit => some (n * 10 + digit)
  | _, _ => none

/-- The number that a run of ASCII digits denotes; the empty run denotes none. -/
def digits? (t : Text) : Option Nat :=
  if t.isEmpty then none else t.foldl appendDigit (some 0)

/-- `count` blanks. -/
def spaces (count : Nat) : Text := List.replicate count (CodePoint.ofChar ' ')

/-- `t` filled up with blanks on the right to `width` code points. -/
def fill (width : Nat) (t : Text) : Text := t ++ spaces (width - t.length)

@[simp] theorem length_spaces (count : Nat) : (spaces count).length = count := by
  simp [spaces]

@[simp] theorem length_fill (width : Nat) (t : Text) :
    (fill width t).length = max width t.length := by
  simp only [fill, List.length_append, length_spaces]
  omega

/-- The parts with the separator between each two of them. -/
def join (separator : Text) (parts : List Text) : Text := separator.intercalate parts

/-- Whether a text begins with another. -/
def beginsWith (opening t : Text) : Bool := opening.isPrefixOf t

/-- Code-point order, a text before every longer text that it begins. -/
def precedes : (left right : Text) -> Bool
  | [], _ => true
  | _ :: _, [] => false
  | a :: left, b :: right => a.val < b.val || (a = b && precedes left right)

end Text

end AuditTrail
