import AuditTrail.Number.Binary64
import AuditTrail.Text.DecimalDigit

/-!
# Reading fractional numerals

A numeral is a sign, digits with at most one point among them, and an exponent. Reading
takes the longest numeral that a text begins with. A text as a whole may have digits of every
script, with single underscores between them, and it may also name an infinity or the value
that is no number, in letters of either case.
-/

namespace AuditTrail.Numeral

/-- The digits of a numeral: those before the point, those behind it, and the exponent. -/
structure Parts where
  whole : Text
  fraction : Text
  exponent : Int
deriving DecidableEq, Repr

/-- The value of the parts. -/
def Parts.value (parts : Parts) (negative : Bool) : Binary64 :=
  let digits := parts.whole ++ parts.fraction
  Binary64.ofDecimal negative ((Text.digits? digits).getD 0)
    (parts.exponent - parts.fraction.length)

/-- The digits that a text begins with, and the rest. -/
def spanDigits (t : Text) : Text × Text :=
  (t.takeWhile CodePoint.isDigit, t.dropWhile CodePoint.isDigit)

/-- The fraction that a text begins with: a point and at least one digit. -/
def fraction? (t : Text) : Option (Text × Text) :=
  match t with
  | [] => none
  | point :: rest =>
    match spanDigits rest with
    | (digits, rest) =>
      if point = CodePoint.ofChar '.' ∧ ¬ digits.isEmpty then some (digits, rest) else none

/-- The sign that a text begins with, and the rest. -/
def spanSign (t : Text) : Bool × Text :=
  match t with
  | [] => (false, [])
  | c :: rest =>
    if c = CodePoint.ofChar '-' then (true, rest)
    else if c = CodePoint.ofChar '+' then (false, rest)
    else (false, t)

/-- The exponent that a text begins with: its letter, a sign and at least one digit. -/
def exponent? (t : Text) : Option (Int × Text) :=
  match t with
  | [] => none
  | letter :: rest =>
    if letter = CodePoint.ofChar 'e' ∨ letter = CodePoint.ofChar 'E' then
      match spanSign rest with
      | (negative, rest) =>
        match spanDigits rest with
        | (digits, rest) =>
          (Text.digits? digits).map fun magnitude =>
            (if negative then -(magnitude : Int) else magnitude, rest)
    else none

/-- An ASCII capital as a small letter. -/
def small (c : CodePoint) : CodePoint :=
  if 0x41 ≤ c.val ∧ c.val ≤ 0x5A then CodePoint.ofNat (c.val + 0x20) else c

/-- The ASCII digit for a digit of any script; all else stays. -/
def asciiDigit (c : CodePoint) : CodePoint :=
  match c.decimalDigit? with
  | some digit => CodePoint.ofNat (0x30 + digit)
  | none => c

/-- A text without the underscores between its digits; none may stand elsewhere. `afterDigit`
says that a digit stands right before. -/
def ungrouped? (afterDigit : Bool) : Text -> Option Text
  | [] => some []
  | c :: rest =>
    if c = CodePoint.ofChar '_' then
      if afterDigit ∧ rest.head?.any CodePoint.isDigit then ungrouped? false rest else none
    else (ungrouped? c.isDigit rest).map (c :: ·)

/-- The value of a plain numeral or of a name. -/
def plainValue? (t : Text) : Option Binary64 :=
  match spanSign t with
  | (negative, rest) =>
    let word := rest.map small
    if word = ("inf" : Text) ∨ word = ("infinity" : Text) then some (.infinite negative)
    else if word = ("nan" : Text) then some .nan
    else
      match spanDigits rest with
      | (whole, rest) =>
        match rest with
        | [] => if whole.isEmpty then none else some (Parts.value ⟨whole, [], 0⟩ negative)
        | point :: behind =>
          let (fraction, rest) :=
            if point = CodePoint.ofChar '.' then spanDigits behind else ([], rest)
          if whole.isEmpty ∧ fraction.isEmpty then none
          else
            match rest with
            | [] => some (Parts.value ⟨whole, fraction, 0⟩ negative)
            | _ =>
              match exponent? rest with
              | some (exponent, []) => some (Parts.value ⟨whole, fraction, exponent⟩ negative)
              | _ => none

/-- The value of a whole text. -/
def value? (t : Text) : Option Binary64 :=
  (ungrouped? false ((Text.trimBoth CodePoint.isNumeralBlank t).map asciiDigit)).bind plainValue?

end AuditTrail.Numeral
