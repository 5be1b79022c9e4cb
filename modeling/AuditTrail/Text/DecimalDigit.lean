import AuditTrail.Text.Blank

/-!
# Decimal digits of every script

A whole number on the command line may be written with the decimal digits of any
script, with a sign, with single underscores between digits and with white space
around it. The table lists the zero of each script's run of ten digits.
-/

namespace AuditTrail

/-- The digit zero of every script; nine more digits follow each. -/
def scriptZeros : List Nat :=
  [48, 1632, 1776, 1984, 2406, 2534, 2662, 2790, 2918, 3046, 3174, 3302, 3430, 3558, 3664,
   3792, 3872, 4160, 4240, 6112, 6160, 6470, 6608, 6784, 6800, 6992, 7088, 7232, 7248,
   42528, 43216, 43264, 43472, 43504, 43600, 44016, 65296, 66720, 68912, 69734, 69872,
   69942, 70096, 70384, 70736, 70864, 71248, 71360, 71472, 71904, 72016, 72784, 73040,
   73120, 92768, 92864, 93008, 120782, 120792, 120802, 120812, 120822, 123200, 123632,
   125264, 130032]

/-- The value of a decimal digit of any script. -/
def CodePoint.decimalDigit? (c : CodePoint) : Option Nat :=
  (scriptZeros.find? fun start => start ≤ c.val && c.val ≤ start + 9).map (c.val - ·)

/-- The most digits that a numeral may have. -/
def mostDigits : Nat := 4300

namespace Text

/-- The digits of a run in which an underscore may stand between two digits.
`afterDigit` says that a digit stands right before. -/
def groupedDigits? (afterDigit : Bool) : Text -> Option (List Nat)
  | [] => if afterDigit then some [] else none
  | c :: rest =>
    match c.decimalDigit? with
    | some digit => (groupedDigits? true rest).map (digit :: ·)
    | none => if afterDigit ∧ c = CodePoint.ofChar '_' then groupedDigits? false rest else none

/-- The number with the given digits, the highest first. -/
def ofDigits (digits : List Nat) : Nat := digits.foldl (· * 10 + ·) 0

/-- Whether a sign in front makes the number negative, and what stands behind the sign. -/
def splitSign : Text -> Bool × Text
  | [] => (false, [])
  | c :: rest =>
    if c = CodePoint.ofChar '-' then (true, rest)
    else if c = CodePoint.ofChar '+' then (false, rest)
    else (false, c :: rest)

/-- The whole number that a text denotes. -/
def integer? (t : Text) : Option Int :=
  match splitSign (trimBoth CodePoint.isNumeralBlank t) with
  | (negative, rest) =>
    (groupedDigits? false rest).bind fun digits =>
      if digits.length > mostDigits then none
      else
        let magnitude : Int := ofDigits digits
        some (if negative then -magnitude else magnitude)

end Text

end AuditTrail
