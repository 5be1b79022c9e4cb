import AuditTrail.Text.Basic

/-!
# Blank code points

The white space that surrounds a record on its line: the code points whose
bidirectional class is a separator or white space, or whose category is a space
separator. `trim` removes it from both ends and from nowhere else.
-/

namespace AuditTrail

/-- The white space outside the run from U+2000 to U+200A. -/
def scatteredBlanks : List Nat :=
  [0x09, 0x0A, 0x0B, 0x0C, 0x0D, 0x1C, 0x1D, 0x1E, 0x1F, 0x20, 0x85, 0xA0, 0x1680,
   0x2028, 0x2029, 0x202F, 0x205F, 0x3000]

/-- White space. -/
def CodePoint.isBlank (c : CodePoint) : Bool :=
  scatteredBlanks.contains c.val || (0x2000 ≤ c.val && c.val ≤ 0x200A)

/-- White space that may surround a numeral: the information separators do not count. -/
def CodePoint.isNumeralBlank (c : CodePoint) : Bool :=
  c.isBlank && !(0x1C ≤ c.val && c.val ≤ 0x1F)

namespace Text

/-- `t` without the leading and trailing code points of a class. -/
def trimBoth (drops : CodePoint -> Bool) (t : Text) : Text :=
  ((t.dropWhile drops).reverse.dropWhile drops).reverse

/-- `t` without the white space at both ends. -/
def trim (t : Text) : Text := trimBoth CodePoint.isBlank t

end Text

end AuditTrail
