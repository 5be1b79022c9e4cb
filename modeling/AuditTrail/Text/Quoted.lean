import AuditTrail.Text.Printable

/-!
# Quoted text

Messages show a text between quotation marks, on one line and in printable code points
only. The mark is the apostrophe, except around a text that holds apostrophes and no
double quotes.
-/

namespace AuditTrail.Text

/-- The mark that a text is put between. -/
def quotationMark (t : Text) : CodePoint :=
  if t.contains (CodePoint.ofChar '\'') && !t.contains (CodePoint.ofChar '"') then
    CodePoint.ofChar '"'
  else
    CodePoint.ofChar '\''

/-- A code point by its number: two, four or eight hexadecimal digits. -/
def numericEscape (c : CodePoint) : Text :=
  if c.val ≤ 0xFF then "\\x" ++ hexadecimal 2 c.val
  else if c.val ≤ 0xFFFF then "\\u" ++ hexadecimal 4 c.val
  else "\\U" ++ hexadecimal 8 c.val

/-- One code point as it stands between the marks. -/
def quotedCodePoint (mark c : CodePoint) : Text :=
  if c = mark ∨ c = CodePoint.ofChar '\\' then [CodePoint.ofChar '\\', c]
  else if c = CodePoint.ofChar '\t' then "\\t"
  else if c = CodePoint.ofChar '\n' then "\\n"
  else if c = CodePoint.ofChar '\r' then "\\r"
  else if c.isPrintable then [c]
  else numericEscape c

/-- A text between quotation marks. -/
def quoted (t : Text) : Text :=
  let mark := quotationMark t
  mark :: t.flatMap (quotedCodePoint mark) ++ [mark]

end AuditTrail.Text
