import AuditTrail.Text.Basic

/-!
# Lines

A line of a text file ends at a line feed, at a carriage return, or at the two
together. `unifyNewlines` writes each of the three as one line feed; after it only
the line feed ends a line.
-/

namespace AuditTrail.Text

/-- The line feed. -/
def lineFeed : CodePoint := CodePoint.ofChar '\n'

/-- The carriage return. -/
def carriageReturn : CodePoint := CodePoint.ofChar '\r'

/-- Every line end written as a line feed. `afterReturn` says that the code point
before was a carriage return, whose line end is written already. -/
def unifyFrom (afterReturn : Bool) : Text -> Text
  | [] => []
  | c :: rest =>
    if c = carriageReturn then lineFeed :: unifyFrom true rest
    else if c = lineFeed ∧ afterReturn then unifyFrom false rest
    else c :: unifyFrom false rest

/-- Every line end written as a line feed. -/
def unifyNewlines (t : Text) : Text := unifyFrom false t

/-- The lines that a line feed ends, without it, and what stands behind the last of them. -/
def endedLines : Text -> List Text × Text
  | [] => ([], [])
  | c :: rest =>
    match endedLines rest with
    | (lines, tail) =>
      if c = lineFeed then ([] :: lines, tail)
      else match lines with
        | [] => ([], c :: tail)
        | line :: more => ((c :: line) :: more, tail)

/-- All lines; an unended last line counts when it is not empty. -/
def lines (t : Text) : List Text :=
  match endedLines t with
  | (ended, tail) => if tail.isEmpty then ended else ended ++ [tail]

/-- `t` without a carriage return at its end, which may still be half of a line end. -/
def withoutFinalReturn (t : Text) : Text :=
  if t.getLast? = some carriageReturn then t.dropLast else t

/-- The position of a place in a text, as a reader counts: the number of the line and of
the column in it, both from one. -/
def lineAndColumn (t : Text) (place : Nat) : Nat × Nat :=
  let before := t.take place
  (before.count lineFeed + 1, (before.reverse.takeWhile (· ≠ lineFeed)).length + 1)

end AuditTrail.Text
