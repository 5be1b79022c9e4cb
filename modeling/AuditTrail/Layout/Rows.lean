import AuditTrail.Json.Writer
import AuditTrail.Layout.Widths
import AuditTrail.Layout.Wrap

/-!
# Rows as text

A row is laid out either in columns, on as many lines as its longest wrapped cell needs, or
as a JSON record that files each cell under its column's name, the names in order.
-/

namespace AuditTrail

/-- How rows are laid out. -/
inductive Layout where
  /-- In columns of these widths. -/
  | grid (widths : List Int)
  /-- As records with these names. -/
  | records (names : List Text)
deriving DecidableEq, Repr

namespace Layout

/-- A row has not one cell for each column. -/
inductive CellMismatch where
  | grid (cells columns : Nat)
  | record
deriving DecidableEq, Repr

/-- What is said of a row with the wrong number of cells. -/
def CellMismatch.message : CellMismatch -> Text
  | .grid cells columns =>
    "row has " ++ Text.ofNat cells ++ " cells but the table has " ++ Text.ofNat columns
      ++ " columns"
  | .record => "unexpected number of json fields"

/-- One line of a row: the first slice of each cell, blanks where none is left. -/
def gridLine (cells : List (Int × List Text)) : Text :=
  Text.join (Text.spaces gap)
    (cells.map fun cell => cell.2.headD (Text.spaces cell.1.toNat))

/-- The lines of a row whose cells are slices of these widths. -/
def stack : (height : Nat) -> List (Int × List Text) -> List Text
  | 0, _ => []
  | height + 1, cells =>
    gridLine cells :: stack height (cells.map fun cell => (cell.1, cell.2.tail))

/-- The lines that cells need, at least one. -/
def height (cells : List (Int × List Text)) : Nat :=
  cells.foldl (fun height cell => max height cell.2.length) 1

/-- The lines of a row in columns. -/
def gridLines (widths : List Int) (row : List Text) : List Text :=
  let cells := (widths.zip row).map fun cell => (cell.1, slices cell.1 cell.2)
  stack (height cells) cells

/-- The members of a row's record in the order of their names. -/
def recordMembers (names row : List Text) : Register Text :=
  (Register.ofPairs (names.zip row)).mergeSort fun left right => Text.precedes left.1 right.1

/-- The text of a row, without the end of its last line. -/
def row (layout : Layout) (row : List Text) : Except CellMismatch Text :=
  match layout with
  | .grid widths =>
    if row.length = widths.length then .ok (Text.join "\n" (gridLines widths row))
    else .error (.grid row.length widths.length)
  | .records names =>
    if row.length = names.length then
      .ok (Json.write (.object ((recordMembers names row).map fun m => (m.1, .text m.2))))
    else .error .record

/-- Whether the names of the columns are shown above the rows. -/
def showsHeader : Layout -> Bool
  | .grid _ => true
  | .records _ => false

end Layout

end AuditTrail
