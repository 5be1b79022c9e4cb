import AuditTrail.Proofs.Layout.ReadBack
import AuditTrail.Proofs.Table.Row

/-!
# Rows as rectangles

A row in columns is meant to be a rectangle: as many lines as its longest cell needs, each as
long as the columns are wide, with every cell in a column of its own. It is one exactly when no
cell has a line end. Columns show a line end as it is, as if it took its place like any other
code point, so each one cuts a line in two.
-/

namespace AuditTrail

namespace Layout

/-- A text whose line ends cut it into as many lines as `cells` need, each as long as the columns
are wide, such that each cell stands in its own column. -/
structure IsRectangle (widths : List Int) (cells : List Text) (text : Text) : Prop where
  lineCount_eq : (text.splitOn Text.lineFeed).length = lineCount widths cells
  length_of_mem : ∀ line ∈ text.splitOn Text.lineFeed, line.length = lineWidth widths
  reads : ∀ column cell, cells[column]? = some cell ->
    ∃ count, ((text.splitOn Text.lineFeed).flatMap fun line =>
        (line.drop (columnStart widths column)).take (widths.getD column 0).toNat) =
      cell ++ Text.spaces count

/-! ## Line ends in a grid -/

/-- Blanks have no line end. -/
theorem count_spaces (count : Nat) : (Text.spaces count).count Text.lineFeed = 0 :=
  List.count_eq_zero.mpr fun member =>
    absurd (List.eq_of_mem_replicate member) (by decide)

/-- Cells one above the other have as many line ends as the slices that they show. -/
theorem count_stack (height : Nat) (cells : List (Int × List Text)) :
    ((stack height cells).map (List.count Text.lineFeed)).sum =
      (cells.map fun cell => (cell.2.take height).flatten.count Text.lineFeed).sum := by
  induction height generalizing cells with
  | zero => simp [stack]
  | succ height inductionHypothesis =>
      have cut (cell : Int × List Text) :
          (cell.2.headD (Text.spaces cell.1.toNat)).count Text.lineFeed +
              (cell.2.tail.take height).flatten.count Text.lineFeed =
            (cell.2.take (height + 1)).flatten.count Text.lineFeed := by
        cases cell.2 with
        | nil => simp [count_spaces]
        | cons slice others => simp
      rw [stack, List.map_cons, List.sum_cons, inductionHypothesis, gridLine, Text.count_join,
        count_spaces, Nat.zero_mul, Nat.add_zero, List.map_map, List.map_map, ← List.sum_map_add]
      exact congrArg List.sum (List.map_congr_left fun cell _ => cut cell)

section

variable {widths : List Int} {cells : List Text}

/-- A row in columns has the line ends of its cells on its lines. -/
theorem count_gridLines (positive : ∀ width ∈ widths, 1 ≤ width)
    (full : cells.length = widths.length) :
    ((gridLines widths cells).map (List.count Text.lineFeed)).sum =
      (cells.map (List.count Text.lineFeed)).sum := by
  have whole : ∀ pair ∈ widths.zip cells,
      ((slices pair.1 pair.2).take (lineCount widths cells)).flatten.count Text.lineFeed =
        pair.2.count Text.lineFeed := by
    rintro ⟨width, cell⟩ member
    obtain ⟨count, shown⟩ := flatten_slices (positive width (List.of_mem_zip member).1) cell
    rw [List.take_of_length_le (length_slices_le positive member), shown, List.count_append,
      count_spaces, Nat.add_zero]
  calc ((gridLines widths cells).map (List.count Text.lineFeed)).sum
      = ((widths.zip cells).map fun pair => pair.2.count Text.lineFeed).sum := by
        rw [gridLines, height_row positive, count_stack, List.map_map]
        exact congrArg List.sum (List.map_congr_left whole)
    _ = (((widths.zip cells).map Prod.snd).map (List.count Text.lineFeed)).sum := by
        rw [List.map_map]
        rfl
    _ = (cells.map (List.count Text.lineFeed)).sum := by rw [List.map_snd_zip full.le]

/-- The line ends of a row in columns cut it into the lines that its cells need, and into one
more for each line end in a cell. -/
theorem length_splitOn_row (positive : ∀ width ∈ widths, 1 ≤ width)
    (full : cells.length = widths.length) :
    ((Text.join "\n" (gridLines widths cells)).splitOn Text.lineFeed).length =
      lineCount widths cells + (cells.map (List.count Text.lineFeed)).sum := by
  have lines : (gridLines widths cells).length = lineCount widths cells := by
    simp [gridLines_eq positive]
  have some : 0 < (gridLines widths cells).length :=
    List.length_pos_iff.mpr (gridLines_ne_nil widths cells)
  have lineEnd : List.count Text.lineFeed ("\n" : Text) = 1 := by decide
  rw [Text.length_splitOn, Text.count_join, count_gridLines positive full, lineEnd]
  omega

/-- Where no cell has a line end, the lines are those of the columns. -/
theorem splitOn_row (positive : ∀ width ∈ widths, 1 ≤ width)
    (full : cells.length = widths.length) (unbroken : ∀ cell ∈ cells, Text.lineFeed ∉ cell) :
    (Text.join "\n" (gridLines widths cells)).splitOn Text.lineFeed = gridLines widths cells := by
  have none : ((gridLines widths cells).map (List.count Text.lineFeed)).sum = 0 := by
    rw [count_gridLines positive full, List.sum_eq_zero_iff, List.forall_mem_map]
    exact fun cell member => List.count_eq_zero.mpr (unbroken cell member)
  rw [List.sum_eq_zero_iff, List.forall_mem_map] at none
  exact List.splitOn_intercalate Text.lineFeed
    (fun line member => List.count_eq_zero.mp (none line member)) (gridLines_ne_nil widths cells)

/-- A row of as many cells as there are columns is laid out. -/
theorem row_grid (full : cells.length = widths.length) :
    (Layout.grid widths).row cells = .ok (Text.join "\n" (gridLines widths cells)) :=
  if_pos full

/-- A row in columns is a rectangle exactly when no cell has a line end. -/
theorem isRectangle_iff (positive : ∀ width ∈ widths, 1 ≤ width)
    (full : cells.length = widths.length) :
    IsRectangle widths cells (Text.join "\n" (gridLines widths cells)) ↔
      ∀ cell ∈ cells, Text.lineFeed ∉ cell := by
  constructor
  · intro rectangle cell member
    have lines := rectangle.lineCount_eq
    rw [length_splitOn_row positive full, Nat.add_eq_left, List.sum_eq_zero_iff,
      List.forall_mem_map] at lines
    exact List.count_eq_zero.mp (lines cell member)
  · intro unbroken
    have lines := splitOn_row positive full unbroken
    refine ⟨?_, ?_, ?_⟩
    · rw [lines, gridLines_eq positive, List.length_map, List.length_range]
    · rw [lines]
      exact fun line member => length_of_mem_gridLines full member
    · rw [lines]
      exact fun column cell stands => readColumn_join positive full stands

end

/-! ## Rows of events -/

/-- In a table of any width the row of an event is a rectangle exactly when no cell has a line
end, and each line end in a cell adds one line. -/
theorem row_isRectangle_iff (tableWidth : Int) {table : Table}
    (sound : ∀ column ∈ table.columns, column.HasSoundLimit) {event : Event} {cells : List Text}
    (mapped : table.row event = .ok cells) :
    let columnWidths := widths tableWidth table.columns
    ∃ text, (Layout.grid columnWidths).row cells = .ok text ∧
      (IsRectangle columnWidths cells text ↔ ∀ cell ∈ cells, Text.lineFeed ∉ cell) ∧
      (text.splitOn Text.lineFeed).length =
        lineCount columnWidths cells + (cells.map (List.count Text.lineFeed)).sum := by
  intro columnWidths
  have positive : ∀ width ∈ columnWidths, 1 ≤ width := fun _ => one_le_of_mem_widths sound
  have full : cells.length = columnWidths.length := by
    rw [Table.length_row mapped, length_widths]
  exact ⟨_, row_grid full, isRectangle_iff positive full, length_splitOn_row positive full⟩

/-- The members of a record of a read by a user of some name. -/
def readRecord (username : Text) : Register Json :=
  [("action", .text "secret.read"), ("ip_address", .text "10.0.0.1"),
    ("logged_at", .text "2026-01-21T21:52:57+00:00"),
    ("actor", .object [("type", .text "user"), ("username", .text username)])]

/-- A name without a line end leaves its row a rectangle. -/
theorem row_isRectangle_alice :
    let table := Table.ofTree? none (.clock .utc)
    ∃ cells text, table.row (Event.ofMembers (readRecord "alice")) = .ok cells ∧
      (Layout.grid (widths 200 table.columns)).row cells = .ok text ∧
      IsRectangle (widths 200 table.columns) cells text := by
  intro table
  have mapped : table.row (Event.ofMembers (readRecord "alice")) =
      .ok ["alice", "secret.read", "10.0.0.1", "2026-01-21T21:52:57+00:00"] := rfl
  obtain ⟨text, laid, rectangle, -⟩ :=
    row_isRectangle_iff 200 (Table.hasSoundLimit_ofTree? none (.clock .utc)) mapped
  exact ⟨_, text, mapped, laid, rectangle.mpr (by decide)⟩

/-- A name with a line end begins a line of its own. -/
theorem row_broken_byName :
    let table := Table.ofTree? none (.clock .utc)
    ∃ cells text, table.row (Event.ofMembers (readRecord "a\nb")) = .ok cells ∧
      (Layout.grid (widths 200 table.columns)).row cells = .ok text ∧
      ¬IsRectangle (widths 200 table.columns) cells text ∧
      lineCount (widths 200 table.columns) cells = 1 ∧
      (text.splitOn Text.lineFeed).length = 2 ∧ ("a" : Text) ∈ text.splitOn Text.lineFeed := by
  intro table
  have mapped : table.row (Event.ofMembers (readRecord "a\nb")) =
      .ok ["a\nb", "secret.read", "10.0.0.1", "2026-01-21T21:52:57+00:00"] := rfl
  have wide : widths 200 table.columns = [50, 40, 63, 40] := by decide +kernel
  have broken : ¬∀ cell ∈ (["a\nb", "secret.read", "10.0.0.1", "2026-01-21T21:52:57+00:00"] :
      List Text), Text.lineFeed ∉ cell := by decide
  rw [wide]
  exact ⟨_, _, mapped, row_grid rfl, fun rectangle =>
    broken ((isRectangle_iff (by decide) rfl).mp rectangle), by decide +kernel,
    by decide +kernel, by decide +kernel⟩

end Layout

end AuditTrail
