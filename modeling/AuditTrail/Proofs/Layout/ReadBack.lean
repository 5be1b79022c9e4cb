import AuditTrail.Proofs.Layout.Content
import AuditTrail.Proofs.Table.Row
import Mathlib.Data.List.DropRight

/-!
# Cells read back from a row

A row in columns is a block of lines, all of one length, on which each column has a place of its
own. What is read at this place on line after line is the cell of the column with blanks behind
it, whatever the other cells hold. Line ends inside a cell do not matter, since the lines are told
by their length. So a row loses nothing of its cells but the blanks at their ends.

`row_isBlock` says so of all columns and cells, in terms of the text alone: `blockLines` cuts it
into its lines, and `readColumn` reads a column.
-/

namespace AuditTrail

/-- A text without the blanks at its end. -/
def Text.unfilled (text : Text) : Text := text.rdropWhile (· == Text.blank)

/-- Blanks that are added at the end are taken off again. -/
theorem Text.unfilled_append_spaces (text : Text) (count : Nat) :
    (text ++ Text.spaces count).unfilled = text.unfilled := by
  induction count with
  | zero => simp [Text.spaces]
  | succ count inductionHypothesis =>
      rw [Text.spaces, List.replicate_succ', ← List.append_assoc, Text.unfilled,
        List.rdropWhile_concat_pos _ _ _ (by simp [Text.blank])]
      exact inductionHypothesis

namespace Layout

/-! ## Reading a block -/

/-- The lines that a cell needs in a column. -/
def linesNeeded (width : Nat) (cell : Text) : Nat := (cell.length + (width - 1)) / width

/-- The lines of a row: those that its longest cell needs, at least one. -/
def lineCount (widths : List Int) (cells : List Text) : Nat :=
  (List.zipWith (fun width cell => linesNeeded width.toNat cell) widths cells).foldl max 1

/-- Where a column begins on a line. -/
def columnStart (widths : List Int) (column : Nat) : Nat :=
  ((widths.take column).map Int.toNat).sum + gap * column

/-- The lines of a block whose lines have a length, the code points between them left out. -/
def blockLines (width : Nat) (block : Text) : List Text :=
  (List.range ((block.length + 1) / (width + 1))).map fun line =>
    (block.drop (line * (width + 1))).take width

/-- What stands in a column on the lines of a block, one line after the other. -/
def readColumn (widths : List Int) (column : Nat) (block : Text) : Text :=
  (blockLines (lineWidth widths) block).flatMap fun line =>
    (line.drop (columnStart widths column)).take (widths.getD column 0).toNat

/-- A text that shows cells in columns. -/
structure IsBlock (widths : List Int) (cells : List Text) (text : Text) : Prop where
  length_eq : text.length = lineCount widths cells * (lineWidth widths + 1) - 1
  lineCount_eq : (blockLines (lineWidth widths) text).length = lineCount widths cells
  length_of_mem : ∀ line ∈ blockLines (lineWidth widths) text, line.length = lineWidth widths
  join_eq : Text.join "\n" (blockLines (lineWidth widths) text) = text
  gaps : ∀ line ∈ blockLines (lineWidth widths) text,
    ∀ column (_later : column + 1 < widths.length),
      (line.drop (columnStart widths column + widths[column].toNat)).take gap = Text.spaces gap
  reads : ∀ column cell, cells[column]? = some cell ->
    ∃ count, readColumn widths column text = cell ++ Text.spaces count

/-! ## The slices of a cell -/

/-- A cell is cut into the pieces that it needs. -/
theorem length_pieces {width : Nat} (positive : 0 < width) (cell : Text) :
    (pieces width cell).length = linesNeeded width cell := by
  unfold linesNeeded
  fun_induction pieces width cell with
  | case1 cell cuts inductionHypothesis =>
      have filled : 0 < cell.length := List.length_pos_iff.mpr cuts.2
      rw [List.length_cons, inductionHypothesis, List.length_drop]
      by_cases long : width ≤ cell.length
      · rw [← Nat.add_div_right _ positive]
        congr 1
        omega
      · rw [Nat.div_eq_of_lt (by omega)]
        exact (Nat.div_eq_of_lt_le (by omega) (by omega)).symm
  | case2 cell uncut =>
      have empty : cell = [] := not_not.mp fun filled => uncut ⟨positive, filled⟩
      simp [empty, Nat.div_eq_of_lt (Nat.sub_one_lt_of_lt positive)]

/-- The slices of a cell hold the cell with blanks behind it. -/
theorem flatten_slices {width : Int} (positive : 1 ≤ width) (cell : Text) :
    ∃ count, (slices width cell).flatten = cell ++ Text.spaces count := by
  unfold slices
  fun_induction pieces width.toNat cell with
  | case1 cell cuts inductionHypothesis =>
      by_cases long : width.toNat ≤ cell.length
      · obtain ⟨count, rest⟩ := inductionHypothesis
        have full : Text.fill width.toNat (cell.take width.toNat) = cell.take width.toNat := by
          simp [Text.fill, Text.spaces, long]
        exact ⟨count, by
          rw [List.map_cons, List.flatten_cons, rest, full, ← List.append_assoc,
            List.take_append_drop]⟩
      · have short : cell.length ≤ width.toNat := by omega
        exact ⟨width.toNat - cell.length, by
          simp [List.take_of_length_le short, List.drop_of_length_le short, pieces, Text.fill]⟩
  | case2 cell uncut =>
      have empty : cell = [] := not_not.mp fun filled => uncut ⟨by omega, filled⟩
      exact ⟨0, by simp [empty, Text.spaces]⟩

/-! ## Lines of one length -/

/-- Lines of one length are together so many times as long. -/
theorem sum_lengths {width : Nat} {lines : List Text} (even : ∀ line ∈ lines, line.length = width) :
    (lines.map List.length).sum = lines.length * width := by
  rw [List.map_congr_left even, List.map_const', List.sum_replicate_nat]

/-- How long joined lines of one length are. -/
theorem length_join_lines {width : Nat} {lines : List Text} (some : lines ≠ [])
    (even : ∀ line ∈ lines, line.length = width) :
    (Text.join "\n" lines).length + 1 = lines.length * (width + 1) := by
  have positive := List.length_pos_iff.mpr some
  rw [Text.length_join, sum_lengths even, Text.length_lineEnd, Nat.mul_add]
  omega

/-- Joined lines of one length are the lines of the block that they form. -/
theorem blockLines_join {width : Nat} {lines : List Text} (some : lines ≠ [])
    (even : ∀ line ∈ lines, line.length = width) :
    blockLines width (Text.join "\n" lines) = lines := by
  have count : ((Text.join "\n" lines).length + 1) / (width + 1) = lines.length := by
    rw [length_join_lines some even, Nat.mul_div_cancel _ (Nat.succ_pos width)]
  apply List.ext_getElem
  · simp [blockLines, count]
  · intro number here within
    have before : ((lines.take number).map List.length).sum = number * width := by
      rw [sum_lengths fun line member => even line (List.mem_of_mem_take member),
        List.length_take_of_le within.le]
    have start : Text.partStart "\n" lines number = number * (width + 1) := by
      rw [Text.partStart, before, Text.length_lineEnd, one_mul, Nat.mul_add, mul_one]
    simp only [blockLines, List.getElem_map, List.getElem_range]
    rw [← start]
    simpa only [even _ (List.getElem_mem within)] using Text.take_partStart_join within

/-! ## Rows -/

/-- What the cells of a row show on one line. -/
def lineParts (widths : List Int) (cells : List Text) (line : Nat) : List Text :=
  (widths.zip cells).map fun cell => sliceAt line (cell.1, slices cell.1 cell.2)

/-- On every line each column is as wide as it should be. -/
theorem lengths_lineParts {widths : List Int} {cells : List Text}
    (full : cells.length = widths.length) (line : Nat) :
    (lineParts widths cells line).map List.length = widths.map Int.toNat := by
  have sliced := areSliced_row widths cells
  calc (lineParts widths cells line).map List.length
      = (widths.zip cells).map (Int.toNat ∘ Prod.fst) := by
        rw [lineParts, List.map_map]
        exact List.map_congr_left fun cell member =>
          length_sliceAt sliced (List.mem_map_of_mem member) line
    _ = widths.map Int.toNat := by rw [← List.map_map, List.map_fst_zip full.ge]

/-- On every line each column begins at its place. -/
theorem partStart_lineParts {widths : List Int} {cells : List Text}
    (full : cells.length = widths.length) (line column : Nat) :
    Text.partStart (Text.spaces gap) (lineParts widths cells line) column =
      columnStart widths column := by
  rw [Text.partStart, List.map_take, lengths_lineParts full, Text.length_spaces, columnStart,
    List.map_take]

/-- A row has as many lines as its longest cell needs. -/
theorem height_row {widths : List Int} (positive : ∀ width ∈ widths, 1 ≤ width)
    (cells : List Text) :
    height ((widths.zip cells).map fun cell => (cell.1, slices cell.1 cell.2)) =
      lineCount widths cells := by
  have counts : (widths.zip cells).map (fun cell => (slices cell.1 cell.2).length) =
      List.zipWith (fun width cell => linesNeeded width.toNat cell) widths cells := by
    rw [← List.map_uncurry_zip_eq_zipWith]
    refine List.map_congr_left fun cell member => ?_
    have wide := positive cell.1 (List.of_mem_zip member).1
    rw [slices, List.length_map, length_pieces (by omega)]
    rfl
  rw [height, List.foldl_map, lineCount, ← counts, List.foldl_map]

/-- The lines of a row join what its cells show on them. -/
theorem gridLines_eq {widths : List Int} (positive : ∀ width ∈ widths, 1 ≤ width)
    (cells : List Text) :
    gridLines widths cells = (List.range (lineCount widths cells)).map fun line =>
      Text.join (Text.spaces gap) (lineParts widths cells line) := by
  rw [gridLines, stack_eq, height_row positive]
  simp only [List.map_map]
  rfl

/-- Line after line, a cell shows its slices and then blanks. -/
theorem flatMap_sliceAt (cell : Int × List Text) {height : Nat}
    (enough : cell.2.length ≤ height) :
    ∃ count, (List.range height).flatMap (fun line => sliceAt line cell) =
      cell.2.flatten ++ Text.spaces count := by
  have shown : (List.range height).map (fun line => sliceAt line cell) =
      cell.2 ++ List.replicate (height - cell.2.length) (Text.spaces cell.1.toNat) := by
    apply List.ext_getElem
    · simp
      omega
    · intro line here within
      by_cases left : line < cell.2.length
      · simp [sliceAt, left]
      · simp [sliceAt, left, List.getElem_append_right (Nat.le_of_not_lt left)]
  refine ⟨(height - cell.2.length) * cell.1.toNat, ?_⟩
  rw [List.flatMap_def, shown, List.flatten_append]
  simp [Text.spaces]

/-- On every line a column is as wide as it should be. -/
theorem length_getElem_lineParts {widths : List Int} {cells : List Text}
    (full : cells.length = widths.length) {line column : Nat} (inside : column < widths.length)
    (within : column < (lineParts widths cells line).length) :
    (lineParts widths cells line)[column].length = widths[column].toNat := by
  have same := congrArg (fun lengths => lengths[column]?) (lengths_lineParts full line)
  simpa [within, inside] using same

/-- In its column a line shows what the cell shows there. -/
theorem take_columnStart {widths : List Int} {cells : List Text}
    (full : cells.length = widths.length) {column : Nat} (inside : column < widths.length)
    (line : Nat) :
    ((Text.join (Text.spaces gap) (lineParts widths cells line)).drop
        (columnStart widths column)).take (widths.getD column 0).toNat =
      sliceAt line (widths[column], slices widths[column] cells[column]) := by
  have within : column < (lineParts widths cells line).length := by simp [lineParts, full, inside]
  have width : widths.getD column 0 = widths[column] := by
    simp [List.getD_eq_getElem?_getD, inside]
  rw [← partStart_lineParts full line, width, ← length_getElem_lineParts full inside within,
    Text.take_partStart_join within]
  simp [lineParts]

/-- Between neighbouring columns a line shows blanks. -/
theorem take_behind_column {widths : List Int} {cells : List Text}
    (full : cells.length = widths.length) {column : Nat} (later : column + 1 < widths.length)
    (line : Nat) :
    ((Text.join (Text.spaces gap) (lineParts widths cells line)).drop
        (columnStart widths column + widths[column].toNat)).take gap = Text.spaces gap := by
  have within : column + 1 < (lineParts widths cells line).length := by
    simp [lineParts, full, later]
  have behind := @Text.take_behind_part_join (Text.spaces gap) _ _ within
  rwa [partStart_lineParts full line,
    length_getElem_lineParts full (Nat.lt_of_succ_lt later) (Nat.lt_of_succ_lt within),
    Text.length_spaces] at behind

/-- No cell has more slices than the row has lines. -/
theorem length_slices_le {widths : List Int} (positive : ∀ width ∈ widths, 1 ≤ width)
    {cells : List Text} {width : Int} {cell : Text} (member : (width, cell) ∈ widths.zip cells) :
    (slices width cell).length ≤ lineCount widths cells := by
  rw [← height_row positive]
  exact (le_foldl_height _ 1).2 (width, slices width cell) (List.mem_map_of_mem member)

/-- Read in its column line after line, a cell has blanks behind it. -/
theorem readColumn_join {widths : List Int} (positive : ∀ width ∈ widths, 1 ≤ width)
    {cells : List Text} (full : cells.length = widths.length) {column : Nat} {cell : Text}
    (stands : cells[column]? = some cell) :
    ∃ count, ((gridLines widths cells).flatMap fun line =>
        (line.drop (columnStart widths column)).take (widths.getD column 0).toNat) =
      cell ++ Text.spaces count := by
  obtain ⟨within, rfl⟩ := List.getElem?_eq_some_iff.mp stands
  have inside : column < widths.length := full ▸ within
  have member : (widths[column], cells[column]) ∈ widths.zip cells :=
    List.mem_of_getElem? (List.getElem?_zip_eq_some.mpr
      ⟨List.getElem?_eq_getElem inside, List.getElem?_eq_getElem within⟩)
  obtain ⟨blanks, shown⟩ :=
    flatMap_sliceAt (widths[column], slices _ _) (length_slices_le positive member)
  obtain ⟨filled, whole⟩ := flatten_slices (positive _ (List.getElem_mem inside)) cells[column]
  refine ⟨filled + blanks, ?_⟩
  rw [gridLines_eq positive, List.flatMap_map]
  simp only [take_columnStart full inside]
  rw [shown, whole, List.append_assoc]
  simp [Text.spaces]

/-- Cells in columns of one code point or more are laid out as a block. -/
theorem isBlock_gridLines {widths : List Int} (positive : ∀ width ∈ widths, 1 ≤ width)
    {cells : List Text} (full : cells.length = widths.length) :
    IsBlock widths cells (Text.join "\n" (gridLines widths cells)) := by
  have even : ∀ line ∈ gridLines widths cells, line.length = lineWidth widths :=
    fun line member => length_of_mem_gridLines full member
  have some := gridLines_ne_nil widths cells
  have lines := blockLines_join some even
  have count : (gridLines widths cells).length = lineCount widths cells := by
    simp [gridLines_eq positive]
  refine ⟨?_, ?_, ?_, ?_, ?_, ?_⟩
  · have total := length_join_lines some even
    rw [count] at total
    omega
  · rw [lines, count]
  · rwa [lines]
  · rw [lines]
  · rw [lines, gridLines_eq positive]
    intro line member column later
    obtain ⟨number, -, rfl⟩ := List.mem_map.mp member
    exact take_behind_column full later number
  · intro column cell stands
    rw [readColumn, lines]
    exact readColumn_join positive full stands

/-- A block tells its cells up to blanks at their ends. -/
theorem IsBlock.unfilled_eq {widths : List Int} {cells others : List Text} {text : Text}
    (block : IsBlock widths cells text) (otherBlock : IsBlock widths others text)
    (full : cells.length = others.length) :
    cells.map Text.unfilled = others.map Text.unfilled := by
  apply List.ext_getElem
  · simpa using full
  · intro column here there
    rw [List.length_map] at here there
    obtain ⟨count, read⟩ := block.reads column _ (List.getElem?_eq_getElem here)
    obtain ⟨otherCount, otherRead⟩ := otherBlock.reads column _ (List.getElem?_eq_getElem there)
    calc (cells.map Text.unfilled)[column]
        = (readColumn widths column text).unfilled := by
          rw [read, Text.unfilled_append_spaces, List.getElem_map]
      _ = (others.map Text.unfilled)[column] := by
          rw [otherRead, Text.unfilled_append_spaces, List.getElem_map]

/-- A row that is laid out in columns of one code point or more is a block of its cells. -/
theorem isBlock_of_row {widths : List Int} (positive : ∀ width ∈ widths, 1 ≤ width)
    {cells : List Text} {text : Text} (laid : (Layout.grid widths).row cells = .ok text) :
    cells.length = widths.length ∧ IsBlock widths cells text := by
  simp only [row] at laid
  split at laid
  case isFalse => cases laid
  case isTrue full =>
    cases laid
    exact ⟨full, isBlock_gridLines positive full⟩

/-- A row in columns is a block that shows all its cells, and rows with one text have the same
cells up to blanks at their ends. -/
theorem row_isBlock (tableWidth : Int) {columns : List Column}
    (sound : ∀ column ∈ columns, column.HasSoundLimit) :
    (∀ cells : List Text, cells.length = columns.length ->
      ∃ text, (Layout.grid (widths tableWidth columns)).row cells = .ok text ∧
        IsBlock (widths tableWidth columns) cells text) ∧
    ∀ (cells others : List Text) (text : Text),
      (Layout.grid (widths tableWidth columns)).row cells = .ok text ->
      (Layout.grid (widths tableWidth columns)).row others = .ok text ->
        cells.map Text.unfilled = others.map Text.unfilled := by
  have positive : ∀ width ∈ widths tableWidth columns, 1 ≤ width :=
    fun width member => one_le_of_mem_widths sound member
  constructor
  · intro cells full
    obtain ⟨text, laid⟩ : ∃ text,
        (Layout.grid (widths tableWidth columns)).row cells = .ok text := by
      simp [row, full]
    exact ⟨text, laid, (isBlock_of_row positive laid).2⟩
  · intro cells others text laid otherLaid
    obtain ⟨full, block⟩ := isBlock_of_row positive laid
    obtain ⟨otherFull, otherBlock⟩ := isBlock_of_row positive otherLaid
    exact block.unfilled_eq otherBlock (full.trans otherFull.symm)

/-- The row of an event in a narrow table, with an empty cell, a cell of exactly one line and
cells of two and three lines. -/
theorem row_isBlock_threeLines :
    widths 18 (Table.ofTree? none (.clock .utc)).columns = [3, 3, 3, 3] ∧
      IsBlock [3, 3, 3, 3] ["alice", "", "10.0.0.1", "now"]
        "ali       10.  now\nce        0.0     \n          .1      " := by
  have narrow : widths 18 (Table.ofTree? none (.clock .utc)).columns = [3, 3, 3, 3] := by
    decide +kernel
  obtain ⟨text, laid, block⟩ :=
    (row_isBlock 18 (Table.hasSoundLimit_ofTree? none (.clock .utc))).1
      ["alice", "", "10.0.0.1", "now"] rfl
  have shown : (Layout.grid [3, 3, 3, 3]).row ["alice", "", "10.0.0.1", "now"] =
      .ok "ali       10.  now\nce        0.0     \n          .1      " := by
    decide +kernel
  rw [narrow] at laid block
  cases shown.symm.trans laid
  exact ⟨narrow, block⟩

end Layout

end AuditTrail
