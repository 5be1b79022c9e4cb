import AuditTrail.Layout.Rows
import AuditTrail.Proofs.Layout.Level
import AuditTrail.Proofs.Text.Join
import Mathlib.Algebra.BigOperators.Ring.Finset
import Mathlib.Tactic.Positivity

/-!
# Lines that fit their table

Every line of a row in columns has one length, which the widths of the columns decide alone:
`length_of_mem_gridLines`. The widths themselves never take more than the table has, once there
is room for one code point in each column: `lineWidth_widths_le`. A cell may hold line ends of
its own, and these only cut the lines further.
-/

namespace AuditTrail

namespace Layout

/-! ## The lines of a grid -/

/-- The code points of a line whose columns have these widths. -/
def lineWidth (widths : List Int) : Nat :=
  (widths.map Int.toNat).sum + gap * (widths.length - 1)

/-- Cells whose slices are as wide as their columns. -/
def AreSliced (cells : List (Int × List Text)) : Prop :=
  ∀ cell ∈ cells, ∀ slice ∈ cell.2, slice.length = cell.1.toNat

/-- The slices of a row are as wide as their columns. -/
theorem areSliced_row (widths : List Int) (row : List Text) :
    AreSliced ((widths.zip row).map fun cell => (cell.1, slices cell.1 cell.2)) := by
  intro cell member slice inside
  obtain ⟨pair, -, rfl⟩ := List.mem_map.mp member
  exact length_of_mem_slices inside

/-- What a cell shows on a line: its slice, or blanks where none is left. -/
def sliceAt (line : Nat) (cell : Int × List Text) : Text :=
  cell.2.getD line (Text.spaces cell.1.toNat)

/-- A sliced cell shows as much as its column is wide, on every line. -/
theorem length_sliceAt {cells : List (Int × List Text)} (sliced : AreSliced cells)
    {cell : Int × List Text} (member : cell ∈ cells) (line : Nat) :
    (sliceAt line cell).length = cell.1.toNat := by
  rw [sliceAt, List.getD_eq_getElem?_getD]
  cases left : cell.2[line]? with
  | none => simp
  | some slice => exact sliced cell member slice (List.mem_of_getElem? left)

/-- A grid joins on each of its lines what the cells show there. -/
theorem stack_eq (height : Nat) (cells : List (Int × List Text)) :
    stack height cells =
      (List.range height).map fun line =>
        Text.join (Text.spaces gap) (cells.map (sliceAt line)) := by
  induction height generalizing cells with
  | zero => rfl
  | succ height inductionHypothesis =>
      have first : gridLine cells = Text.join (Text.spaces gap) (cells.map (sliceAt 0)) := by
        refine congrArg _ (List.map_congr_left fun cell _ => ?_)
        cases left : cell.2 <;> simp [sliceAt, left]
      have later (line : Nat) : (cells.map fun cell => (cell.1, cell.2.tail)).map (sliceAt line) =
          cells.map (sliceAt (line + 1)) := by
        simp [sliceAt, Function.comp_def, List.getD_eq_getElem?_getD]
      rw [stack, first, inductionHypothesis, List.range_succ_eq_map, List.map_cons, List.map_map]
      simp only [later]
      rfl

/-- All lines of sliced cells are as long as the widths say. -/
theorem length_of_mem_stack {height : Nat} {cells : List (Int × List Text)}
    (sliced : AreSliced cells) {line : Text} (member : line ∈ stack height cells) :
    line.length = lineWidth (cells.map Prod.fst) := by
  rw [stack_eq] at member
  obtain ⟨number, -, rfl⟩ := List.mem_map.mp member
  have lengths : (cells.map (sliceAt number)).map List.length =
      (cells.map Prod.fst).map Int.toNat := by
    rw [List.map_map, List.map_map]
    exact List.map_congr_left fun cell inside => length_sliceAt sliced inside number
  rw [Text.length_join, lengths, lineWidth, List.length_map, List.length_map, Text.length_spaces]

/-- All lines of a row in columns are as long as the widths say. -/
theorem length_of_mem_gridLines {widths : List Int} {row : List Text}
    (fits : row.length = widths.length) {line : Text} (member : line ∈ gridLines widths row) :
    line.length = lineWidth widths := by
  have found := length_of_mem_stack (areSliced_row widths row) member
  have columns : ((widths.zip row).map fun cell => (cell.1, slices cell.1 cell.2)).map Prod.fst
      = widths := by
    rw [List.map_map]
    exact List.map_fst_zip fits.ge
  rwa [columns] at found

/-- The height of cells is at least the one it starts from and at least that of each cell. -/
theorem le_foldl_height (cells : List (Int × List Text)) (start : Nat) :
    start ≤ cells.foldl (fun height cell => max height cell.2.length) start ∧
      ∀ cell ∈ cells,
        cell.2.length ≤ cells.foldl (fun height cell => max height cell.2.length) start := by
  induction cells generalizing start with
  | nil => simp
  | cons cell rest inductionHypothesis =>
      obtain ⟨start', others⟩ := inductionHypothesis (max start cell.2.length)
      refine ⟨le_trans (le_max_left _ _) start', fun cell' member => ?_⟩
      rcases List.mem_cons.mp member with rfl | later
      · exact le_trans (le_max_right _ _) start'
      · exact others cell' later

/-- A row in columns has at least one line. -/
theorem gridLines_ne_nil (widths : List Int) (row : List Text) : gridLines widths row ≠ [] := by
  unfold gridLines
  generalize (widths.zip row).map _ = cells
  have lines : 1 ≤ height cells := (le_foldl_height cells 1).1
  cases reached : height cells with
  | zero => omega
  | succ height => simp [reached, stack]

/-- No line of a row in columns is longer than the columns allow, however the cells break it. -/
theorem length_le_of_mem_splitOn_row {widths : List Int} {cells : List Text} {text piece : Text}
    (laid : (Layout.grid widths).row cells = .ok text)
    (member : piece ∈ text.splitOn Text.lineFeed) : piece.length ≤ lineWidth widths := by
  simp only [row] at laid
  split at laid
  case isFalse => cases laid
  case isTrue fits =>
    cases laid
    obtain ⟨line, among, inside⟩ :=
      Text.mem_splitOn_join (gridLines_ne_nil widths cells) member
    calc piece.length ≤ line.length := Text.length_le_of_mem_splitOn inside
      _ = lineWidth widths := length_of_mem_gridLines fits among

/-! ## The widths of a table's columns -/

/-- A column with a sound limit is held at one code point or more. -/
theorem one_le_of_heldAt? {level width : Int} {column : Column} (sound : column.HasSoundLimit)
    (held : heldAt? level column = some width) : 1 ≤ width := by
  have found := heldAt?_eq_some_iff.mp held
  have bound := sound width found.1
  omega

/-- When all columns are held, they are held within the room. -/
theorem extraWidth_nonneg {room level : Int} {columns : List Column}
    (isLevel : IsLevel room columns level) (spent : waitingCount level columns = 0) :
    0 ≤ extraWidth room level columns := by
  have fits := isLevel.fits
  rw [sum_fillWidth, spent, Nat.cast_zero, zero_mul, add_zero] at fits
  exact Int.ediv_nonneg (by linarith) (by positivity)

/-- When all columns are held, each has its limit and the same extra width. -/
theorem width_spent {room level : Int} {columns : List Column}
    (sound : ∀ column ∈ columns, column.HasSoundLimit) (isLevel : IsLevel room columns level)
    (spent : waitingCount level columns = 0) {column : Column} (member : column ∈ columns) :
    Slot.width level (column, (heldAt? level column).map (· + extraWidth room level columns)) =
      fillWidth level column + extraWidth room level columns ∧
    1 ≤ fillWidth level column := by
  obtain ⟨limit, held⟩ := exists_heldAt? spent member
  have limitPositive := one_le_of_heldAt? (sound column member) held
  have extra := extraWidth_nonneg isLevel spent
  have filled : limit + extraWidth room level columns ≠ 0 := by omega
  simp [Slot.width, fillWidth, held, filled, limitPositive]

/-- When all columns are held, the columns take their limits and so many times the extra
width. -/
theorem sum_width_spent {room level : Int} {columns : List Column}
    (sound : ∀ column ∈ columns, column.HasSoundLimit) (isLevel : IsLevel room columns level)
    (spent : waitingCount level columns = 0) :
    (columns.map fun column => Slot.width level
        (column, (heldAt? level column).map (· + extraWidth room level columns))).sum =
      heldWidth level columns + columns.length * extraWidth room level columns := by
  rw [List.map_congr_left fun column inside => (width_spent sound isLevel spent inside).1,
    List.sum_map_add, sum_fillWidth, spent]
  simp

/-- Every column has at least one code point. -/
theorem Levelling.one_le {room : Int} {columns : List Column} {widths : List Int}
    (levelling : Levelling room columns widths)
    (sound : ∀ column ∈ columns, column.HasSoundLimit) {width : Int} (member : width ∈ widths) :
    1 ≤ width := by
  cases levelling with
  | @shared level isLevel waiting balanced =>
      obtain ⟨column, inside, rfl⟩ := List.mem_map.mp member
      cases held : heldAt? level column with
      | none => exact le_max_right _ _
      | some limit => exact one_le_of_heldAt? (sound column inside) held
  | spent isLevel spent =>
      obtain ⟨column, inside, rfl⟩ := List.mem_map.mp member
      have shape := width_spent sound isLevel spent inside
      have extra := extraWidth_nonneg isLevel spent
      omega

/-- In every table each column has at least one code point. -/
theorem one_le_of_mem_widths {tableWidth : Int} {columns : List Column}
    (sound : ∀ column ∈ columns, column.HasSoundLimit) {width : Int}
    (member : width ∈ widths tableWidth columns) : 1 ≤ width := by
  have some : columns ≠ [] := by
    rintro rfl
    have filled := List.length_pos_of_mem member
    simp at filled
  exact (widths_levelling tableWidth some).one_le sound member

/-- Where there is room for a code point in each column, the level is one or more. -/
theorem IsLevel.one_le {room level : Int} {columns : List Column}
    (isLevel : IsLevel room columns level) (some : columns ≠ [])
    (enough : columns.length ≤ room) : 1 ≤ level :=
  le_trans ((Int.le_ediv_iff_mul_le (columnCount_pos some)).mpr (by omega)) isLevel.lowest

/-- Where there is room for a code point in each column, the columns stay within the room. -/
theorem Levelling.sum_le {room : Int} {columns : List Column} {widths : List Int}
    (levelling : Levelling room columns widths)
    (sound : ∀ column ∈ columns, column.HasSoundLimit) (some : columns ≠ [])
    (enough : columns.length ≤ room) : widths.sum ≤ room := by
  cases levelling with
  | @shared level isLevel waiting balanced =>
      rw [max_eq_left (isLevel.one_le some enough)]
      exact isLevel.fits
  | @spent level isLevel spent =>
      have cost : columns.length * extraWidth room level columns ≤
          room - heldWidth level columns := Int.mul_ediv_self_le (columnCount_pos some).ne'
      rw [sum_width_spent sound isLevel spent]
      linarith

/-- A line in columns is no longer than its table is wide, once there is room for a code point
in each column. -/
theorem lineWidth_widths_le {tableWidth : Int} {columns : List Column}
    (sound : ∀ column ∈ columns, column.HasSoundLimit) (some : columns ≠ [])
    (enough : 3 * (columns.length : Int) - 2 ≤ tableWidth) :
    (lineWidth (widths tableWidth columns) : Int) ≤ tableWidth := by
  have levelling := widths_levelling tableWidth some
  have positive : 0 < columns.length := List.length_pos_iff.mpr some
  have total := levelling.sum_le sound some (by simp [room, gap]; omega)
  have casts : (((widths tableWidth columns).map Int.toNat).sum : Int) =
      (widths tableWidth columns).sum := by
    rw [Nat.cast_list_sum, List.map_map]
    conv_rhs => rw [← List.map_id (widths tableWidth columns)]
    congr 1
    apply List.map_congr_left
    intro width member
    exact Int.toNat_of_nonneg (le_trans zero_le_one (one_le_of_mem_widths sound member))
  rw [lineWidth, length_widths, Nat.cast_add, casts]
  simp only [room, gap] at total ⊢
  omega

end Layout

end AuditTrail
