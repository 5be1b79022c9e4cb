import AuditTrail.Proofs.Layout.Fit
import AuditTrail.Proofs.Text.Writable

/-!
# What a row in columns shows

Columns of one code point or more show every code point of their cells, and what they show
besides is blanks and line ends. So a row in columns can be written exactly when each of its
cells can.
-/

namespace AuditTrail

namespace Text

/-- A blank, which fills cells up and keeps them apart. -/
def blank : CodePoint := CodePoint.ofChar ' '

/-- Filling up adds blanks. -/
theorem mem_fill {c : CodePoint} {width : Nat} {text : Text} (other : c ≠ blank) :
    c ∈ fill width text ↔ c ∈ text := by
  simp [fill, spaces, show c ≠ CodePoint.ofChar ' ' from other]

end Text

namespace Layout

/-- The slices of a cell hold what the cell holds, if they have any width. -/
theorem mem_slices {c : CodePoint} {width : Int} (positive : 1 ≤ width) {cell : Text}
    (other : c ≠ Text.blank) : (∃ slice ∈ slices width cell, c ∈ slice) ↔ c ∈ cell := by
  have enough : 0 < width.toNat := by omega
  have whole := flatten_pieces enough cell
  constructor
  · rintro ⟨slice, member, inside⟩
    obtain ⟨piece, among, rfl⟩ := List.mem_map.mp member
    rw [← whole]
    exact List.mem_flatten.mpr ⟨piece, among, (Text.mem_fill other).mp inside⟩
  · intro inside
    rw [← whole] at inside
    obtain ⟨piece, among, inside⟩ := List.mem_flatten.mp inside
    exact ⟨_, List.mem_map_of_mem among, (Text.mem_fill other).mpr inside⟩

/-- A line of cells holds what their first slices hold. -/
theorem mem_gridLine {c : CodePoint} {cells : List (Int × List Text)} (other : c ≠ Text.blank) :
    c ∈ gridLine cells ↔ ∃ cell ∈ cells, ∃ slice ∈ cell.2.head?, c ∈ slice := by
  have apart : ∀ count, c ∉ Text.spaces count := by
    intro count member
    exact other (List.eq_of_mem_replicate member)
  rw [gridLine, Text.mem_join (apart gap)]
  constructor
  · rintro ⟨part, member, inside⟩
    obtain ⟨cell, among, rfl⟩ := List.mem_map.mp member
    refine ⟨cell, among, ?_⟩
    cases shape : cell.2 with
    | nil =>
        rw [shape, List.headD_nil] at inside
        exact absurd inside (apart _)
    | cons slice others => exact ⟨slice, rfl, by simpa [shape] using inside⟩
  · rintro ⟨cell, among, slice, first, inside⟩
    refine ⟨_, List.mem_map_of_mem among, ?_⟩
    cases shape : cell.2 with
    | nil => simp [shape] at first
    | cons head others =>
        have same : head = slice := by simpa [shape] using first
        simpa [shape, same] using inside

/-- The slices at the front are the first one and those at the front behind it. -/
theorem mem_take_succ {slice : Text} {height : Nat} {slices : List Text} :
    slice ∈ slices.take (height + 1) ↔ slice ∈ slices.head? ∨ slice ∈ slices.tail.take height := by
  cases slices <;> simp [eq_comm]

/-- So many lines of cells hold what so many slices of each hold. -/
theorem mem_stack {c : CodePoint} {height : Nat} {cells : List (Int × List Text)}
    (other : c ≠ Text.blank) :
    (∃ line ∈ stack height cells, c ∈ line) ↔
      ∃ cell ∈ cells, ∃ slice ∈ cell.2.take height, c ∈ slice := by
  induction height generalizing cells with
  | zero => simp [stack]
  | succ height inductionHypothesis =>
      simp only [stack, List.mem_cons, or_and_right, exists_or, exists_eq_left,
        mem_gridLine other, inductionHypothesis, List.mem_map, exists_exists_and_eq_and,
        mem_take_succ, and_or_left]

/-- A row in columns holds what its cells hold, besides blanks and line ends. -/
theorem mem_row_grid {c : CodePoint} {widths : List Int} {cells : List Text} {text : Text}
    (laid : (Layout.grid widths).row cells = .ok text) (positive : ∀ width ∈ widths, 1 ≤ width)
    (other : c ≠ Text.blank) (inLine : c ≠ Text.lineFeed) : c ∈ text ↔ ∃ cell ∈ cells, c ∈ cell := by
  simp only [row] at laid
  split at laid
  case isFalse => cases laid
  case isTrue fits =>
    cases laid
    have apart : c ∉ ("\n" : Text) := fun member => inLine (List.mem_singleton.mp member)
    have all : ∀ pair ∈ widths.zip cells,
        (∃ slice ∈ slices pair.1 pair.2, c ∈ slice) ↔ c ∈ pair.2 := fun pair member =>
      mem_slices (positive pair.1 (List.of_mem_zip member).1) other
    rw [Text.mem_join apart, gridLines, mem_stack other]
    constructor
    · rintro ⟨sliced, member, slice, front, inside⟩
      obtain ⟨pair, among, rfl⟩ := List.mem_map.mp member
      exact ⟨pair.2, (List.of_mem_zip among).2,
        (all pair among).mp ⟨slice, List.mem_of_mem_take front, inside⟩⟩
    · rintro ⟨cell, member, inside⟩
      rw [← List.map_snd_zip fits.le, List.mem_map] at member
      obtain ⟨pair, among, rfl⟩ := member
      obtain ⟨slice, one, inside⟩ := (all pair among).mpr inside
      -- No slice is lost, since a row has as many lines as its longest cell has slices.
      have here : (pair.1, slices pair.1 pair.2) ∈
          (widths.zip cells).map fun cell => (cell.1, slices cell.1 cell.2) :=
        List.mem_map_of_mem among
      have low : (slices pair.1 pair.2).length ≤ height _ := (le_foldl_height _ 1).2 _ here
      exact ⟨_, here, slice, by rwa [List.take_of_length_le low], inside⟩

/-- A row in columns can be written exactly when its cells can. -/
theorem isWritable_row_grid {widths : List Int} {cells : List Text} {text : Text}
    (laid : (Layout.grid widths).row cells = .ok text) (positive : ∀ width ∈ widths, 1 ≤ width) :
    text.IsWritable ↔ ∀ cell ∈ cells, cell.IsWritable := by
  have same : ∀ {c : CodePoint}, c.isSurrogate = true ->
      (c ∈ text ↔ ∃ cell ∈ cells, c ∈ cell) := by
    intro c surrogate
    apply mem_row_grid laid positive
    · rintro rfl
      simp [CodePoint.isSurrogate, Text.blank] at surrogate
    · rintro rfl
      simp [CodePoint.isSurrogate, Text.lineFeed] at surrogate
  constructor
  · intro writable cell member c inside
    by_contra surrogate
    rw [Bool.not_eq_false] at surrogate
    have shown := writable c ((same surrogate).mpr ⟨cell, member, inside⟩)
    simp [surrogate] at shown
  · intro writable c inside
    by_contra surrogate
    rw [Bool.not_eq_false] at surrogate
    obtain ⟨cell, member, inside⟩ := (same surrogate).mp inside
    simp [writable cell member c inside] at surrogate

end Layout

end AuditTrail
