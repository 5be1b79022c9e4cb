import AuditTrail.Text.Basic

/-!
# Wrapping of cells

A cell is cut into slices as wide as its column; the last one is filled up with blanks. An
empty cell has no slices, and a column without any width shows none.
-/

namespace AuditTrail.Layout

/-- The pieces of `width` code points that make up a text, the last one perhaps shorter. -/
def pieces (width : Nat) (cell : Text) : List Text :=
  if 0 < width ∧ cell ≠ [] then cell.take width :: pieces width (cell.drop width) else []
termination_by cell.length
decreasing_by
  have cuts : 0 < width ∧ cell ≠ [] := ‹_›
  have nonempty : 0 < cell.length := List.length_pos_iff.mpr cuts.2
  simp only [List.length_drop]
  omega

/-- Nothing of a text is lost in its pieces. -/
theorem flatten_pieces {width : Nat} (positive : 0 < width) (cell : Text) :
    (pieces width cell).flatten = cell := by
  fun_induction pieces width cell with
  | case1 cell cuts ih => simp [ih, List.take_append_drop]
  | case2 cell uncut =>
    have empty : cell = [] :=
      Decidable.byContradiction fun filled => uncut ⟨positive, filled⟩
    simp [empty]

/-- No piece is wider than it should be. -/
theorem length_le_of_mem_pieces {width : Nat} {cell piece : Text}
    (member : piece ∈ pieces width cell) : piece.length ≤ width := by
  fun_induction pieces width cell with
  | case1 cell cuts ih =>
    rcases List.mem_cons.mp member with first | later
    · rw [first]
      exact List.length_take_le width cell
    · exact ih later
  | case2 => simp at member

/-- The slices of a cell. -/
def slices (width : Int) (cell : Text) : List Text :=
  (pieces width.toNat cell).map (Text.fill width.toNat)

/-- Every slice is exactly as wide as its column. -/
theorem length_of_mem_slices {width : Int} {cell slice : Text}
    (member : slice ∈ slices width cell) : slice.length = width.toNat := by
  obtain ⟨piece, inside, rfl⟩ := List.mem_map.mp member
  have bound := length_le_of_mem_pieces inside
  simp only [Text.length_fill]
  omega

/-- A cell cannot be cut into slices of no width. -/
inductive NoWidth where
  | noWidth
deriving DecidableEq, Repr

/-- What is said of a width of zero. -/
def NoWidth.message : NoWidth -> Text
  | .noWidth => "range() arg 3 must not be zero"

/-- The slices of a cell, unless they would have no width. -/
def slices? (width : Int) (cell : Text) : Except NoWidth (List Text) :=
  if width = 0 then .error .noWidth else .ok (slices width cell)

end AuditTrail.Layout
