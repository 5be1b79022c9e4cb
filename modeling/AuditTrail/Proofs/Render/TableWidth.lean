import AuditTrail.Proofs.Layout.Fit
import AuditTrail.Proofs.Render.Order
import AuditTrail.Proofs.Table.Row

/-!
# Tables that fit their screen

In columns, no line is longer than the screen is wide, whatever the cells hold and whichever
way the run goes. The screen must have room for one code point in each column and for the gaps;
a narrower one is overrun, since no column is left out.
-/

namespace AuditTrail

/-- A text without a line longer than a width. -/
def Text.FitsWithin (width : Int) (text : Text) : Prop :=
  ∀ piece ∈ text.splitOn Text.lineFeed, (piece.length : Int) ≤ width

namespace Render

/-- A line of a log is the text of some cells. -/
theorem exists_row_of_mem_plannedLines {table : Table} {layout : Layout} {feed : Feed}
    {octets : Bytes} (member : .ok octets ∈ plannedLines table layout feed) :
    ∃ cells text, layout.row cells = .ok text ∧ lineOf text = .ok octets := by
  rcases List.mem_append.mp member with above | below
  · split at above
    next =>
      obtain ⟨text, laid, encoded⟩ := headerLine_eq_ok.mp (List.mem_singleton.mp above).symm
      exact ⟨_, text, laid, encoded⟩
    next => cases above
  · obtain ⟨rows, event, -, line⟩ := exists_of_mem_rowLines below
    obtain ⟨cells, text, -, laid, encoded⟩ := rowLine_eq_ok.mp line
    exact ⟨cells, text, laid, encoded⟩

/-- On a screen that has room for a code point in each column, every row in columns fits, and
so does all that a run writes in columns. -/
theorem rows_fit {screenWidth : Int} {columns : List Column}
    (sound : ∀ column ∈ columns, column.HasSoundLimit) (nonempty : columns ≠ [])
    (enough : 3 * (columns.length : Int) - 2 ≤ screenWidth) :
    (∀ cells : List Text, cells.length = columns.length ->
      ∃ text, (Layout.grid (Layout.widths screenWidth columns)).row cells = .ok text ∧
        text.FitsWithin screenWidth) ∧
    ∀ {State : Type} (sink : Sink State) (state : State) (log : Journal) (output : Output)
      (table : Table) (feed : Feed), table.columns = columns ->
      ∃ last transcript,
        (toScreen sink.recorded (.started log (state, [])) output table false screenWidth
          feed).state = some (.inl (last, transcript)) ∧
        ∀ octets ∈ transcript.offered, ∃ text, lineOf text = .ok octets ∧
          text.FitsWithin screenWidth := by
  have fits : ∀ {cells : List Text} {text : Text},
      (Layout.grid (Layout.widths screenWidth columns)).row cells = .ok text ->
        text.FitsWithin screenWidth := by
    intro cells text laid piece member
    calc (piece.length : Int)
        ≤ Layout.lineWidth (Layout.widths screenWidth columns) := by
          exact_mod_cast Layout.length_le_of_mem_splitOn_row laid member
      _ ≤ screenWidth := Layout.lineWidth_widths_le sound nonempty enough
  refine ⟨fun cells full => ?_, fun sink state log output table feed shape => ?_⟩
  · obtain ⟨text, laid⟩ : ∃ text,
        (Layout.grid (Layout.widths screenWidth columns)).row cells = .ok text := by
      simp [Layout.row, full]
    exact ⟨text, laid, fits laid⟩
  · subst shape
    obtain ⟨acts, course, told, -⟩ :=
      run_course sink table (Layout.ofTable false screenWidth table) feed state
    simp only [toScreen_started]
    generalize run sink.recorded table _ feed (state, []) = shown at course told ⊢
    refine ⟨shown.state.1, shown.state.2, rfl, fun octets member => ?_⟩
    rw [told, History.offered_atSink] at member
    obtain ⟨cells, text, laid, encoded⟩ := exists_row_of_mem_plannedLines
      (course.offered_prefix.subset (List.mem_map_of_mem member))
    exact ⟨text, encoded, fits laid⟩

/-- The narrowest screen for the table of a secret, which needs ten columns for its four. -/
theorem rows_fit_ten :
    ∃ text, (Layout.grid (Layout.widths 10 (Table.ofTree? none (.clock .utc)).columns)).row
        ["bob", "secret.read", "10.0.0.1", "today"] = .ok text ∧
      text.FitsWithin 10 :=
  (rows_fit (Table.hasSoundLimit_ofTree? _ _) (by decide) (by decide)).1 _ rfl

end Render

end AuditTrail
