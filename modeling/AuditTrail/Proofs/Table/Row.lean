import AuditTrail.Proofs.Layout.Level
import AuditTrail.Proofs.Text.Writable
import AuditTrail.Table.Row

/-!
# Shown tables and their rows

A row has one cell for each column, or the event has none. The two tables that are shown have
columns that can be laid out and names that can be written.
-/

namespace AuditTrail.Table

/-- The parts of a row. -/
theorem row_eq_ok {table : Table} {event : Event} {cells : List Text} :
    table.row event = .ok cells ↔
      ∃ actor middle date, event.actorLabel = .ok actor ∧ table.middle event = .ok middle ∧
        dateLabel table.timeFormat event = .ok date ∧
        cells = [actor, event.actionLabel] ++ middle ++ [event.address, date] := by
  unfold row
  cases event.actorLabel with
  | error fault => simp [bind, Except.bind]
  | ok actor =>
      cases table.middle event with
      | error fault => simp [bind, Except.bind]
      | ok middle =>
          cases dateLabel table.timeFormat event with
          | error fault => simp [bind, Except.bind]
          | ok date => simp [bind, Except.bind, pure, Except.pure, eq_comm]

/-- A middle column has one cell. -/
theorem middle_eq_ok_iff {format : Calendar.TimeFormat} {extra : ExtraColumn} {event : Event}
    {cells : List Text} :
    middle ⟨format, some extra⟩ event = .ok cells ↔
      ∃ label, extra.cell event = .ok label ∧ cells = [label] := by
  cases cell : extra.cell event <;> simp [middle, cell, Except.map, eq_comm]

/-- A middle column is refused with its cell. -/
theorem middle_eq_error_iff {format : Calendar.TimeFormat} {extra : ExtraColumn} {event : Event}
    {fault : RowFault} :
    middle ⟨format, some extra⟩ event = .error fault ↔ extra.cell event = .error fault := by
  cases cell : extra.cell event <;> simp [middle, cell, Except.map]

/-- The middle has a cell exactly where there is a middle column. -/
theorem length_middle {table : Table} {event : Event} {cells : List Text}
    (found : table.middle event = .ok cells) : cells.length = table.extra.toList.length := by
  obtain ⟨format, extra⟩ := table
  cases extra with
  | none =>
      cases found
      rfl
  | some extra =>
      obtain ⟨label, -, rfl⟩ := middle_eq_ok_iff.mp found
      rfl

/-- A row has one cell for each column. -/
theorem length_row {table : Table} {event : Event} {cells : List Text}
    (mapped : table.row event = .ok cells) : cells.length = table.columns.length := by
  obtain ⟨actor, middle, date, -, found, -, rfl⟩ := row_eq_ok.mp mapped
  cases shape : table.extra <;> simp [columns, length_middle found, shape]

/-! ## The tables that are shown -/

/-- The table that is shown with a tree or without one. -/
def ofTree? (tree : Option Tree) (format : Calendar.TimeFormat) : Table :=
  tree.elim (.ofSecret format) fun tree => .ofRepository tree format

@[simp] theorem timeFormat_ofTree? (tree : Option Tree) (format : Calendar.TimeFormat) :
    (ofTree? tree format).timeFormat = format := by
  cases tree <;> rfl

/-- The limits of the shown tables are sound. -/
theorem hasSoundLimit_ofTree? (tree : Option Tree) (format : Calendar.TimeFormat) :
    ∀ column ∈ (ofTree? tree format).columns, column.HasSoundLimit := by
  cases tree <;>
    simp [ofTree?, columns, ofSecret, ofRepository, Column.HasSoundLimit, Column.author,
      Column.event, Column.subject, Column.address, Column.date]

/-- The names of the columns in the shown tables can be written. -/
theorem isWritable_header_ofTree? (tree : Option Tree) (format : Calendar.TimeFormat) :
    ∀ name ∈ (ofTree? tree format).header, name.IsWritable := by
  have author : Column.author.name.IsWritable := Text.isWritable_ofString (by simp)
  have event : Column.event.name.IsWritable := Text.isWritable_ofString (by simp)
  have subject : Column.subject.name.IsWritable := Text.isWritable_ofString (by simp)
  have address : Column.address.name.IsWritable := Text.isWritable_ofString (by simp)
  have date : Column.date.name.IsWritable := Text.isWritable_ofString (by simp)
  cases tree with
  | none => simp [ofTree?, header, columns, ofSecret, author, event, address, date]
  | some tree =>
      simp [ofTree?, header, columns, ofRepository, author, event, subject, address, date]

end AuditTrail.Table
