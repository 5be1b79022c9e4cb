import AuditTrail.Calendar.Age
import AuditTrail.Table.Column
import AuditTrail.Table.Label

/-!
# Tables of events

Every table shows who did what, from where and when. A table may have one more column in the
middle; the table of a repository shows there what was acted on. A row has one cell for each
column, in the order of the columns.
-/

namespace AuditTrail

/-- A column together with what its cells say of an event. -/
structure ExtraColumn where
  column : Column
  cell : Event -> Except RowFault Text

/-- A table: how it shows times, and the column that it may have in the middle. -/
structure Table where
  timeFormat : Calendar.TimeFormat
  extra : Option ExtraColumn

/-- A column was given without its cells, or cells without their column. -/
inductive UnpairedColumn where
  | unpaired
deriving DecidableEq, Repr

/-- What is said of an unpaired column. -/
def UnpairedColumn.message : UnpairedColumn -> Text
  | .unpaired => "extra_column and extra_cell must be given together"

/-- The column in the middle, from its two parts. -/
def ExtraColumn.ofParts? :
    Option Column -> Option (Event -> Except RowFault Text) ->
      Except UnpairedColumn (Option ExtraColumn)
  | some column, some cell => .ok (some ⟨column, cell⟩)
  | none, none => .ok none
  | _, _ => .error .unpaired

namespace Table

/-- The columns. -/
def columns (table : Table) : List Column :=
  [.author, .event] ++ (table.extra.map ExtraColumn.column).toList ++ [.address, .date]

/-- The names of the columns. -/
def header (table : Table) : List Text := table.columns.map Column.name

/-- The cells in the middle. -/
def middle (table : Table) (event : Event) : Except RowFault (List Text) :=
  match table.extra with
  | none => .ok []
  | some extra => (extra.cell event).map ([·])

/-- The date in a format of times, which has not been asked before. -/
def dateLabel (format : Calendar.TimeFormat) (event : Event) : Except RowFault Text :=
  match event.time with
  | none => .error (.noTime event.title)
  | some time => (format.text 0 time).mapError .unshownTime

/-- The first row of a table, which is that of an event. -/
def row (table : Table) (event : Event) : Except RowFault (List Text) := do
  let actor ← event.actorLabel
  let middle ← table.middle event
  let date ← dateLabel table.timeFormat event
  return [actor, event.actionLabel] ++ middle ++ [event.address, date]

/-- The table behind so many rows. The format of its times was asked once for each of them. -/
def behind (rows : Nat) (table : Table) : Table :=
  { table with timeFormat := table.timeFormat.behind rows }

@[simp] theorem behind_zero (table : Table) : table.behind 0 = table := rfl

@[simp] theorem columns_behind (rows : Nat) (table : Table) :
    (table.behind rows).columns = table.columns := rfl

@[simp] theorem header_behind (rows : Nat) (table : Table) :
    (table.behind rows).header = table.header := rfl

/-- The table of the events of one secret. -/
def ofSecret (format : Calendar.TimeFormat) : Table := ⟨format, none⟩

@[simp] theorem behind_ofSecret (rows : Nat) (format : Calendar.TimeFormat) :
    (ofSecret format).behind rows = ofSecret (format.behind rows) := rfl

/-- The table of the events of a repository; its tree tells the paths of their subjects. -/
def ofRepository (tree : Tree) (format : Calendar.TimeFormat) : Table :=
  ⟨format, some ⟨.subject, Event.subjectLabel tree⟩⟩

end Table

end AuditTrail
