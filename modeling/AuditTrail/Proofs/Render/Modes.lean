import AuditTrail.Proofs.Layout.Content
import AuditTrail.Proofs.Render.Outcome
import AuditTrail.Proofs.Table.Row

/-!
# Columns and records compared

In records every row can be written, since JSON spells surrogates out; in columns a row with a
surrogate in one of its cells is refused. This is the only difference between the two modes: a
run in columns does as the run in records does until it meets such a row, and breaks off there.

The comparison is one of lists of lines, `untilFault_modes`, by induction over the events; a
sink that stays open adds nothing to it.
-/

namespace AuditTrail

namespace Render

/-- The cells of events behind so many rows, before the first that has no row. -/
def mappedRows (table : Table) : (rows : Nat) -> List Event -> List (List Text)
  | _, [] => []
  | rows, event :: rest =>
    match (table.behind rows).row event with
    | .error _ => []
    | .ok cells => cells :: mappedRows table (rows + 1) rest

/-- Cells that can be written. -/
def AreWritable (cells : List Text) : Prop := ∀ cell ∈ cells, cell.IsWritable

instance (cells : List Text) : Decidable (AreWritable cells) :=
  inferInstanceAs (Decidable (∀ cell ∈ cells, cell.IsWritable))

/-! ## One row -/

/-- A text that can be written has a line. -/
theorem lineOf_of_isWritable {text : Text} (writable : text.IsWritable) :
    lineOf text = .ok (text.flatMap Utf8.encodeCodePoint ++ [lineEnd]) := by
  rw [lineOf, Utf8.firstUnwritable?_eq_none.mpr writable]

/-- A text with a surrogate has no line. -/
theorem lineOf_of_not_isWritable {text : Text} (unwritable : ¬text.IsWritable) :
    ∃ fault, lineOf text = .error (.unwritable fault) := by
  unfold lineOf
  cases found : Utf8.firstUnwritable? text with
  | none => exact absurd (Utf8.firstUnwritable?_eq_none.mp found) unwritable
  | some fault => exact ⟨fault, rfl⟩

/-- In columns, cells have a line exactly when they can be written. -/
theorem lineOf_grid {widths : List Int} {cells : List Text} {text : Text}
    (laid : (Layout.grid widths).row cells = .ok text) (positive : ∀ width ∈ widths, 1 ≤ width) :
    (AreWritable cells ∧ ∃ octets, lineOf text = .ok octets) ∨
      (¬AreWritable cells ∧ ∃ fault, lineOf text = .error (.unwritable fault)) := by
  have writable := Layout.isWritable_row_grid laid positive
  by_cases all : AreWritable cells
  · exact .inl ⟨all, _, lineOf_of_isWritable (writable.mpr all)⟩
  · exact .inr ⟨all, lineOf_of_not_isWritable (mt writable.mp all)⟩

/-- An event without a row has no line in either mode. -/
theorem rowLine_of_unmapped {table : Table} {event : Event} {fault : RowFault}
    (unmapped : table.row event = .error fault) (layout : Layout) :
    rowLine table layout event = .error (.unmapped fault) := by
  simp [rowLine, rowText, unmapped, Except.bind]

/-- As a record every row has a line. -/
theorem rowLine_records {table : Table} {event : Event} {cells : List Text}
    (mapped : table.row event = .ok cells) :
    ∃ octets, rowLine table (.records table.header) event = .ok octets := by
  have full : cells.length = table.header.length := by
    simpa [Table.header] using Table.length_row mapped
  have encoded := lineOf_of_isWritable
    (Json.isWritable_write_record (Layout.recordMembers table.header cells))
  exact ⟨_, rowLine_eq_ok.mpr ⟨cells, _, mapped, by simp [Layout.row, full], encoded⟩⟩

/-- A printable text makes one line. -/
theorem endedLineCount_of_isPrintableAscii {text : Text} {octets : Bytes}
    (printable : text.IsPrintableAscii) (encoded : lineOf text = .ok octets) :
    endedLineCount octets = 1 := by
  have unbroken : lineEnd ∉ text.map fun c => UInt8.ofNat c.val := by
    intro member
    obtain ⟨c, inside, same⟩ := List.mem_map.mp member
    have number := congrArg UInt8.toNat same
    have low := printable c inside
    rw [UInt8.toNat_ofNat'] at number
    simp [lineEnd] at number
    omega
  rw [lineOf_of_isWritable printable.isWritable,
    Utf8.flatMap_encodeCodePoint_of_isPrintableAscii printable] at encoded
  cases encoded
  simp [endedLineCount, List.count_eq_zero.mpr unbroken]

/-- As a record every row makes one line. -/
theorem endedLineCount_rowLine_records {table : Table} {names : List Text} {event : Event}
    {octets : Bytes} (line : rowLine table (.records names) event = .ok octets) :
    endedLineCount octets = 1 := by
  obtain ⟨cells, text, -, laid, encoded⟩ := rowLine_eq_ok.mp line
  simp only [Layout.row] at laid
  split at laid
  case isFalse => cases laid
  case isTrue =>
    cases laid
    exact endedLineCount_of_isPrintableAscii (Json.isPrintableAscii_write_record _) encoded

/-- In columns a row has a line exactly when its cells can be written. -/
theorem rowLine_grid {table : Table} {widths : List Int} {event : Event} {cells : List Text}
    (mapped : table.row event = .ok cells) (full : widths.length = table.columns.length)
    (positive : ∀ width ∈ widths, 1 ≤ width) :
    (AreWritable cells ∧ ∃ octets, rowLine table (.grid widths) event = .ok octets) ∨
      (¬AreWritable cells ∧
        ∃ fault, rowLine table (.grid widths) event = .error (.unwritable fault)) := by
  obtain ⟨text, laid⟩ : ∃ text, (Layout.grid widths).row cells = .ok text := by
    simp [Layout.row, full, Table.length_row mapped]
  have line : rowLine table (.grid widths) event = lineOf text := by
    simp only [rowLine, rowText, mapped, laid]
    rfl
  rw [line]
  exact lineOf_grid laid positive

/-- In columns the header has a line exactly when the names of the columns can be written. -/
theorem headerLine_grid {table : Table} {widths : List Int}
    (full : widths.length = table.columns.length) (positive : ∀ width ∈ widths, 1 ≤ width) :
    (AreWritable table.header ∧ ∃ octets, headerLine table (.grid widths) = .ok octets) ∨
      (¬AreWritable table.header ∧
        ∃ fault, headerLine table (.grid widths) = .error (.unwritable fault)) := by
  obtain ⟨text, laid⟩ : ∃ text, (Layout.grid widths).row table.header = .ok text := by
    simp [Layout.row, full, Table.header]
  have line : headerLine table (.grid widths) = lineOf text := by
    simp [headerLine, laid, Except.bind]
  rw [line]
  exact lineOf_grid laid positive

/-! ## All rows -/

/-- The lines of the rows in both modes: as many as there are rows in records, and in columns
as many as stand before the first with a surrogate, whose fault is the only difference. -/
theorem untilFault_modes {table : Table} {widths : List Int}
    (full : widths.length = table.columns.length) (positive : ∀ width ∈ widths, 1 ≤ width)
    (rows : Nat) (events : List Event) :
    let inRecords := untilFault (rowLines table (.records table.header) rows events)
    let inColumns := untilFault (rowLines table (.grid widths) rows events)
    let mapped := mappedRows table rows events
    inRecords.1.length = mapped.length ∧
    (∀ fault, inRecords.2 ≠ some (.unwritable fault)) ∧
    inColumns.1.length = (mapped.takeWhile (AreWritable ·)).length ∧
    if ∀ cells ∈ mapped, AreWritable cells then inColumns.2 = inRecords.2
    else ∃ fault, inColumns.2 = some (.unwritable fault) := by
  induction events generalizing rows with
  | nil => simp [rowLines, untilFault, mappedRows]
  | cons event rest inductionHypothesis =>
      cases mapped : (table.behind rows).row event with
      | error fault =>
          simp [rowLines, untilFault, mappedRows, mapped, rowLine_of_unmapped mapped]
      | ok cells =>
          obtain ⟨records, spelled⟩ := rowLine_records mapped
          rw [Table.header_behind] at spelled
          -- A row with a surrogate ends the columns, so only the records need the induction there.
          rcases rowLine_grid mapped full positive with
            ⟨writable, octets, line⟩ | ⟨writable, fault, refused⟩
          · simpa [rowLines, untilFault, mappedRows, mapped, spelled, line, writable] using
              inductionHypothesis (rows + 1)
          · obtain ⟨counted, spelledOut, -, -⟩ := inductionHypothesis (rows + 1)
            simpa [rowLines, untilFault, mappedRows, mapped, spelled, refused, writable] using
              ⟨counted, spelledOut⟩

/-! ## Whole runs -/

variable {State : Type}

/-- How many rows a recorded sink took. -/
def rowsShown (layout : Layout) : Option ((State × History) ⊕ LineBudget) -> Nat
  | some (.inl (_, transcript)) => (rowsTaken layout transcript).length
  | some (.inr _) | none => 0

/-- Over a sink that stays open a run comes to the outcome of its log. -/
theorem toScreen_of_staysOpen {sink : Sink State} {isOpen : State -> Prop}
    (stays : sink.StaysOpen isOpen) {state : State} (opened : isOpen state) (log : Journal)
    (output : Output) (table : Table) (asRecords : Bool) (width : Int) (feed : Feed) :
    let layout := Layout.ofTable asRecords width table
    let told := toScreen sink.recorded (.started log (state, [])) output table asRecords width
      feed
    told.result = outcome table layout feed ∧
      rowsShown layout told.state =
        ((writableLines table layout feed).drop (headerCount layout)).length := by
  simp only [toScreen_started]
  obtain ⟨result, last, ⟨-, told⟩, closed⟩ := run_of_keeps stays.keeps table
    (Layout.ofTable asRecords width table) feed (show isOpen (state, []).1 ∧ _ from ⟨opened, rfl⟩)
  refine ⟨result, ?_⟩
  rw [closed, ← told]
  simp [rowsShown, rowsTaken, Sink.recorded]

/-- In records, the rows alone decide what such a run comes to. -/
theorem toScreen_records {sink : Sink State} {isOpen : State -> Prop}
    (stays : sink.StaysOpen isOpen) {state : State} (opened : isOpen state) (log : Journal)
    (output : Output) (table : Table) (width : Int) (feed : Feed) :
    let layout := Layout.ofTable true width table
    let planned := untilFault (rowLines table layout 0 feed.events)
    let told := toScreen sink.recorded (.started log (state, [])) output table true width feed
    told.result = ending 0 feed planned.2 ∧ rowsShown layout told.state = planned.1.length := by
  intro layout planned told
  obtain ⟨result, rows⟩ := toScreen_of_staysOpen stays opened log output table true width feed
  obtain ⟨comes, written⟩ : outcome table layout feed = _ ∧ _ = planned.1 :=
    outcome_of_bare table rfl feed
  exact ⟨result.trans comes, rows.trans (congrArg List.length written)⟩

/-- In columns they do so below a header that can be written, and no row is shown below one that
cannot. -/
theorem toScreen_columns {sink : Sink State} {isOpen : State -> Prop}
    (stays : sink.StaysOpen isOpen) {state : State} (opened : isOpen state) (log : Journal)
    (output : Output) {table : Table} (sound : ∀ column ∈ table.columns, column.HasSoundLimit)
    (width : Int) (feed : Feed) :
    let layout := Layout.ofTable false width table
    let planned := untilFault (rowLines table layout 0 feed.events)
    let told := toScreen sink.recorded (.started log (state, [])) output table false width feed
    (AreWritable table.header ∧ told.result = ending 0 feed planned.2 ∧
        rowsShown layout told.state = planned.1.length) ∨
      (¬AreWritable table.header ∧ (∃ fault, told.result = .error (.unwritable fault)) ∧
        rowsShown layout told.state = 0) := by
  intro layout planned told
  obtain ⟨result, rows⟩ := toScreen_of_staysOpen stays opened log output table false width feed
  rcases headerLine_grid (Layout.length_widths width table.columns)
    fun _ => Layout.one_le_of_mem_widths sound with
    ⟨writable, octets, line⟩ | ⟨unwritable, fault, failed⟩
  · obtain ⟨comes, written⟩ := outcome_of_headed rfl line feed
    exact .inl ⟨writable, result.trans comes, rows.trans (congrArg List.length written)⟩
  · obtain ⟨comes, none⟩ := outcome_of_unheaded rfl failed feed
    refine .inr ⟨unwritable, ⟨fault, result.trans comes⟩, rows.trans ?_⟩
    rw [show writableLines table (Layout.ofTable false width table) feed = [] from none]
    simp

/-- Over a sink that stays open, columns and records come to the same count or fault after the
same number of rows exactly when no name of a column and no row that is reached holds a surrogate.
Otherwise the columns break off before the first that does. -/
theorem modes_agree_iff {sink : Sink State} {isOpen : State -> Prop}
    (stays : sink.StaysOpen isOpen) {state : State} (opened : isOpen state) (log : Journal)
    (output : Output) {table : Table} (sound : ∀ column ∈ table.columns, column.HasSoundLimit)
    (width : Int) (feed : Feed) :
    let told asRecords :=
      toScreen sink.recorded (.started log (state, [])) output table asRecords width feed
    let rows asRecords := rowsShown (Layout.ofTable asRecords width table) (told asRecords).state
    let mapped := mappedRows table 0 feed.events
    let writable := AreWritable table.header ∧ ∀ cells ∈ mapped, AreWritable cells
    (((told false).result = (told true).result ∧ rows false = rows true) ↔ writable) ∧
    rows true = mapped.length ∧
    rows false =
      (if AreWritable table.header then (mapped.takeWhile (AreWritable ·)).length else 0) ∧
    (writable ∨ ∃ fault, (told false).result = .error (.unwritable fault)) := by
  intro told rows mapped writable
  obtain ⟨recordsResult, recordsRows⟩ :=
    toScreen_records stays opened log output table width feed
  obtain ⟨recordsCount, spelled, columnsCount, faults⟩ := untilFault_modes
    (Layout.length_widths width table.columns) (fun _ => Layout.one_le_of_mem_widths sound) 0
    feed.events
  have recordsShown : rows true = mapped.length := recordsRows.trans recordsCount
  have differ : ∀ fault, (told true).result ≠ .error (.unwritable fault) := fun fault same =>
    ending_ne_unwritable spelled 0 feed fault (recordsResult.symm.trans same)
  -- Where the columns break off they differ, since the records never do so for a surrogate.
  have broken : ¬writable -> (∃ fault, (told false).result = .error (.unwritable fault)) ->
      (((told false).result = (told true).result ∧ rows false = rows true) ↔ writable) := by
    rintro not ⟨fault, refused⟩
    exact ⟨fun same => absurd (same.1.symm.trans refused) (differ fault), fun all => absurd all not⟩
  rcases toScreen_columns stays opened log output sound width feed with
    ⟨header, columnsResult, columnsRows⟩ | ⟨header, ends, columnsShown⟩
  · have columnsShown : rows false = _ := columnsRows.trans columnsCount
    rw [if_pos header]
    by_cases all : ∀ cells ∈ mapped, AreWritable cells
    · rw [if_pos all] at faults
      have kept : mapped.takeWhile (AreWritable ·) = mapped :=
        List.takeWhile_eq_self_iff.mpr fun cells member => decide_eq_true (all cells member)
      refine ⟨⟨fun _ => ⟨header, all⟩, fun _ => ⟨?_, ?_⟩⟩, recordsShown, columnsShown,
        .inl ⟨header, all⟩⟩
      · exact columnsResult.trans ((congrArg _ faults).trans recordsResult.symm)
      · rw [columnsShown, recordsShown]
        exact congrArg List.length kept
    · rw [if_neg all] at faults
      obtain ⟨fault, refused⟩ := faults
      have ends : ∃ fault, (told false).result = .error (.unwritable fault) :=
        ⟨fault, columnsResult.trans (congrArg _ refused)⟩
      exact ⟨broken (mt And.right all) ends, recordsShown, columnsShown, .inr ends⟩
  · rw [if_neg header]
    exact ⟨broken (mt And.left header) ends, recordsShown, columnsShown, .inr ends⟩

/-- The calendar begins with a timestamp. -/
theorem span_pos : 0 < Calendar.span := by decide

/-- A read of a secret by an account that may have half a surrogate pair for its name. -/
def readBy (actor : Option Actor) : Event where
  id := "1"
  action := "secret.read"
  address := "10.0.0.1"
  time := some ⟨0, .utc, span_pos⟩
  actor := actor
  subject := none

/-- Both modes refuse an event without an account in the same way. -/
theorem modes_agree_without_actor :
    let told asRecords := toScreen PagerProcess.sink.recorded
      (.started [] (.start .copies, [])) .fresh (.ofTree? none (.clock .utc)) asRecords 80
      (.gives [] (readBy none) (.done []))
    (told false).result = (told true).result :=
  ((modes_agree_iff PagerProcess.staysOpen PagerProcess.isOpen_start [] .fresh
    (Table.hasSoundLimit_ofTree? none (.clock .utc)) 80 (.gives [] (readBy none) (.done []))).1.mpr
      ⟨Table.isWritable_header_ofTree? none (.clock .utc), List.forall_mem_nil _⟩).1

/-- An account whose name is half a surrogate pair. -/
def halfPair : Actor where
  kind := "user"
  id := []
  username := [⟨0xD800, by decide⟩]
  serviceId := []

/-- A name that is half a surrogate pair is shown in records and refused in columns. -/
theorem modes_differ_on_surrogate :
    let told asRecords := toScreen PagerProcess.sink.recorded
      (.started [] (.start .copies, [])) .fresh (.ofTree? none (.clock .utc)) asRecords 80
      (.gives [] (readBy (some halfPair)) (.done []))
    (told true).result = .ok 1 ∧ ∃ fault, (told false).result = .error (.unwritable fault) := by
  obtain ⟨cells, mapped, unwritable⟩ : ∃ cells,
      (Table.ofTree? none (.clock .utc)).row (readBy (some halfPair)) = .ok cells ∧
        ¬AreWritable cells := by
    refine ⟨_, rfl, fun all => ?_⟩
    have named : Text.IsWritable halfPair.username := (List.forall_mem_cons.mp all).1
    simp [halfPair, CodePoint.isSurrogate] at named
  have sound := Table.hasSoundLimit_ofTree? none (.clock .utc)
  have header : AreWritable (Table.ofTree? none (.clock .utc)).header :=
    Table.isWritable_header_ofTree? none (.clock .utc)
  obtain ⟨octets, spelled⟩ := rowLine_records mapped
  obtain ⟨-, fault, refused⟩ := (rowLine_grid mapped
    (Layout.length_widths 80 (Table.ofTree? none (.clock .utc)).columns)
    fun _ => Layout.one_le_of_mem_widths sound).resolve_left fun all => unwritable all.1
  have records := (toScreen_records PagerProcess.staysOpen PagerProcess.isOpen_start [] .fresh
    (.ofTree? none (.clock .utc)) 80 (.gives [] (readBy (some halfPair)) (.done []))).1
  have columns := (toScreen_columns PagerProcess.staysOpen PagerProcess.isOpen_start [] .fresh
    sound 80 (.gives [] (readBy (some halfPair)) (.done []))).resolve_right fun no => no.1 header
  refine ⟨records.trans ?_, fault, columns.2.1.trans ?_⟩
  · simp [Layout.ofTable, Feed.events, rowLines, spelled, untilFault, ending, Feed.fault?]
  · simp [Layout.ofTable, Feed.events, rowLines, refused, untilFault, ending]

end Render

end AuditTrail
