import AuditTrail.Proofs.Render.Bounded
import AuditTrail.Proofs.Render.Modes
import AuditTrail.Proofs.Source.Quiet

/-!
# The warning of a bounded output

The write that takes the last line of a bounded output warns that lines are left out, when it is
not yet known whether any would follow. So there is a warning exactly when the log has no fewer
lines than are shown at most. Lines are left out exactly when it has more: a log that just fits
is shown in full and warned of all the same.

This presupposes a quiet feed, as those of files and services are, so that the command warns of
nothing else: `lines_warning_showTable`. `writeRows_warns` follows the warning through the rows as
`writeRows_budgetAfter` follows the budget, and `toScreen_warns` compares what a run without a
pager shows and says with what a pager that copies its input would have shown.
-/

namespace AuditTrail

/-! ## Lines left out -/

/-- Octets that end their last line are given by as many first lines as they have. -/
theorem EndsLine.firstLines_eq_self_iff {lines : Nat} {octets : Bytes} (ends : EndsLine octets) :
    firstLines lines octets = octets ↔ endedLineCount octets ≤ lines := by
  refine ⟨fun same => ?_, ends.firstLines_of_le⟩
  have counted := endedLineCount_firstLines lines octets
  rw [same] at counted
  omega

/-- Lines that are ended make octets that end their last line, if there are any. -/
theorem endsLine_flatten {lines : List Bytes} (ended : ∀ line ∈ lines, EndsLine line)
    (some : lines ≠ []) : EndsLine lines.flatten := by
  rcases List.eq_nil_or_concat lines with rfl | ⟨earlier, last, rfl⟩
  · exact absurd rfl some
  · obtain ⟨body, rfl⟩ := ended last (by simp)
    exact ⟨earlier.flatten ++ body, by simp⟩

namespace Render

/-- What stands before the first fault is among the lines. -/
theorem mem_untilFault {planned : List (Except RenderFault Bytes)} {octets : Bytes}
    (member : octets ∈ (untilFault planned).1) : .ok octets ∈ planned := by
  induction planned with
  | nil => simp [untilFault] at member
  | cons first rest inductionHypothesis =>
      cases first with
      | error fault => simp [untilFault] at member
      | ok line =>
          rcases List.mem_cons.mp member with rfl | later
          · exact List.mem_cons_self
          · exact List.mem_cons_of_mem _ (inductionHypothesis later)

/-- All lines of a log that can be written are ended. -/
theorem endsLine_of_mem_writableLines {table : Table} {layout : Layout} {feed : Feed}
    {octets : Bytes} (member : octets ∈ writableLines table layout feed) : EndsLine octets := by
  rcases List.mem_append.mp (mem_untilFault member) with above | row
  · split at above
    · exact endsLine_of_headerLine (List.mem_singleton.mp above).symm
    · simp at above
  · obtain ⟨rows, event, -, line⟩ := exists_of_mem_rowLines row
    obtain ⟨cells, text, -, -, encoded⟩ := rowLine_eq_ok.mp line
    exact endsLine_of_lineOf encoded

/-- The first lines of a log are the log exactly when it has no more lines. -/
theorem firstLines_writableLines (lines : Nat) (table : Table) (layout : Layout) (feed : Feed) :
    let written := (writableLines table layout feed).flatten
    firstLines lines written = written ↔ endedLineCount written ≤ lines := by
  cases planned : writableLines table layout feed with
  | nil => simp [endedLineCount]
  | cons first rest =>
      have ended : ∀ line ∈ first :: rest, EndsLine line :=
        fun line member => endsLine_of_mem_writableLines (planned ▸ member)
      exact (endsLine_flatten ended (by simp)).firstLines_eq_self_iff

/-! ## The warning -/

/-- The warnings that a budget of so many lines gives when these octets are offered to it. -/
def warningsOf (lines : Nat) (offered : Bytes) : List LogLine :=
  if lines ≤ endedLineCount offered then [⟨.warning, truncatedLine⟩] else []

theorem warningsOf_of_lt {lines : Nat} {offered : Bytes} (left : endedLineCount offered < lines) :
    warningsOf lines offered = [] :=
  if_neg (Nat.not_le.mpr left)

/-- Once the budget is spent, what is offered besides changes nothing. -/
theorem warningsOf_of_spent {lines : Nat} {offered : Bytes}
    (spent : ¬endedLineCount offered < lines) (more : Bytes) :
    warningsOf lines (offered ++ more) = (Journal.warn truncatedLine).lines .warning :=
  if_pos (by rw [endedLineCount_append]; omega)

section

variable {output : Output} (isOpen : output.refusal = none) {lines : Nat}
include isOpen

/-- The rows of a feed that logs no warning itself are warned of when they spend the budget. -/
theorem writeRows_warns (table : Table) (layout : Layout) {feed : Feed}
    (quiet : feed.IsQuiet) (rows : Nat) {offered : Bytes}
    (left : endedLineCount offered < lines) :
    let planned := untilFault (rowLines table layout rows feed.events)
    let run := writeRows LineBudget.sink table layout feed rows (.budgetAfter output lines offered)
    run.journal.lines .warning = warningsOf lines (offered ++ planned.1.flatten) := by
  induction feed generalizing rows offered with
  | done journal =>
      simpa [writeRows, Run.stop, Feed.events, rowLines, untilFault, warningsOf_of_lt left] using
        Feed.isQuiet_done.mp quiet
  | failed journal =>
      simpa [writeRows, Run.stop, Feed.events, rowLines, untilFault, warningsOf_of_lt left] using
        Feed.isQuiet_failed.mp quiet
  | gives journal event rest inductionHypothesis =>
      obtain ⟨quietBefore, quietBehind⟩ := Feed.isQuiet_gives.mp quiet
      simp only [writeRows, Run.after, Run.pulling, Feed.events, rowLines,
        Journal.lines_append, quietBefore, List.nil_append]
      rw [writeRow_budget isOpen (table.behind rows) layout rows event left]
      cases line : rowLine (table.behind rows) layout event with
      | error fault => simp [untilFault, Run.stop, Journal.lines, warningsOf_of_lt left]
      | ok octets =>
          simp only [untilFault, List.flatten_cons, ← List.append_assoc]
          split
          next within => exact inductionHypothesis quietBehind (rows + 1) within
          next spent => exact (warningsOf_of_spent spent _).symm

/-- A run of such a feed is warned of when it spends the budget. -/
theorem run_warns (table : Table) (layout : Layout) {feed : Feed}
    (quiet : feed.IsQuiet) (some : 0 < lines) :
    let written := (writableLines table layout feed).flatten
    (run LineBudget.sink table layout feed (.ofOutput output lines)).journal.lines .warning =
      warningsOf lines written := by
  have none : endedLineCount [] < lines := some
  cases shows : layout.showsHeader with
  | false =>
      simp only [run, writeAll_eq, writableLines, plannedLines, ← LineBudget.budgetAfter_nil, shows,
        Bool.false_eq_true, if_false, List.nil_append]
      exact writeRows_warns isOpen table layout quiet 0 none
  | true =>
      simp only [run, writeAll_eq, writableLines, plannedLines, ← LineBudget.budgetAfter_nil, shows,
        if_true, List.singleton_append]
      cases line : headerLine table layout with
      | error fault => simp [untilFault, Run.stop, Journal.lines, warningsOf_of_lt none]
      | ok octets =>
          simp only [untilFault, List.flatten_cons]
          rw [write_budget isOpen 0 (endsLine_of_headerLine line), List.nil_append]
          split
          next within => exact writeRows_warns isOpen table layout quiet 0 within
          next spent => exact (warningsOf_of_spent spent _).symm

end

/-! ## What is shown and what is said -/

/-- A pager that copies its input shows all lines that can be written. -/
theorem reached_copies (log : Journal) (table : Table) (asRecords : Bool) (width : Int)
    (feed : Feed) :
    Command.reached (toScreen PagerProcess.sink (.started log (.start .copies)) .fresh table
        asRecords width feed).state =
      (writableLines table (Layout.ofTable asRecords width table) feed).flatten := by
  obtain ⟨-, last, ⟨-, shown, given⟩, closed⟩ := run_of_keeps PagerProcess.keeps table
    (Layout.ofTable asRecords width table) feed ⟨PagerProcess.isOpen_start, rfl, rfl⟩
  rw [toScreen_started]
  simp only
  rw [closed, ← given]
  exact if_pos shown

/-- Without a pager the first lines of them are shown. -/
theorem reached_bounded (log : Journal) (table : Table) (asRecords : Bool) (width : Int)
    (feed : Feed) :
    Command.reached (toScreen PagerProcess.sink (.unavailable log) .fresh table asRecords width
        feed).state =
      firstLines LineBudget.usual
        (writableLines table (Layout.ofTable asRecords width table) feed).flatten := by
  have fresh : Output.fresh.refusal = none := rfl
  have allowed : 0 < LineBudget.usual := by decide
  have state := (run_budgetAfter fresh table (Layout.ofTable asRecords width table) feed allowed).1
  rw [toScreen_unavailable]
  simp only
  rw [state]
  rfl

/-- The choice of a layout is nothing to warn of. -/
theorem lines_warning_layout (width : Int) (layout : Layout) :
    (layout.journal width).lines .warning = [] := by
  cases layout <;> rfl

/-- Without a pager a log is warned of as its lines spend the budget. -/
theorem lines_warning_toScreen (log : Journal) (table : Table) (asRecords : Bool) (width : Int)
    {feed : Feed} (quiet : feed.IsQuiet) :
    (toScreen PagerProcess.sink (.unavailable log) .fresh table asRecords width
        feed).journal.lines .warning =
      log.lines .warning ++ warningsOf LineBudget.usual
        (writableLines table (Layout.ofTable asRecords width table) feed).flatten := by
  have fresh : Output.fresh.refusal = none := rfl
  have allowed : 0 < LineBudget.usual := by decide
  have warned := run_warns fresh table (Layout.ofTable asRecords width table) quiet allowed
  have debugged : (Journal.debug noPagerLine).lines .warning = [] := rfl
  simp only [toScreen_unavailable, Journal.lines_append, lines_warning_layout, debugged, warned,
    List.nil_append, List.append_nil]

/-- Without a pager a log is warned of, once, exactly when it has no fewer lines than are shown at
most, and lines are left out exactly when it has more. -/
theorem toScreen_warns (startLog noPagerLog : Journal) (table : Table) (asRecords : Bool)
    (width : Int) {feed : Feed} (quiet : feed.IsQuiet) :
    let whole := toScreen PagerProcess.sink (.started startLog (.start .copies)) .fresh table
      asRecords width feed
    let bounded := toScreen PagerProcess.sink (.unavailable noPagerLog) .fresh table asRecords
      width feed
    let full := Command.reached whole.state
    bounded.journal.lines .warning =
        noPagerLog.lines .warning ++
          (if LineBudget.usual ≤ endedLineCount full then [⟨.warning, truncatedLine⟩] else []) ∧
      (Command.reached bounded.state = full ↔ endedLineCount full ≤ LineBudget.usual) := by
  simp only [reached_copies, reached_bounded]
  exact ⟨lines_warning_toScreen noPagerLog table asRecords width quiet,
    firstLines_writableLines LineBudget.usual table _ feed⟩

/-- To look for a pager in vain is nothing to warn of. -/
theorem lines_warning_ofFiles {files : Files} {wanted : Option Text} {log : Journal}
    (unavailable : PagerProcess.ofFiles files wanted = .unavailable log) :
    log.lines .warning = [] := by
  unfold PagerProcess.ofFiles at unavailable
  split at unavailable
  next => cases unavailable; rfl
  next path program _ => cases program <;> cases unavailable; rfl

/-- The logs of all locations are warned of in this way, and the command warns of nothing else. -/
theorem lines_warning_showTable {around : Command.Surroundings} {log : Journal}
    (unavailable : PagerProcess.ofFiles around.files around.pager = .unavailable log)
    (request : Command.AuditRequest) (table : Table) (answers : List Service.Answer) :
    let width := Command.tableWidth Command.usualColumns around.screenColumns
    (Command.showTable around request table answers).journal.lines .warning =
      warningsOf LineBudget.usual
        (writableLines table (Layout.ofTable request.asRecords width table)
          (.ofLocation around.files answers request.perPage around.usedToken
            request.source)).flatten := by
  simp only [Command.showTable, unavailable]
  rw [lines_warning_toScreen _ _ _ _ (Feed.isQuiet_ofLocation ..),
    lines_warning_ofFiles unavailable, List.nil_append]

/-- As records, events that have rows make one line each. -/
theorem endedLineCount_rowLines_records {table : Table} {events : List Event}
    (mapped : ∀ event ∈ events, ∀ rows, ∃ cells, (table.behind rows).row event = .ok cells)
    (rows : Nat) :
    endedLineCount (untilFault (rowLines table (.records table.header) rows events)).1.flatten =
      events.length := by
  induction events generalizing rows with
  | nil => rfl
  | cons event rest inductionHypothesis =>
      obtain ⟨row, others⟩ := List.forall_mem_cons.mp mapped
      obtain ⟨cells, row⟩ := row rows
      obtain ⟨octets, line⟩ := rowLine_records row
      rw [Table.header_behind] at line
      simp only [rowLines, line, untilFault, List.flatten_cons, endedLineCount_append,
        endedLineCount_rowLine_records line, inductionHypothesis others, List.length_cons]
      omega

/-- A number of reads by one account. -/
def reads (count : Nat) : Feed := .giving (List.replicate count (readBy (some halfPair))) (.done [])

/-- As records they make so many lines. -/
theorem endedLineCount_reads (count : Nat) :
    let table := Table.ofSecret (.clock .utc)
    endedLineCount (writableLines table (.records table.header) (reads count)).flatten = count := by
  intro table
  have given : (reads count).events = List.replicate count (readBy (some halfPair)) := by
    simp [reads, Feed.events]
  have mapped : ∀ event ∈ (reads count).events, ∀ rows, ∃ cells,
      (table.behind rows).row event = .ok cells := by
    intro event member rows
    rw [given] at member
    exact ⟨_, congrArg (table.behind rows).row (List.eq_of_mem_replicate member)⟩
  simp only [writableLines, plannedLines, Layout.showsHeader, Bool.false_eq_true, if_false,
    List.nil_append]
  rw [endedLineCount_rowLines_records mapped, given, List.length_replicate]

/-- A log with one line more than are shown is warned of, and the line is left out. -/
theorem toScreen_warns_oneMore :
    let table := Table.ofSecret (.clock .utc)
    let feed := reads (LineBudget.usual + 1)
    let whole := toScreen PagerProcess.sink (.started [] (.start .copies)) .fresh table true 80 feed
    let bounded := toScreen PagerProcess.sink (.unavailable []) .fresh table true 80 feed
    feed.IsQuiet ∧ bounded.journal.lines .warning = [⟨.warning, truncatedLine⟩] ∧
      Command.reached bounded.state ≠ Command.reached whole.state := by
  intro table feed whole bounded
  have quiet : feed.IsQuiet := Feed.isQuiet_giving (Feed.isQuiet_done.mpr rfl)
  have count : endedLineCount (Command.reached whole.state) = LineBudget.usual + 1 := by
    rw [show Command.reached whole.state = _ from reached_copies [] table true 80 feed]
    exact endedLineCount_reads _
  obtain ⟨warned, shown⟩ := toScreen_warns [] [] table true 80 quiet
  rw [count] at warned shown
  exact ⟨quiet, warned, fun same => absurd (shown.mp same) (by decide)⟩

/-- A log with as many lines as are shown is shown in full and warned of all the same. -/
theorem toScreen_warned_inFull :
    let table := Table.ofSecret (.clock .utc)
    let feed := reads LineBudget.usual
    let whole := toScreen PagerProcess.sink (.started [] (.start .copies)) .fresh table true 80 feed
    let bounded := toScreen PagerProcess.sink (.unavailable []) .fresh table true 80 feed
    Command.reached bounded.state = Command.reached whole.state ∧
      bounded.journal.lines .warning = [⟨.warning, truncatedLine⟩] := by
  intro table feed whole bounded
  have count : endedLineCount (writableLines table (Layout.ofTable true 80 table) feed).flatten =
      LineBudget.usual := endedLineCount_reads _
  have quiet : feed.IsQuiet := Feed.isQuiet_giving (Feed.isQuiet_done.mpr rfl)
  have warned := lines_warning_toScreen [] table true 80 quiet
  simp only [whole, bounded, reached_copies, reached_bounded]
  exact ⟨(firstLines_writableLines _ table _ feed).mpr count.le, warned.trans (if_pos count.ge)⟩

end Render

end AuditTrail
