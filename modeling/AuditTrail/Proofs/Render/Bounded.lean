import AuditTrail.Command.Audit
import AuditTrail.Proofs.Pager.FirstLines
import AuditTrail.Proofs.Render.Outcome

/-!
# Runs without a pager

Without a pager the output gets the first lines of what a pager that copies its input would
have put out. The two runs do the same until the budget is spent, so a fault that comes before
that is the same fault, and one that would come later is never met.

Both runs are compared with the outcome of the log. `writeRows_budgetAfter` carries the budget
through the rows by `LineBudget.write_budgetAfter`, and `toScreen_firstLines` is the comparison
of the whole runs.
-/

namespace AuditTrail

namespace Render

/-- A line that is written is ended. -/
theorem endsLine_of_lineOf {text : Text} {octets : Bytes}
    (encoded : lineOf text = .ok octets) : EndsLine octets := by
  unfold lineOf at encoded
  split at encoded
  next => cases encoded
  next =>
    cases encoded
    exact ⟨_, rfl⟩

/-- A header that is written is ended. -/
theorem endsLine_of_headerLine {table : Table} {layout : Layout} {octets : Bytes}
    (line : headerLine table layout = .ok octets) : EndsLine octets := by
  obtain ⟨text, -, encoded⟩ := headerLine_eq_ok.mp line
  exact endsLine_of_lineOf encoded

/-! ## The budget through a run -/

section

variable {output : Output} (isOpen : output.refusal = none) {lines : Nat}
include isOpen

/-- A line goes on within the budget, or it spends the budget and ends the run. -/
theorem write_budget (rows : Nat) {offered octets : Bytes} (ends : EndsLine octets)
    (next : LineBudget -> Run LineBudget) :
    write LineBudget.sink rows octets next (.budgetAfter output lines offered) =
      if endedLineCount (offered ++ octets) < lines then
        next (.budgetAfter output lines (offered ++ octets))
      else
        .stop (.ok rows) (Journal.warn truncatedLine)
          (.budgetAfter output lines (offered ++ octets)) := by
  have answer : LineBudget.sink.write octets (.budgetAfter output lines offered) = _ :=
    LineBudget.write_budgetAfter isOpen lines offered ends
  rw [LineBudget.resultBehind] at answer
  by_cases within : endedLineCount (offered ++ octets) < lines
  · rw [if_pos within] at answer ⊢
    simp only [write, answer]
  · rw [if_neg within] at answer ⊢
    simp only [write, answer]

/-- A row within the budget: its fault, its line, or its line and the end of the run. -/
theorem writeRow_budget (table : Table) (layout : Layout) (rows : Nat) (event : Event)
    {offered : Bytes} (left : endedLineCount offered < lines)
    (next : LineBudget -> Run LineBudget) :
    writeRow LineBudget.sink table layout rows event next (.budgetAfter output lines offered) =
      match rowLine table layout event with
      | .error fault => .stop (.error fault) [] (.budgetAfter output lines offered)
      | .ok octets =>
        if endedLineCount (offered ++ octets) < lines then
          next (.budgetAfter output lines (offered ++ octets))
        else
          .stop (.ok rows) (Journal.warn truncatedLine)
            (.budgetAfter output lines (offered ++ octets)) := by
  have unspent : LineBudget.sink.isClosed (.budgetAfter output lines offered) =
      (false, .budgetAfter output lines offered) := by
    simp [LineBudget.sink, LineBudget.isSpent, LineBudget.budgetAfter]
    omega
  unfold writeRow rowLine
  cases rowText table layout event with
  | error fault => rfl
  | ok text =>
      cases encoded : lineOf text with
      | error fault => simp [unspent, Except.bind, encoded]
      | ok octets =>
          simpa [unspent, Except.bind, encoded] using
            write_budget isOpen rows (endsLine_of_lineOf encoded) next

/-- The rows of a feed within the budget: the output is given by all lines that could be
written, and the run ends as they say unless the budget is spent before. -/
theorem writeRows_budgetAfter (table : Table) (layout : Layout) (feed : Feed) (rows : Nat)
    {offered : Bytes} (left : endedLineCount offered < lines) :
    let planned := untilFault (rowLines table layout rows feed.events)
    let run := writeRows LineBudget.sink table layout feed rows (.budgetAfter output lines offered)
    run.state = .budgetAfter output lines (offered ++ planned.1.flatten) ∧
      if endedLineCount (offered ++ planned.1.flatten) < lines then
        run.result = ending rows feed planned.2
      else ∃ total, run.result = .ok total := by
  -- The invariant is that the budget is as if all octets so far had been offered at once.
  induction feed generalizing rows offered with
  | done journal =>
      simp [writeRows, Run.stop, Feed.events, rowLines, untilFault, ending, Feed.fault?, left]
  | failed journal fault =>
      simp [writeRows, Run.stop, Feed.events, rowLines, untilFault, ending, Feed.fault?, left]
  | gives journal event rest inductionHypothesis =>
      simp only [writeRows, Run.after, Run.pulling, Feed.events, rowLines, ending_gives]
      rw [writeRow_budget isOpen (table.behind rows) layout rows event left]
      cases line : rowLine (table.behind rows) layout event with
      | error fault => simp [untilFault, Run.stop, ending, left]
      | ok octets =>
          simp only [untilFault, List.flatten_cons, ← List.append_assoc]
          split
          next within => exact inductionHypothesis (rows + 1) within
          next spent =>
            -- The rows behind this one are never offered, and would have left no trace.
            have reached : lines ≤ endedLineCount (offered ++ octets) := Nat.le_of_not_lt spent
            refine ⟨(LineBudget.budgetAfter_of_spent output reached _).symm, ?_⟩
            rw [if_neg (by rw [endedLineCount_append]; omega)]
            exact ⟨rows, rfl⟩

/-- A whole run within the budget. -/
theorem run_budgetAfter (table : Table) (layout : Layout) (feed : Feed) (some : 0 < lines) :
    let written := (writableLines table layout feed).flatten
    let run := run LineBudget.sink table layout feed (.ofOutput output lines)
    run.state = (LineBudget.budgetAfter output lines written).close ∧
      if endedLineCount written < lines then run.result = outcome table layout feed
      else ∃ total, run.result = .ok total := by
  simp only [run, writeAll_eq, outcome, writableLines, plannedLines,
    ← LineBudget.budgetAfter_nil]
  have none : endedLineCount [] < lines := some
  cases layout.showsHeader with
  | false =>
      obtain ⟨state, result⟩ := writeRows_budgetAfter isOpen table layout feed 0 none
      exact ⟨congrArg LineBudget.close state, result⟩
  | true =>
      simp only [if_true, List.singleton_append]
      cases line : headerLine table layout with
      | error fault => simp [untilFault, Run.stop, ending, none, LineBudget.sink]
      | ok octets =>
          simp only [untilFault, List.flatten_cons]
          rw [write_budget isOpen 0 (endsLine_of_headerLine line), List.nil_append]
          split
          next within =>
            obtain ⟨state, result⟩ := writeRows_budgetAfter isOpen table layout feed 0 within
            exact ⟨congrArg LineBudget.close state, result⟩
          next spent =>
            have reached : lines ≤ endedLineCount octets := Nat.le_of_not_lt spent
            refine ⟨congrArg LineBudget.close
              (LineBudget.budgetAfter_of_spent output reached _).symm, ?_⟩
            rw [if_neg (by rw [endedLineCount_append]; omega)]
            exact ⟨0, rfl⟩

end

/-- Without a pager the output gets the first lines of what a copying pager puts out, and the
run ends in the same way unless the lines are spent. -/
theorem toScreen_firstLines (startLog noPagerLog : Journal) (table : Table) (asRecords : Bool)
    (width : Int) (feed : Feed) :
    let whole := toScreen PagerProcess.sink (.started startLog (.start .copies)) .fresh table
      asRecords width feed
    let bounded := toScreen PagerProcess.sink (.unavailable noPagerLog) .fresh table asRecords
      width feed
    Command.reached bounded.state =
        firstLines LineBudget.usual (Command.reached whole.state) ∧
      if endedLineCount (Command.reached whole.state) < LineBudget.usual then
        bounded.result = whole.result
      else ∃ rows, bounded.result = .ok rows := by
  simp only [toScreen_started, toScreen_unavailable]
  have fresh : Output.fresh.refusal = none := rfl
  have allowed : 0 < LineBudget.usual := by decide
  obtain ⟨result, last, ⟨-, shown, given⟩, closed⟩ := run_of_keeps PagerProcess.keeps table
    (Layout.ofTable asRecords width table) feed ⟨PagerProcess.isOpen_start, rfl, rfl⟩
  obtain ⟨state, ends⟩ := run_budgetAfter fresh table (Layout.ofTable asRecords width table)
    feed allowed
  have put : Command.reached (some (.inl (run PagerProcess.sink table
      (Layout.ofTable asRecords width table) feed (.start .copies)).state)) =
      (writableLines table (Layout.ofTable asRecords width table) feed).flatten := by
    rw [closed, ← given]
    exact if_pos shown
  rw [put, result, state]
  exact ⟨rfl, ends⟩

end Render

end AuditTrail
