import AuditTrail.Proofs.Pager.Faltering
import AuditTrail.Proofs.Render.Modes
import AuditTrail.Proofs.Render.Release

/-!
# Refused lines

A run without a pager that has a line refused asks whether its sink is closed, as any run does
behind a write that fails. The bounded output has spent the line by then. So the refusal ends the
run as a fault while lines are left behind the one that was refused; when that one was the last,
the run returns as if its reader had left.

`run_preserves` carries what a sink keeps through a run, and `run_refused` reads the answer to the
question off the account of the bounded output.
-/

namespace AuditTrail

namespace Render

variable {State : Type} {sink : Sink State} {holds : State -> Prop}

/-! ## What a run keeps -/

section

variable (preserves : sink.Preserves holds)
include preserves

theorem write_preserves (rows : Nat) (octets : Bytes) {next : State -> Run State}
    (goesOn : ∀ state, holds state -> holds (next state).state) {state : State}
    (held : holds state) : holds (write sink rows octets next state).state := by
  have written := preserves.write held octets
  unfold write
  cases answer : sink.write octets state with
  | mk result state' =>
      rw [answer] at written
      cases result with
      | written taken => exact goesOn state' written
      | exhausted taken => exact written
      | afterClose => exact written
      | failed fault =>
          have polled := preserves.isClosed written
          simp only
          cases asked : sink.isClosed state' with
          | mk closed last =>
              rw [asked] at polled
              cases closed <;> exact polled

theorem writeRow_preserves (table : Table) (layout : Layout) (rows : Nat) (event : Event)
    {next : State -> Run State} (goesOn : ∀ state, holds state -> holds (next state).state)
    {state : State} (held : holds state) :
    holds (writeRow sink table layout rows event next state).state := by
  unfold writeRow
  cases rowText table layout event with
  | error fault => exact held
  | ok text =>
      have polled := preserves.isClosed held
      simp only
      cases answer : sink.isClosed state with
      | mk closed state' =>
          rw [answer] at polled
          cases closed with
          | true => exact polled
          | false =>
              cases lineOctets text with
              | error fault => exact polled
              | ok octets => exact write_preserves preserves rows octets goesOn polled

theorem writeRows_preserves (table : Table) (layout : Layout) (feed : Feed) (rows : Nat)
    {state : State} (held : holds state) :
    holds (writeRows sink table layout feed rows state).state := by
  induction feed generalizing rows state with
  | done journal => exact held
  | failed journal fault => exact held
  | gives journal event rest inductionHypothesis =>
      exact writeRow_preserves preserves _ layout rows event
        (fun _ => inductionHypothesis (rows + 1)) held

/-- What a sink keeps holds of it when the run has ended. -/
theorem run_preserves (table : Table) (layout : Layout) (feed : Feed) {state : State}
    (held : holds state) : holds (run sink table layout feed state).state := by
  have rows (state : State) (held : holds state) :
      holds (writeRows sink table layout feed 0 state).state :=
    writeRows_preserves preserves table layout feed 0 held
  simp only [run, writeAll_eq]
  apply preserves.close
  cases layout.showsHeader with
  | false => exact rows state held
  | true =>
      simp only [if_true]
      cases headerLine table layout with
      | error fault => exact held
      | ok octets => exact write_preserves preserves 0 octets rows held

end

/-! ## Runs without a pager -/

/-- An output that refuses all writes for one reason, or takes all, is one that may refuse any. -/
theorem faltering_carries (refusal : Option Text) :
    Sink.Carries (fun state => state.1.refusing refusal) (LineBudget.faltering fun _ => refusal)
      LineBudget.sink where
  write octets state := by
    have kept := LineBudget.refusal_write (state.1.refusing refusal) octets
    exact congrArg (Prod.mk _) (LineBudget.refusing_eq_self kept).symm
  isClosed _ := rfl
  close _ := rfl

/-- A line that is offered to a bounded output is offered while lines are left. -/
theorem lines_left_of_offered {lines : Nat} (positive : 0 < lines) {refusals : Nat -> Option Text}
    {table : Table} {layout : Layout} {feed : Feed} {transcript : History}
    {result : Except RenderFault Nat} {pulled : Nat}
    (orderly : IsOrderly table layout feed transcript result pulled)
    (answers : transcript.Each (LineBudget.Answers lines refusals)) {before after : History}
    {octets : Bytes} {writeResult : WriteResult}
    (parts : transcript = before ++ .write octets writeResult :: after) :
    endedLineCount before.offered.flatten < lines := by
  rcases orderly.asked before octets writeResult after parts with ⟨rfl, -⟩ | ⟨earlier, rfl⟩
  · exact positive
  · have asked : false = decide (lines ≤ endedLineCount (History.offered earlier).flatten) :=
      answers earlier (.poll false) (.write octets writeResult :: after) (by simp [parts])
    simpa using asked

/-- A line that is refused ends the run. It is a fault if lines are left behind it, and if none
are the run returns the rows before it. -/
theorem run_refused {lines : Nat} (positive : 0 < lines) (refusals : Nat -> Option Text)
    (output : Output) (table : Table) (layout : Layout) (feed : Feed) :
    let told := run (LineBudget.faltering refusals).recorded table layout feed
      ((.ofOutput output lines, 0), [])
    ∀ before octets result after reason, told.state.2 = before ++ .write octets result :: after ->
      refusals before.offered.length = some reason ->
        result = .failed (.outputRefused reason) ∧
        told.result =
          if lines ≤ endedLineCount (before.offered.flatten ++ octets) then
            .ok (rowsTaken layout before).length
          else .error (.unwritten (.outputRefused reason)) := by
  intro told before octets result after reason parts refused
  have account := run_preserves (LineBudget.faltering_preserves lines refusals) table layout feed
    (LineBudget.isAccounted_ofOutput output lines refusals)
  obtain ⟨acts, course, transcript, -⟩ :=
    run_course (LineBudget.faltering refusals) table layout feed (.ofOutput output lines, 0)
  have within :=
    lines_left_of_offered positive (transcript ▸ course.isOrderly) account.answers parts
  obtain rfl : result = .failed (.outputRefused reason) :=
    account.answers before (.write octets result) after parts reason refused within
  obtain ⟨earlier, later, rfl, rfl, rfl⟩ := History.exists_cut (transcript.symm.trans parts)
  obtain ⟨left, rfl, comes⟩ := course.fails_last rfl
  refine ⟨rfl, comes.trans ?_⟩
  have answer : left = decide (lines ≤ endedLineCount (History.offered
      (earlier.atSink ++ [.write octets (.failed (.outputRefused reason))])).flatten) :=
    account.answers _ (.poll left) [.close] (by simpa using parts)
  simp [answer, rowsTaken]

/-- Without a pager a run does as over an output that may refuse any write. -/
theorem toScreen_faltering (sink : Sink State) (log : Journal) (output : Output) (table : Table)
    (asRecords : Bool) (width : Int) (feed : Feed) :
    (toScreen sink (.unavailable log) output table asRecords width feed).result =
      (run (LineBudget.faltering fun _ => output.refusal) table
        (Layout.ofTable asRecords width table) feed
        (.ofOutput output LineBudget.usual, 0)).result := by
  have alike := run_carried (faltering_carries output.refusal) table
    (Layout.ofTable asRecords width table) feed (.ofOutput output LineBudget.usual, 0)
  rw [toScreen_unavailable]
  exact congrArg Run.result alike

/-- A write that the output of a bounded output refuses fails and adds nothing, but its lines are
spent, so the sink stays open only if it had more. A run over such an output, as every run without
a pager is one, says what was refused exactly when lines are left behind the line that was. -/
theorem refusals_surface_iff (sink : Sink State) :
    (∀ (budget : LineBudget) (reason : Text) (octets : Bytes),
      budget.output.refusal = some reason -> 0 < budget.linesLeft ->
        ∃ after, budget.write octets = (.failed (.outputRefused reason), after) ∧
          after.output = budget.output ∧
          (after.linesLeft = budget.linesLeft ↔ endedLineCount octets = 0) ∧
          (after.isSpent = budget.isSpent ↔ endedLineCount octets < budget.linesLeft)) ∧
    (∀ (lines : Nat) (refusals : Nat -> Option Text) (output : Output) (table : Table)
        (layout : Layout) (feed : Feed), 0 < lines ->
      let told := run (LineBudget.faltering refusals).recorded table layout feed
        ((.ofOutput output lines, 0), [])
      ∀ before octets result after reason,
        told.state.2 = before ++ .write octets result :: after ->
        refusals before.offered.length = some reason ->
          result = .failed (.outputRefused reason) ∧
          told.result =
            if lines ≤ endedLineCount (before.offered.flatten ++ octets) then
              .ok (rowsTaken layout before).length
            else .error (.unwritten (.outputRefused reason))) ∧
    ∀ (log : Journal) (output : Output) (table : Table) (asRecords : Bool) (width : Int)
        (feed : Feed),
      (toScreen sink (.unavailable log) output table asRecords width feed).result =
        (run (LineBudget.faltering fun _ => output.refusal) table
          (Layout.ofTable asRecords width table) feed
          (.ofOutput output LineBudget.usual, 0)).result := by
  refine ⟨?_, ?_, toScreen_faltering sink⟩
  · intro budget reason octets refuses left
    exact LineBudget.exists_write_refused refuses left octets
  · intro lines refusals output table layout feed positive
    exact run_refused positive refusals output table layout feed

/-- A run of one record with so many lines, at an output that refuses everything. -/
def refusedRun (reason : Text) (lines : Nat) : Run ((LineBudget × Nat) × History) :=
  let table := Table.ofSecret (.clock .utc)
  run (LineBudget.faltering fun _ => some reason).recorded table (.records table.header)
    (.gives [] (readBy (some halfPair)) (.done [])) ((.ofOutput .fresh lines, 0), [])

/-- Its record is one line, which is refused, and whether that was the last line is asked. -/
theorem transcript_refusedRun (reason : Text) (left : Nat) :
    ∃ octets, endedLineCount octets = 1 ∧ (refusedRun reason (left + 1)).state.2 =
      [.poll false] ++ .write octets (.failed (.outputRefused reason)) ::
        [.poll (decide (left = 0)), .close] := by
  obtain ⟨octets, line⟩ := rowLine_records
    (show (Table.ofSecret (.clock .utc)).row (readBy (some halfPair)) = .ok _ from rfl)
  obtain ⟨cells, text, mapped, laid, encoded⟩ := rowLine_eq_ok.mp line
  have one := endedLineCount_rowLine_records line
  have unspent : (LineBudget.ofOutput .fresh (left + 1 : Nat)).isSpent = false :=
    decide_eq_false (Int.natCast_ne_zero.mpr left.succ_ne_zero)
  have refused : LineBudget.write octets
      ((LineBudget.ofOutput .fresh (left + 1 : Nat)).refusing (some reason)) =
        (.failed (.outputRefused reason), ⟨⟨[], some reason, 0⟩, left⟩) := by
    have rest : max 0 (((left + 1 : Nat) : Int) - (1 : Nat)) = left := by omega
    rw [LineBudget.write_refused rfl (Int.natCast_pos.mpr left.succ_pos), one]
    simp only [LineBudget.refusing, LineBudget.ofOutput, Output.fresh, rest]
  have spent : LineBudget.isSpent ⟨⟨[], some reason, 0⟩, left⟩ = decide (left = 0) := by
    simp [LineBudget.isSpent]
  refine ⟨octets, one, ?_⟩
  cases last : decide (left = 0) <;>
    simp only [refusedRun, run, writeAll_eq, Layout.showsHeader, writeRows, Table.behind_zero,
      writeRow, rowText, mapped, laid, mapError_ok, lineOctets_eq, encoded, write, Sink.recorded,
      LineBudget.faltering, unspent, refused, spent, last, Run.after, Run.pulling, Run.stop] <;>
    rfl

/-- A record that is refused when two lines are left ends its run as a fault. -/
theorem refusals_surface_second :
    let reason : Text := "No space left on device"
    let budget : LineBudget := ⟨⟨[], some reason, 0⟩, 2⟩
    (∃ after, budget.write [97, 10] = (.failed (.outputRefused reason), after) ∧
      after.isSpent = budget.isSpent) ∧
    ∃ octets, (refusedRun reason 2).state.2 =
        [.poll false] ++ .write octets (.failed (.outputRefused reason)) :: [.poll false, .close] ∧
      (refusedRun reason 2).result = .error (.unwritten (.outputRefused reason)) := by
  intro reason budget
  obtain ⟨single, whole, -⟩ := refusals_surface_iff PagerProcess.sink
  obtain ⟨after, answer, -, -, spent⟩ := single budget reason [97, 10] rfl (by decide)
  obtain ⟨octets, one, parts⟩ := transcript_refusedRun reason 1
  have comes := (whole 2 (fun _ => some reason) .fresh _ _ _ (by decide) [.poll false] octets _ _
    reason parts rfl).2
  rw [if_neg (by simp [one])] at comes
  exact ⟨⟨after, answer, spent.mpr (by decide)⟩, octets, parts, comes⟩

/-- A write that is refused when it would have spent the last line leaves the sink closed, and
the run that made it returns as if its reader had left. -/
theorem refused_write_closes :
    let reason : Text := "No space left on device"
    let budget : LineBudget := ⟨⟨[], some reason, 0⟩, 1⟩
    (∃ after, budget.write [97, 10] = (.failed (.outputRefused reason), after) ∧
      budget.linesLeft = 1 ∧ after.linesLeft = 0 ∧
      LineBudget.sink.isClosed budget = (false, budget) ∧
      LineBudget.sink.isClosed after = (true, after)) ∧
    (refusedRun reason 1).result = .ok 0 := by
  intro reason budget
  obtain ⟨octets, one, parts⟩ := transcript_refusedRun reason 0
  have comes := (run_refused (by decide) (fun _ => some reason) .fresh _ _ _ [.poll false] octets _
    _ reason parts rfl).2
  rw [if_pos (by simp [one])] at comes
  exact ⟨⟨_, rfl, rfl, rfl, rfl, rfl⟩, comes⟩

end Render

end AuditTrail
