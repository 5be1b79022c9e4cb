import AuditTrail.Proofs.Pager.Transcript
import AuditTrail.Proofs.Text.Writable
import AuditTrail.Render

/-!
# Courses of a run

Which histories a run can have, whatever its sink answers. A course says for every event how
its row ended the run or was written, and so accounts for each way out of the loop. It does
not mention the state of a sink.

`run_course` gives every run over a recorded sink its course. What a run does in which order is
then shown by induction on courses, without a look at the program.
-/

namespace AuditTrail.Render

variable {State : Type}

/-- The line of a text: its octets in UTF-8 and the end of the line, if it has no surrogate. -/
def lineOf (text : Text) : Except RenderFault Bytes :=
  match Utf8.firstUnwritable? text with
  | some fault => .error (.unwritable fault)
  | none => .ok (text.flatMap Utf8.encodeCodePoint ++ [lineEnd])

/-- What is written of a text is its line. -/
@[simp] theorem lineOctets_eq (text : Text) : lineOctets text = lineOf text := by
  have newline : Text.IsWritable "\n" := Text.isWritable_ofString (by simp)
  have found := Utf8.firstUnwritable?_append text newline
  unfold lineOctets lineOf Utf8.encode?
  rw [found]
  cases Utf8.firstUnwritable? text with
  | some fault => rfl
  | none =>
      simp only [List.flatMap_append]
      rfl

/-- The line of an event's row. -/
def rowLine (table : Table) (layout : Layout) (event : Event) : Except RenderFault Bytes :=
  (rowText table layout event).bind lineOf

/-- The lines of events behind so many rows. -/
def rowLines (table : Table) (layout : Layout) :
    (rows : Nat) -> List Event -> List (Except RenderFault Bytes)
  | _, [] => []
  | rows, event :: rest =>
    rowLine (table.behind rows) layout event :: rowLines table layout (rows + 1) rest

/-- A line of events is the line of one of them, behind as many rows as there are before it. -/
theorem exists_of_mem_rowLines {table : Table} {layout : Layout} {rows : Nat}
    {events : List Event} {line : Except RenderFault Bytes}
    (member : line ∈ rowLines table layout rows events) :
    ∃ earlier, ∃ event ∈ events, rowLine (table.behind earlier) layout event = line := by
  induction events generalizing rows with
  | nil => simp [rowLines] at member
  | cons event rest inductionHypothesis =>
      rcases List.mem_cons.mp member with rfl | later
      · exact ⟨rows, event, List.mem_cons_self, rfl⟩
      · obtain ⟨earlier, other, inside, same⟩ := inductionHypothesis later
        exact ⟨earlier, other, List.mem_cons_of_mem _ inside, same⟩

/-- The line of the header. -/
def headerLine (table : Table) (layout : Layout) : Except RenderFault Bytes :=
  ((layout.row table.header).mapError .mismatch).bind lineOf

@[simp] theorem mapError_error {Fault Fault' Value : Type} (rename : Fault -> Fault')
    (fault : Fault) :
    (Except.error fault : Except Fault Value).mapError rename = .error (rename fault) := rfl

@[simp] theorem mapError_ok {Fault Fault' Value : Type} (rename : Fault -> Fault')
    (value : Value) :
    (Except.ok value : Except Fault Value).mapError rename = .ok value := rfl

/-- A line of a row comes from the cells of its event. -/
theorem rowLine_eq_ok {table : Table} {layout : Layout} {event : Event} {octets : Bytes} :
    rowLine table layout event = .ok octets ↔
      ∃ cells text, table.row event = .ok cells ∧ layout.row cells = .ok text ∧
        lineOf text = .ok octets := by
  unfold rowLine rowText
  cases table.row event with
  | error fault => simp [Except.bind]
  | ok cells =>
      cases laid : layout.row cells with
      | error fault => simp [Except.bind, laid]
      | ok text => simp [Except.bind, laid]

/-- The line of a header comes from the names of the columns. -/
theorem headerLine_eq_ok {table : Table} {layout : Layout} {octets : Bytes} :
    headerLine table layout = .ok octets ↔
      ∃ text, layout.row table.header = .ok text ∧ lineOf text = .ok octets := by
  unfold headerLine
  cases layout.row table.header with
  | error fault => simp [Except.bind]
  | ok text => simp [Except.bind]

/-- Whether a header is shown, and what its line is, decides how the writing begins. -/
theorem writeAll_eq (sink : Sink State) (table : Table) (layout : Layout) (feed : Feed)
    (state : State) :
    writeAll sink table layout feed state =
      if layout.showsHeader then
        match headerLine table layout with
        | .error fault => .stop (.error fault) [] state
        | .ok octets => write sink 0 octets (writeRows sink table layout feed 0) state
      else writeRows sink table layout feed 0 state := by
  unfold writeAll headerLine
  split
  · cases layout.row table.header with
    | error fault => rfl
    | ok header =>
        cases encoded : lineOf header with
        | error fault => simp [Except.bind, encoded]
        | ok octets => simp [Except.bind, encoded]
  · rfl

/-- How a run ends at a write that does not succeed, `rows` rows being written before. -/
inductive WriteStop (rows : Nat) (octets : Bytes) : History -> Except RenderFault Nat -> Prop where
  /-- The lines that the sink takes are spent. -/
  | exhausted (taken : Nat) :
      WriteStop rows octets [.write octets (.exhausted taken)] (.ok rows)
  /-- The sink had been closed by its writer. -/
  | afterClose : WriteStop rows octets [.write octets .afterClose] (.error .afterClose)
  /-- The write failed because the reader had left. -/
  | left (fault : WriteFault) :
      WriteStop rows octets [.write octets (.failed fault), .poll true] (.ok rows)
  /-- The write failed though the reader was still there. -/
  | refused (fault : WriteFault) :
      WriteStop rows octets [.write octets (.failed fault), .poll false]
        (.error (.unwritten fault))

/-- How a run ends at an event that has been pulled, `rows` rows being written before. -/
inductive RowStop (table : Table) (layout : Layout) (rows : Nat) (event : Event) :
    History -> Except RenderFault Nat -> Prop where
  | noText {fault : RenderFault} (failed : rowText table layout event = .error fault) :
      RowStop table layout rows event [] (.error fault)
  | left {text : Text} (laid : rowText table layout event = .ok text) :
      RowStop table layout rows event [.poll true] (.ok rows)
  | noOctets {text : Text} {fault : RenderFault} (laid : rowText table layout event = .ok text)
      (failed : lineOf text = .error fault) :
      RowStop table layout rows event [.poll false] (.error fault)
  | notTaken {octets : Bytes} {acts : History} {result : Except RenderFault Nat}
      (line : rowLine table layout event = .ok octets)
      (stop : WriteStop rows octets acts result) :
      RowStop table layout rows event (.poll false :: acts) result

/-- What a run does with a feed from `rows` written rows on, until it closes the sink. -/
inductive RowCourse (table : Table) (layout : Layout) :
    Feed -> (rows : Nat) -> History -> Except RenderFault Nat -> Prop where
  | done {before : Journal} {rows : Nat} :
      RowCourse table layout (.done before) rows [] (.ok rows)
  | failed {before : Journal} {fault : SourceFault} {rows : Nat} :
      RowCourse table layout (.failed before fault) rows [] (.error (.source fault))
  | stopped {before : Journal} {event : Event} {rest : Feed} {rows : Nat} {acts : History}
      {result : Except RenderFault Nat}
      (stop : RowStop (table.behind rows) layout rows event acts result) :
      RowCourse table layout (.gives before event rest) rows (.pull event :: acts) result
  | wrote {before : Journal} {event : Event} {rest : Feed} {rows taken : Nat} {octets : Bytes}
      {acts : History} {result : Except RenderFault Nat}
      (line : rowLine (table.behind rows) layout event = .ok octets)
      (later : RowCourse table layout rest (rows + 1) acts result) :
      RowCourse table layout (.gives before event rest) rows
        (.pull event :: .poll false :: .write octets (.written taken) :: acts) result

/-- What a run does once it has its sink. -/
inductive Course (table : Table) (layout : Layout) (feed : Feed) :
    History -> Except RenderFault Nat -> Prop where
  | bare {acts : History} {result : Except RenderFault Nat}
      (hides : layout.showsHeader = false)
      (rows : RowCourse table layout feed 0 acts result) :
      Course table layout feed (acts ++ [.close]) result
  | noHeader {fault : RenderFault} (shows : layout.showsHeader = true)
      (failed : headerLine table layout = .error fault) :
      Course table layout feed [.close] (.error fault)
  | headerNotTaken {octets : Bytes} {acts : History} {result : Except RenderFault Nat}
      (shows : layout.showsHeader = true) (line : headerLine table layout = .ok octets)
      (stop : WriteStop 0 octets acts result) :
      Course table layout feed (acts ++ [.close]) result
  | headed {octets : Bytes} {taken : Nat} {acts : History} {result : Except RenderFault Nat}
      (shows : layout.showsHeader = true) (line : headerLine table layout = .ok octets)
      (rows : RowCourse table layout feed 0 acts result) :
      Course table layout feed (.write octets (.written taken) :: acts ++ [.close]) result

/-! ## Every run has a course -/

/-- A write over a recorded sink succeeds, or it ends the run. -/
theorem write_recorded (sink : Sink State) (rows : Nat) (octets : Bytes)
    (next : State × History -> Run (State × History)) (state : State) (before : History) :
    (∃ taken state', write sink.recorded rows octets next (state, before) =
      next (state', before ++ [.write octets (.written taken)])) ∨
    ∃ acts result journal state', WriteStop rows octets acts result ∧
      write sink.recorded rows octets next (state, before) =
        .stop result journal (state', before ++ acts) := by
  simp only [write, Sink.recorded]
  cases answer : sink.write octets state with
  | mk result state' =>
      cases result with
      | written taken => exact .inl ⟨taken, state', rfl⟩
      | exhausted taken => exact .inr ⟨_, _, _, state', .exhausted taken, rfl⟩
      | afterClose => exact .inr ⟨_, _, _, state', .afterClose, rfl⟩
      | failed fault =>
          refine .inr ?_
          simp only
          cases closed : sink.isClosed state' with
          | mk answer last =>
              cases answer with
              | true => exact ⟨_, _, Journal.debug (closedLine rows), last, .left fault, by simp⟩
              | false => exact ⟨_, _, [], last, .refused fault, by simp⟩

/-- An event's row over a recorded sink is written, or it ends the run. -/
theorem writeRow_recorded (sink : Sink State) (table : Table) (layout : Layout) (rows : Nat)
    (event : Event) (next : State × History -> Run (State × History)) (state : State)
    (before : History) :
    (∃ octets taken state', rowLine table layout event = .ok octets ∧
      writeRow sink.recorded table layout rows event next (state, before) =
        next (state', before ++ [.poll false, .write octets (.written taken)])) ∨
    ∃ acts result journal state', RowStop table layout rows event acts result ∧
      writeRow sink.recorded table layout rows event next (state, before) =
        .stop result journal (state', before ++ acts) := by
  unfold writeRow
  cases laid : rowText table layout event with
  | error fault => exact .inr ⟨[], _, [], state, .noText laid, by simp⟩
  | ok text =>
      cases closed : sink.isClosed state with
      | mk answer polled =>
          have asked : sink.recorded.isClosed (state, before) =
              (answer, polled, before ++ [.poll answer]) := by
            simp [Sink.recorded, closed]
          cases answer with
          | true =>
              refine .inr ⟨_, _, Journal.debug (closedLine rows), polled, .left laid, ?_⟩
              simp [asked]
          | false =>
              cases encoded : lineOf text with
              | error fault =>
                  refine .inr ⟨_, _, [], polled, .noOctets laid encoded, ?_⟩
                  simp [asked, encoded]
              | ok octets =>
                  have line : rowLine table layout event = .ok octets := by
                    simp [rowLine, laid, encoded, Except.bind]
                  simp only [asked, lineOctets_eq, encoded]
                  rcases write_recorded sink rows octets next polled (before ++ [.poll false])
                    with ⟨taken, state', goesOn⟩ | ⟨acts, result, journal, state', stop, ends⟩
                  · refine .inl ⟨octets, taken, state', line, ?_⟩
                    rw [goesOn, List.append_assoc]
                    rfl
                  · refine .inr ⟨_, result, journal, state', .notTaken line stop, ?_⟩
                    rw [ends, List.append_assoc]
                    rfl

/-- A write that ends the run is a matter of the sink alone. -/
theorem WriteStop.atSink {rows : Nat} {octets : Bytes} {acts : History}
    {result : Except RenderFault Nat} (stop : WriteStop rows octets acts result) :
    acts.atSink = acts ∧ acts.pulled = [] := by
  cases stop <;> exact ⟨rfl, rfl⟩

/-- Once its event has been pulled, a row is a matter of the sink alone. -/
theorem RowStop.atSink {table : Table} {layout : Layout} {rows : Nat} {event : Event}
    {acts : History} {result : Except RenderFault Nat}
    (stop : RowStop table layout rows event acts result) :
    acts.atSink = acts ∧ acts.pulled = [] := by
  cases stop with
  | noText | left | noOctets => exact ⟨rfl, rfl⟩
  | notTaken line stop =>
      have inner := stop.atSink
      simp [inner]

/-- The rows of a feed over a recorded sink have a course. -/
theorem writeRows_course (sink : Sink State) (table : Table) (layout : Layout) (feed : Feed)
    (rows : Nat) (state : State) (before : History) :
    ∃ acts, RowCourse table layout feed rows acts
        (writeRows sink.recorded table layout feed rows (state, before)).result ∧
      (writeRows sink.recorded table layout feed rows (state, before)).state.2 =
        before ++ acts.atSink ∧
      (writeRows sink.recorded table layout feed rows (state, before)).pulled =
        acts.pulled.length := by
  -- The transcript so far is general, since the rest of the feed starts behind this row's part.
  induction feed generalizing rows state before with
  | done journal => exact ⟨[], .done, by simp [writeRows, Run.stop], rfl⟩
  | failed journal fault =>
      exact ⟨[], .failed, by simp [writeRows, Run.stop], rfl⟩
  | gives journal event rest inductionHypothesis =>
      simp only [writeRows, Run.after, Run.pulling]
      rcases writeRow_recorded sink (table.behind rows) layout rows event
        (writeRows sink.recorded table layout rest (rows + 1)) state before with
        ⟨octets, taken, state', line, goesOn⟩ | ⟨acts, result, ended, state', stop, ends⟩
      · obtain ⟨acts, course, told, counted⟩ := inductionHypothesis (rows + 1) state'
          (before ++ [.poll false, .write octets (.written taken)])
        rw [goesOn]
        refine ⟨.pull event :: .poll false :: .write octets (.written taken) :: acts,
          .wrote line course, ?_, ?_⟩
        · simp [told]
        · simp [counted]
      · rw [ends]
        refine ⟨_, .stopped stop, ?_, ?_⟩
        · simp [Run.stop, stop.atSink]
        · simp [Run.stop, stop.atSink]

/-- Every run over a recorded sink has a course, and the transcript is the sink's part of it. -/
theorem run_course (sink : Sink State) (table : Table) (layout : Layout) (feed : Feed)
    (state : State) :
    ∃ acts, Course table layout feed acts (run sink.recorded table layout feed (state, [])).result ∧
      (run sink.recorded table layout feed (state, [])).state.2 = acts.atSink ∧
      (run sink.recorded table layout feed (state, [])).pulled = acts.pulled.length := by
  have closing : ∀ ended, (sink.recorded.close ended).2 = ended.2 ++ [.close] := fun _ => rfl
  simp only [run, writeAll_eq, closing]
  cases shows : layout.showsHeader with
  | false =>
      obtain ⟨acts, course, told, counted⟩ := writeRows_course sink table layout feed 0 state []
      exact ⟨_, .bare shows course, by simp [told], by simp [counted]⟩
  | true =>
      simp only [if_true]
      cases line : headerLine table layout with
      | error fault =>
          exact ⟨_, .noHeader shows line, by simp [Run.stop], by simp [Run.stop]⟩
      | ok octets =>
          simp only
          rcases write_recorded sink 0 octets (writeRows sink.recorded table layout feed 0)
            state [] with ⟨taken, state', goesOn⟩ | ⟨acts, result, journal, state', stop, ends⟩
          · obtain ⟨acts, course, told, counted⟩ := writeRows_course sink table layout feed 0
              state' [.write octets (.written taken)]
            rw [goesOn]
            refine ⟨.write octets (.written taken) :: acts ++ [.close],
              .headed shows line course, ?_, ?_⟩
            · simp [told]
            · simp [counted]
          · rw [ends]
            refine ⟨_, .headerNotTaken shows line stop, ?_, ?_⟩
            · simp [Run.stop, stop.atSink]
            · simp [Run.stop, stop.atSink]

end AuditTrail.Render
