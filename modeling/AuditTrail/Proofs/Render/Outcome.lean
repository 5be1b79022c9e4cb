import AuditTrail.Proofs.Pager.Open
import AuditTrail.Proofs.Render.Carry
import AuditTrail.Proofs.Render.Order

/-!
# What a run comes to when nothing stops it

Over a sink that stays open and takes every write, a run is decided by the log alone: it writes
the lines before the first fault and ends as that fault, the source or the number of events
says. `outcome` and `writableLines` give these without a sink, and `run_of_keeps` says that
every such sink comes to them.
-/

namespace AuditTrail

namespace Render

variable {State : Type}

/-- The lines before the first that is a fault, and that fault. -/
def untilFault : List (Except RenderFault Bytes) -> List Bytes × Option RenderFault
  | [] => ([], none)
  | .error fault :: _ => ([], some fault)
  | .ok octets :: rest => (octets :: (untilFault rest).1, (untilFault rest).2)

/-- How the rows of a feed end behind `rows` rows, given the first fault among its lines. -/
def ending (rows : Nat) (feed : Feed) : Option RenderFault -> Except RenderFault Nat
  | some fault => .error fault
  | none =>
    match feed.fault? with
    | some fault => .error (.source fault)
    | none => .ok (rows + feed.events.length)

/-- The lines of a log that can be written. -/
def writableLines (table : Table) (layout : Layout) (feed : Feed) : List Bytes :=
  (untilFault (plannedLines table layout feed)).1

/-- What comes of writing a log. -/
def outcome (table : Table) (layout : Layout) (feed : Feed) : Except RenderFault Nat :=
  ending 0 feed (untilFault (plannedLines table layout feed)).2

/-- One event more is one row more. -/
@[simp] theorem ending_gives (rows : Nat) (before : Journal) (event : Event) (rest : Feed)
    (fault : Option RenderFault) :
    ending rows (.gives before event rest) fault = ending (rows + 1) rest fault := by
  cases fault with
  | some fault => rfl
  | none =>
      simp only [ending, Feed.fault?, Feed.events, List.length_cons]
      rw [Nat.add_assoc, Nat.add_comm 1]

/-- Only a fault of a line can be that a line cannot be written. -/
theorem ending_ne_unwritable {found : Option RenderFault}
    (other : ∀ fault, found ≠ some (.unwritable fault)) (rows : Nat) (feed : Feed)
    (fault : Utf8.Unwritable) : ending rows feed found ≠ .error (.unwritable fault) := by
  intro same
  cases found with
  | some first =>
      injection same with same
      exact other fault (congrArg some same)
  | none =>
      simp only [ending] at same
      split at same <;> cases same

/-- Without a header the rows alone decide what a log comes to. -/
theorem outcome_of_bare (table : Table) {layout : Layout} (hides : layout.showsHeader = false)
    (feed : Feed) :
    let planned := untilFault (rowLines table layout 0 feed.events)
    outcome table layout feed = ending 0 feed planned.2 ∧
      (writableLines table layout feed).drop (headerCount layout) = planned.1 := by
  simp [outcome, writableLines, plannedLines, headerCount, hides]

/-- Below a header that has a line, too, the rows alone decide it. -/
theorem outcome_of_headed {table : Table} {layout : Layout} {octets : Bytes}
    (shows : layout.showsHeader = true) (line : headerLine table layout = .ok octets)
    (feed : Feed) :
    let planned := untilFault (rowLines table layout 0 feed.events)
    outcome table layout feed = ending 0 feed planned.2 ∧
      (writableLines table layout feed).drop (headerCount layout) = planned.1 := by
  simp [outcome, writableLines, plannedLines, headerCount, shows, line, untilFault]

/-- Below a header that has none, nothing can be written. -/
theorem outcome_of_unheaded {table : Table} {layout : Layout} {fault : RenderFault}
    (shows : layout.showsHeader = true) (failed : headerLine table layout = .error fault)
    (feed : Feed) :
    outcome table layout feed = .error fault ∧ writableLines table layout feed = [] := by
  simp [outcome, writableLines, plannedLines, shows, failed, untilFault, ending]

/-! ## Runs over a sink that keeps all -/

section

variable {sink : Sink State} {shows : List Bytes -> State -> Prop} (keeps : sink.Keeps shows)
include keeps

/-- A row goes on behind its line, or its fault ends the run. -/
theorem writeRow_of_keeps (table : Table) (layout : Layout) (rows : Nat) (event : Event)
    (next : State -> Run State) {lines : List Bytes} {state : State}
    (shown : shows lines state) :
    match rowLine table layout event with
    | .error fault => ∃ state', shows lines state' ∧
        writeRow sink table layout rows event next state = .stop (.error fault) [] state'
    | .ok octets => ∃ state', shows (lines ++ [octets]) state' ∧
        writeRow sink table layout rows event next state = next state' := by
  unfold writeRow rowLine
  cases rowText table layout event with
  | error fault => exact ⟨state, shown, rfl⟩
  | ok text =>
      obtain ⟨polled, answer, shownPolled⟩ := keeps.isClosed shown
      cases encoded : lineOf text with
      | error fault =>
          simp only [Except.bind, lineOctets_eq, encoded, answer]
          exact ⟨polled, shownPolled, rfl⟩
      | ok octets =>
          obtain ⟨taken, state', written, shownWritten⟩ := keeps.write shownPolled octets
          simp only [Except.bind, lineOctets_eq, encoded, answer, write, written]
          exact ⟨state', shownWritten, rfl⟩

/-- The rows of a feed end as its lines and its source say. -/
theorem writeRows_of_keeps (table : Table) (layout : Layout) (feed : Feed) (rows : Nat)
    {lines : List Bytes} {state : State} (shown : shows lines state) :
    (writeRows sink table layout feed rows state).result =
        ending rows feed (untilFault (rowLines table layout rows feed.events)).2 ∧
      shows (lines ++ (untilFault (rowLines table layout rows feed.events)).1)
        (writeRows sink table layout feed rows state).state := by
  induction feed generalizing rows lines state with
  | done journal =>
      simpa [writeRows, Run.stop, Feed.events, rowLines, untilFault, ending, Feed.fault?]
  | failed journal fault =>
      simpa [writeRows, Run.stop, Feed.events, rowLines, untilFault, ending, Feed.fault?]
  | gives journal event rest inductionHypothesis =>
      simp only [writeRows, Run.after, Run.pulling, Feed.events, rowLines, ending_gives]
      have row := writeRow_of_keeps keeps (table.behind rows) layout rows event
        (writeRows sink table layout rest (rows + 1)) shown
      cases line : rowLine (table.behind rows) layout event with
      | error fault =>
          rw [line] at row
          obtain ⟨state', shown', ends⟩ := row
          simpa [ends, Run.stop, untilFault, ending] using shown'
      | ok octets =>
          rw [line] at row
          obtain ⟨state', shown', goesOn⟩ := row
          simpa [goesOn, untilFault] using inductionHypothesis (rows + 1) shown'

/-- A run over a sink that keeps all comes to the outcome of its log, and before it is closed
the sink shows the lines that can be written. -/
theorem run_of_keeps (table : Table) (layout : Layout) (feed : Feed) {state : State}
    (shown : shows [] state) :
    (run sink table layout feed state).result = outcome table layout feed ∧
      ∃ last, shows (writableLines table layout feed) last ∧
        (run sink table layout feed state).state = sink.close last := by
  simp only [run, writeAll_eq, outcome, writableLines, plannedLines]
  cases layout.showsHeader with
  | false =>
      obtain ⟨result, last⟩ := writeRows_of_keeps keeps table layout feed 0 shown
      exact ⟨result, _, last, rfl⟩
  | true =>
      simp only [if_true, List.singleton_append]
      cases headerLine table layout with
      | error fault => exact ⟨rfl, state, shown, rfl⟩
      | ok octets =>
          obtain ⟨taken, state', written, shownHeader⟩ := keeps.write shown octets
          obtain ⟨result, last⟩ := writeRows_of_keeps keeps table layout feed 0 shownHeader
          simp only [write, written, untilFault]
          exact ⟨result, _, last, rfl⟩

end

end Render

end AuditTrail
