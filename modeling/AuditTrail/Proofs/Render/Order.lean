import AuditTrail.Proofs.Render.Carry
import AuditTrail.Proofs.Render.Course
import Mathlib.Data.List.Infix

/-!
# The order of a run

Whatever a sink answers, it is offered the lines of the log in their order and each of them
whole, a row only upon the answer that it is not closed. The count that a run returns is that
of the rows it took, and no more than one event is pulled that does not become a row.

Each of these is first shown of the courses of the rows by induction, from one written row to
the next, and then of the header in front of them. `toScreen_isOrderly` puts them together for
a run over any sink.
-/

namespace AuditTrail.Render

variable {State : Type}

/-- How many lines stand above the rows. -/
def headerCount (layout : Layout) : Nat := if layout.showsHeader then 1 else 0

/-- The lines of a log in their order: the header, if the layout shows one, and a row for each
event. A line may be a fault instead. -/
def plannedLines (table : Table) (layout : Layout) (feed : Feed) :
    List (Except RenderFault Bytes) :=
  (if layout.showsHeader then [headerLine table layout] else []) ++
    rowLines table layout 0 feed.events

/-- The rows among the lines that a sink took. -/
def rowsTaken (layout : Layout) (transcript : History) : List Bytes :=
  transcript.taken.drop (headerCount layout)

/-- Every write follows directly upon the answer that the sink is not closed. -/
def AsksFirst (transcript : History) : Prop :=
  ∀ before octets result after, transcript = before ++ .write octets result :: after ->
    ∃ earlier, before = earlier ++ [.poll false]

/-- A transcript of an orderly run, with the result of the run and the events it pulled. -/
structure IsOrderly (table : Table) (layout : Layout) (feed : Feed) (transcript : History)
    (result : Except RenderFault Nat) (pulled : Nat) : Prop where
  /-- The writes that succeed are the first lines of the log. -/
  lines : transcript.taken.map .ok <+: plannedLines table layout feed
  /-- Only the header is written unasked, and nothing comes before it. -/
  asked : ∀ before octets writeResult after,
    transcript = before ++ .write octets writeResult :: after ->
      (before = [] ∧ layout.showsHeader = true) ∨ ∃ earlier, before = earlier ++ [.poll false]
  /-- The count that is returned is that of the rows. -/
  counted : ∀ rows, result = .ok rows -> rows = (rowsTaken layout transcript).length
  /-- At most one event is pulled for which no row is written. -/
  pulledFew : pulled ≤ (rowsTaken layout transcript).length + 1
  /-- No event is pulled when the header could not be written. -/
  pulledNone : layout.showsHeader = true -> transcript.taken = [] -> pulled = 0

/-! ## Asking first -/

/-- What is not a write may always come first. -/
theorem AsksFirst.cons {rest : History} (asks : AsksFirst rest) {act : Act}
    (other : ∀ octets result, act ≠ .write octets result) : AsksFirst (act :: rest) := by
  intro before octets result after split
  cases before with
  | nil =>
      injection split with same
      exact absurd same (other octets result)
  | cons first others =>
      injection split with same remainder
      obtain ⟨earlier, rfl⟩ := asks others octets result after remainder
      exact ⟨first :: earlier, rfl⟩

/-- A write may come upon the answer that the sink is not closed. -/
theorem AsksFirst.wrote {rest : History} (asks : AsksFirst rest) (octets : Bytes)
    (result : WriteResult) : AsksFirst (.poll false :: .write octets result :: rest) := by
  intro before octets' result' after split
  cases before with
  | nil => injection split with same; cases same
  | cons first others =>
      injection split with same remainder
      subst same
      cases others with
      | nil => exact ⟨[], rfl⟩
      | cons second others =>
          injection remainder with same remainder
          obtain ⟨earlier, rfl⟩ := asks others octets' result' after remainder
          exact ⟨.poll false :: second :: earlier, rfl⟩

/-- Without such an answer in front of them, only the very first act may be an unasked write. -/
theorem AsksFirst.tail {transcript : History} (asks : AsksFirst (.poll false :: transcript))
    {before after : History} {octets : Bytes} {result : WriteResult}
    (split : transcript = before ++ .write octets result :: after) :
    before = [] ∨ ∃ earlier, before = earlier ++ [.poll false] := by
  obtain ⟨earlier, shape⟩ := asks (.poll false :: before) octets result after (by simp [split])
  cases before with
  | nil => exact .inl rfl
  | cons first others =>
      cases earlier with
      | nil => simp at shape
      | cons other earlier =>
          injection shape with same remainder
          exact .inr ⟨earlier, remainder⟩

/-- Closing asks for nothing. -/
theorem asksFirst_close : AsksFirst [.close] := by
  refine AsksFirst.cons ?_ (by simp)
  intro before octets result after split
  simp at split

/-- A row that is not taken was offered upon the answer that the sink is not closed. -/
theorem WriteStop.asksFirst {rows : Nat} {octets : Bytes} {acts : History}
    {result : Except RenderFault Nat} (stop : WriteStop rows octets acts result) :
    AsksFirst (.poll false :: (acts ++ [.close])) := by
  cases stop with
  | exhausted | afterClose => exact asksFirst_close.wrote octets _
  | left | refused => exact (asksFirst_close.cons (by simp)).wrote octets _

/-- A row that ends the run was offered upon that answer, or not at all. -/
theorem RowStop.asksFirst {table : Table} {layout : Layout} {rows : Nat} {event : Event}
    {acts : History} {result : Except RenderFault Nat}
    (stop : RowStop table layout rows event acts result) : AsksFirst (acts ++ [.close]) := by
  cases stop with
  | noText => exact asksFirst_close
  | left | noOctets => exact asksFirst_close.cons (by simp)
  | notTaken line stop => exact stop.asksFirst

/-- All rows are offered upon that answer. -/
theorem RowCourse.asksFirst {table : Table} {layout : Layout} {feed : Feed} {rows : Nat}
    {acts : History} {result : Except RenderFault Nat}
    (course : RowCourse table layout feed rows acts result) :
    AsksFirst (acts.atSink ++ [.close]) := by
  induction course with
  | done | failed => exact asksFirst_close
  | stopped stop => simpa [stop.atSink] using stop.asksFirst
  | wrote line later inductionHypothesis => simpa using inductionHypothesis.wrote _ _

/-! ## Rows in their order -/

/-- At a write that ends the run, nothing is taken and these octets alone are offered. -/
theorem WriteStop.offered {rows : Nat} {octets : Bytes} {acts : History}
    {result : Except RenderFault Nat} (stop : WriteStop rows octets acts result) :
    acts.taken = [] ∧ acts.offered = [octets] ∧ ∀ total, result = .ok total -> total = rows := by
  cases stop <;> simp +contextual

/-- At a row that ends the run, nothing is taken, and no other line than the row's is
offered. -/
theorem RowStop.offered {table : Table} {layout : Layout} {rows : Nat} {event : Event}
    {acts : History} {result : Except RenderFault Nat}
    (stop : RowStop table layout rows event acts result) :
    acts.taken = [] ∧ acts.offered.map .ok <+: [rowLine table layout event] ∧
      ∀ total, result = .ok total -> total = rows := by
  cases stop with
  | noText | left | noOctets => simp +contextual
  | notTaken line stop =>
      obtain ⟨taken, offered, counted⟩ := stop.offered
      exact ⟨by simp [taken], by simp [offered, line], counted⟩

/-- The rows that are offered are the rows of the first events. -/
theorem RowCourse.offered_prefix {table : Table} {layout : Layout} {feed : Feed} {rows : Nat}
    {acts : History} {result : Except RenderFault Nat}
    (course : RowCourse table layout feed rows acts result) :
    acts.offered.map .ok <+: rowLines table layout rows feed.events := by
  induction course with
  | done | failed => exact List.prefix_rfl
  | stopped stop =>
      have first := stop.offered.2.1
      simpa [Feed.events, rowLines] using first.trans (List.prefix_append _ _)
  | wrote line later inductionHypothesis =>
      simpa [Feed.events, rowLines, line] using inductionHypothesis

/-- The rows that are taken are all that are offered but perhaps the last. -/
theorem RowCourse.taken_prefix {table : Table} {layout : Layout} {feed : Feed} {rows : Nat}
    {acts : History} {result : Except RenderFault Nat}
    (course : RowCourse table layout feed rows acts result) : acts.taken <+: acts.offered := by
  induction course with
  | done | failed => exact List.prefix_rfl
  | stopped stop => simp [stop.offered.1]
  | wrote line later inductionHypothesis => simpa using inductionHypothesis

/-- The rows that are taken are the rows of the first events. -/
theorem RowCourse.taken_rows {table : Table} {layout : Layout} {feed : Feed} {rows : Nat}
    {acts : History} {result : Except RenderFault Nat}
    (course : RowCourse table layout feed rows acts result) :
    acts.taken.map .ok <+: rowLines table layout rows feed.events :=
  (course.taken_prefix.map _).trans course.offered_prefix

/-- The rows that are taken are counted. -/
theorem RowCourse.counted {table : Table} {layout : Layout} {feed : Feed} {rows : Nat}
    {acts : History} {result : Except RenderFault Nat}
    (course : RowCourse table layout feed rows acts result) {total : Nat}
    (returned : result = .ok total) : total = rows + acts.taken.length := by
  induction course with
  | done => simpa [eq_comm] using returned
  | failed => cases returned
  | stopped stop => simp [stop.offered.1, stop.offered.2.2 total returned]
  | wrote line later inductionHypothesis =>
      have count := inductionHypothesis returned
      simp
      omega

/-- At most one event is pulled that does not become a row. -/
theorem RowCourse.pulled_le {table : Table} {layout : Layout} {feed : Feed} {rows : Nat}
    {acts : History} {result : Except RenderFault Nat}
    (course : RowCourse table layout feed rows acts result) :
    acts.pulled.length ≤ acts.taken.length + 1 := by
  induction course with
  | done | failed => simp
  | stopped stop => simp [stop.atSink.2]
  | wrote line later inductionHypothesis => simpa using inductionHypothesis

/-! ## Whole runs -/

/-- The lines that are offered are the first lines of the log. -/
theorem Course.offered_prefix {table : Table} {layout : Layout} {feed : Feed} {acts : History}
    {result : Except RenderFault Nat} (course : Course table layout feed acts result) :
    acts.offered.map .ok <+: plannedLines table layout feed := by
  cases course with
  | bare hides rows => simpa [plannedLines, hides] using rows.offered_prefix
  | noHeader => simp
  | headerNotTaken shows line stop => simp [plannedLines, shows, stop.offered.2.1, line]
  | headed shows line rows => simpa [plannedLines, shows, line] using rows.offered_prefix

/-- Every course of a run is orderly. -/
theorem Course.isOrderly {table : Table} {layout : Layout} {feed : Feed} {acts : History}
    {result : Except RenderFault Nat} (course : Course table layout feed acts result) :
    IsOrderly table layout feed acts.atSink result acts.pulled.length := by
  cases course with
  | bare hides rows =>
      refine ⟨?_, fun before octets writeResult after split => .inr ?_, fun total returned => ?_,
        ?_, ?_⟩
      · simpa [plannedLines, hides] using rows.taken_rows
      · exact rows.asksFirst before octets writeResult after (by simpa using split)
      · simpa [rowsTaken, headerCount, hides] using rows.counted returned
      · simpa [rowsTaken, headerCount, hides] using rows.pulled_le
      · simp [hides]
  | noHeader shows failed =>
      refine ⟨by simp, ?_, by simp, by simp, by simp⟩
      intro before octets writeResult after split
      exact .inr (asksFirst_close before octets writeResult after split)
  | headerNotTaken shows line stop =>
      obtain ⟨taken, -, counted⟩ := stop.offered
      refine ⟨by simp [taken], fun before octets writeResult after split => ?_,
        fun total returned => ?_, by simp [stop.atSink], by simp [stop.atSink]⟩
      · have asked := stop.asksFirst.tail (by simpa [stop.atSink] using split)
        exact asked.imp_left fun first => ⟨first, shows⟩
      · simp [rowsTaken, taken, counted total returned]
  | headed shows line rows =>
      refine ⟨?_, fun before octets writeResult after split => ?_, fun total returned => ?_, ?_,
        by simp⟩
      · simpa [plannedLines, shows, line] using rows.taken_rows
      · have asked := (rows.asksFirst.wrote _ _).tail (by simpa using split)
        exact asked.imp_left fun first => ⟨first, shows⟩
      · simpa [rowsTaken, headerCount, shows] using rows.counted returned
      · simpa [rowsTaken, headerCount, shows] using rows.pulled_le

/-- A run over any sink is orderly, and what it writes does not depend on being recorded. -/
theorem toScreen_isOrderly (sink : Sink State) (state : State) (log : Journal)
    (output : Output) (table : Table) (asRecords : Bool) (width : Int) (feed : Feed) :
    let run := toScreen sink (.started log state) output table asRecords width feed
    let told := toScreen sink.recorded (.started log (state, [])) output table asRecords width
      feed
    ∃ last transcript, run.state = some (.inl last) ∧
      told.state = some (.inl (last, transcript)) ∧
      IsOrderly table (Layout.ofTable asRecords width table) feed transcript run.result
        run.pulled := by
  simp only [toScreen_started]
  have erased := run_carried sink.recorded_carries table (Layout.ofTable asRecords width table)
    feed (state, [])
  obtain ⟨acts, course, told, counted⟩ :=
    run_course sink table (Layout.ofTable asRecords width table) feed state
  rw [erased]
  refine ⟨_, acts.atSink, rfl, ?_, ?_⟩
  · rw [← told]
    rfl
  · rw [Run.result_map, Run.pulled_map, counted]
    exact course.isOrderly

end AuditTrail.Render
