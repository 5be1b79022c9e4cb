import AuditTrail.Pager.Script
import AuditTrail.Proofs.Render.Modes

/-!
# When the reader leaves

A run asks whether the reader has left only when the next event has been pulled and its row has
been laid out. A reader who leaves for good behind some line therefore ends the run at the
next pull. The run returns the rows so far, unless this one pull fails or its event has no row.
What the feed holds behind it does not matter, and nothing more is written.

`RowCourse.leaving` shows this for a reader who has left already, `RowCourse.leaves` carries it
over the rows before, and `toScreen_leaves` adds the header and the sink.
-/

namespace AuditTrail

/-- The feed behind its first events. -/
def Feed.behind : Nat -> Feed -> Feed
  | 0, feed => feed
  | count + 1, .gives _ _ rest => rest.behind count
  | _ + 1, .done before => .done before
  | _ + 1, .failed before fault => .failed before fault

/-- Every row of a table finds its place in the layout that is made for the table. -/
theorem Layout.exists_row_ofTable {table : Table} {event : Event} {cells : List Text}
    (mapped : table.row event = .ok cells) (asRecords : Bool) (width : Int) :
    ∃ text, (Layout.ofTable asRecords width table).row cells = .ok text := by
  have full := Table.length_row mapped
  cases asRecords with
  | true => simp [Layout.ofTable, Layout.row, Table.header, full]
  | false => simp [Layout.ofTable, Layout.row, Layout.length_widths, full]

namespace Render

variable {State : Type} {table : Table} {layout : Layout} {feed : Feed}

/-- What a run comes to that learns at its next pull, behind `rows` rows, that the reader has
left. -/
def leaving (table : Table) (rows : Nat) : Feed -> Except RenderFault Nat
  | .done _ => .ok rows
  | .failed _ fault => .error (.source fault)
  | .gives _ event _ =>
    match (table.behind rows).row event with
    | .error fault => .error (.unmapped fault)
    | .ok _ => .ok rows

/-- Whoever asks in these acts learns that the reader has left. -/
def HasLeft (acts : History) : Prop := ∀ answer, .poll answer ∈ acts -> answer = true

/-- Nothing is asked when the sink is closed. -/
theorem hasLeft_append_close {acts : History} : HasLeft (acts ++ [.close]) ↔ HasLeft acts := by
  simp [HasLeft]

/-- The reader has not left when a row is written. -/
theorem not_hasLeft_of_poll {acts : History} (asked : .poll false ∈ acts) : ¬HasLeft acts :=
  fun left => Bool.noConfusion (left false asked)

/-! ## The rows -/

/-- Every row of an event has a text in the layout. -/
def LaysOut (table : Table) (layout : Layout) : Prop :=
  ∀ rows event cells, (table.behind rows).row event = .ok cells -> ∃ text, layout.row cells = .ok text

/-- A row that ends the run because the reader has left writes nothing. -/
theorem RowStop.leaving {rows : Nat} {event : Event} {acts : History}
    {result : Except RenderFault Nat} (laysOut : LaysOut table layout)
    (stop : RowStop (table.behind rows) layout rows event acts result) (left : HasLeft acts)
    (before : Journal) (rest : Feed) :
    result = leaving table rows (.gives before event rest) ∧ acts.offered = [] := by
  cases stop with
  | noText failed =>
      cases mapped : (table.behind rows).row event with
      | error fault =>
          simp only [rowText, mapped] at failed
          cases failed
          simp [Render.leaving, mapped]
      | ok cells =>
          obtain ⟨text, laid⟩ := laysOut rows event cells mapped
          simp [rowText, mapped, laid] at failed
  | left laid =>
      cases mapped : (table.behind rows).row event with
      | error fault => simp [rowText, mapped] at laid
      | ok cells => simp [Render.leaving, mapped]
  | noOctets | notTaken => exact absurd left (not_hasLeft_of_poll (by simp))

/-- When the reader has left already, one pull more decides what the rows come to. -/
theorem RowCourse.leaving {rows : Nat} {acts : History} {result : Except RenderFault Nat}
    (laysOut : LaysOut table layout) (course : RowCourse table layout feed rows acts result)
    (left : HasLeft acts) :
    result = leaving table rows feed ∧ acts.offered = [] ∧
      acts.pulled = feed.events.take 1 := by
  cases course with
  | done | failed => exact ⟨rfl, rfl, rfl⟩
  | @stopped before event rest _ inner _ stop =>
      have later : HasLeft inner := fun answer member => left answer (by simp [member])
      obtain ⟨comes, offered⟩ := stop.leaving laysOut later before rest
      exact ⟨comes, by simp [offered], by simp [stop.atSink, Feed.events]⟩
  | wrote => exact absurd left (not_hasLeft_of_poll (by simp))

/-- When the reader leaves for good behind a row, one pull more decides what the rows come to. -/
theorem RowCourse.leaves {rows : Nat} {acts before after : History}
    {result : Except RenderFault Nat} {octets : Bytes} {taken : Nat}
    (laysOut : LaysOut table layout) (course : RowCourse table layout feed rows acts result)
    (parts : acts = before ++ .write octets (.written taken) :: after) (left : HasLeft after) :
    let more := before.taken.length + 1
    result = Render.leaving table (rows + more) (feed.behind more) ∧ after.offered = [] ∧
      acts.pulled.length = more + ((feed.behind more).events.take 1).length := by
  induction course generalizing before with
  | done | failed => simp at parts
  | stopped stop => exact absurd (congrArg History.taken parts) (by simp [stop.offered.1])
  | wrote line later inductionHypothesis =>
      -- The write in question is this row's, or it stands among the rows behind it.
      match before, parts with
      | [.pull _, .poll _], parts =>
          cases parts
          obtain ⟨comes, offered, pulled⟩ := later.leaving laysOut left
          exact ⟨comes, offered, by simp [pulled, Feed.behind, Nat.add_comm]⟩
      | .pull _ :: .poll _ :: .write _ _ :: others, parts =>
          cases parts
          obtain ⟨comes, offered, pulled⟩ := inductionHypothesis rfl
          refine ⟨?_, offered, ?_⟩
          · simpa [Feed.behind, Nat.add_assoc, Nat.add_comm, Nat.add_left_comm] using comes
          · simp [Feed.behind] at pulled ⊢
            omega

/-! ## Whole runs -/

/-- What follows a write ends with the closing. -/
theorem exists_cut_of_close {acts before after : History} {octets : Bytes} {result : WriteResult}
    (parts : acts ++ [.close] = before ++ .write octets result :: after) :
    ∃ inner, after = inner ++ [.close] ∧ acts = before ++ .write octets result :: inner := by
  rcases List.eq_nil_or_concat' after with rfl | ⟨inner, last, rfl⟩
  · have ends := (List.append_inj' parts rfl).2
    simp at ends
  · have ends : acts ++ [.close] = before ++ .write octets result :: inner ++ [last] := by
      simpa using parts
    obtain ⟨same, closes⟩ := List.append_inj' ends rfl
    cases closes
    exact ⟨inner, rfl, same⟩

/-- When the reader leaves for good behind a line, one pull more decides what the run comes
to. -/
theorem Course.leaves {acts before after : History} {result : Except RenderFault Nat}
    {octets : Bytes} {taken : Nat} (laysOut : LaysOut table layout)
    (course : Course table layout feed acts result)
    (parts : acts = before ++ .write octets (.written taken) :: after) (left : HasLeft after) :
    let rows := (rowsTaken layout (before ++ [.write octets (.written taken)])).length
    result = leaving table rows (feed.behind rows) ∧ after.offered = [] ∧
      acts.pulled.length = rows + ((feed.behind rows).events.take 1).length := by
  cases course with
  | noHeader => exact absurd (congrArg History.taken parts) (by simp)
  | headerNotTaken shows line stop =>
      exact absurd (congrArg History.taken parts) (by simp [stop.offered.1])
  | bare hides rows =>
      obtain ⟨inner, rfl, rfl⟩ := exists_cut_of_close parts
      obtain ⟨comes, offered, pulled⟩ := rows.leaves laysOut rfl (hasLeft_append_close.mp left)
      simp only [rowsTaken, headerCount, hides]
      exact ⟨by simpa using comes, by simp [offered], by simpa using pulled⟩
  | headed shows line rows =>
      obtain ⟨inner, rfl, cut⟩ := exists_cut_of_close parts
      have later := hasLeft_append_close.mp left
      simp only [rowsTaken, headerCount, shows]
      cases before with
      | nil =>
          cases cut
          obtain ⟨comes, offered, pulled⟩ := rows.leaving laysOut later
          exact ⟨by simpa [Feed.behind] using comes, by simp [offered],
            by simp [pulled, Feed.behind]⟩
      | cons first others =>
          cases cut
          obtain ⟨comes, offered, pulled⟩ := rows.leaves laysOut rfl later
          exact ⟨by simpa using comes, by simp [offered], by simpa using pulled⟩

/-- When the reader leaves for good behind a line, the run returns the rows up to it, unless
the one pull that follows fails or gives an event without a row. Nothing else of the feed is
pulled, and nothing more is written. -/
theorem toScreen_leaves (sink : Sink State) (log : Journal) (state : State) (output : Output)
    (table : Table) (asRecords : Bool) (width : Int) (feed : Feed) {last : State}
    {before after : History} {octets : Bytes} {taken : Nat}
    (shown : (toScreen sink.recorded (.started log (state, [])) output table asRecords width
      feed).state = some (.inl (last, before ++ .write octets (.written taken) :: after)))
    (left : HasLeft after) :
    let run := toScreen sink (.started log state) output table asRecords width feed
    let rows := (rowsTaken (Layout.ofTable asRecords width table)
      (before ++ [.write octets (.written taken)])).length
    run.result = leaving table rows (feed.behind rows) ∧ after.offered = [] ∧
      run.pulled = rows + ((feed.behind rows).events.take 1).length := by
  simp only [toScreen_started] at shown ⊢
  have erased := run_carried sink.recorded_carries table (Layout.ofTable asRecords width table)
    feed (state, [])
  obtain ⟨acts, course, told, counted⟩ :=
    run_course sink table (Layout.ofTable asRecords width table) feed state
  have transcript : acts.atSink = before ++ .write octets (.written taken) :: after := by
    rw [← told]
    injection shown with shown
    injection shown with shown
    rw [shown]
  obtain ⟨earlier, later, rfl, atSink, rfl⟩ := History.exists_cut transcript
  have laysOut : LaysOut table (Layout.ofTable asRecords width table) :=
    fun _ _ _ mapped => Layout.exists_row_ofTable mapped asRecords width
  obtain ⟨comes, offered, pulled⟩ := course.leaves laysOut rfl
    (fun answer member => left answer (by simpa [History.atSink] using member))
  rw [erased]
  subst atSink
  simp only [Run.result_map, Run.pulled_map, counted]
  refine ⟨?_, by simpa using offered, ?_⟩
  · simpa [rowsTaken] using comes
  · simpa [rowsTaken] using pulled

/-- A reader who leaves for good behind the first line. -/
def leavesAfterOne : Script := ⟨some 1, none, false, []⟩

/-- An account with a name that can be written. -/
def named : Actor where
  kind := "user"
  id := []
  username := "alice"
  serviceId := []

/-- The records of a feed whose first event becomes the only row that the reader sees. -/
theorem toScreen_leavesAfterOne (rest : Feed) :
    ∃ octets, let shown : Rehearsal := ⟨1, [octets], false, 0⟩
      let table := Table.ofSecret (.clock .utc)
      let sink := leavesAfterOne.sink.recorded
      let told := toScreen sink (.started [] (.fresh, [])) .fresh table true 80
        (.gives [] (readBy (some named)) rest)
      let later := writeRows sink table (Layout.ofTable true 80 table) rest 1
        (shown, [.poll false, .write octets (.written octets.length)])
      told.result = later.result ∧ told.state = some (.inl (sink.close later.state)) := by
  obtain ⟨octets, line⟩ := rowLine_records
    (show (Table.ofSecret (.clock .utc)).row (readBy (some named)) = .ok _ from rfl)
  obtain ⟨cells, text, mapped, laid, encoded⟩ := rowLine_eq_ok.mp line
  refine ⟨octets, ?_⟩
  simp [toScreen_started, run, writeAll_eq, Layout.ofTable, Layout.showsHeader, writeRows, writeRow,
    rowText, mapped, laid, encoded, write, Sink.recorded, Script.sink, Script.isClosed,
    Script.write, leavesAfterOne, Rehearsal.fresh, Run.after, Run.pulling]

/-- Behind the row that the reader saw, one event is pulled, and a fault behind it is not met. -/
theorem toScreen_leaves_second :
    let feed : Feed := .gives [] (readBy (some named)) (.gives [] (readBy (some named))
      (.failed [] (.notObject "events.jsonl" 3)))
    let told := toScreen leavesAfterOne.sink.recorded (.started [] (.fresh, [])) .fresh
      (.ofSecret (.clock .utc)) true 80 feed
    let run := toScreen leavesAfterOne.sink (.started [] .fresh) .fresh (.ofSecret (.clock .utc))
      true 80 feed
    ∃ octets last, told.state = some (.inl (last,
        [.poll false] ++ .write octets (.written octets.length) :: [.poll true, .close])) ∧
      HasLeft [.poll true, .close] ∧ run.result = .ok 1 ∧ run.pulled = 2 := by
  intro feed told run
  obtain ⟨cells, mapped⟩ : ∃ cells, (Table.ofSecret (.clock .utc)).row (readBy (some named)) =
    .ok cells := ⟨_, rfl⟩
  obtain ⟨text, laid⟩ := Layout.exists_row_ofTable mapped true 80
  obtain ⟨octets, -, state⟩ := toScreen_leavesAfterOne
    (.gives [] (readBy (some named)) (.failed [] (.notObject "events.jsonl" 3)))
  have shown : told.state = some (.inl (⟨1, [octets], false, 1⟩,
      [.poll false] ++ .write octets (.written octets.length) :: [.poll true, .close])) := by
    refine state.trans ?_
    simp [writeRows, writeRow, rowText, mapped, laid, Sink.recorded, Script.sink, Script.isClosed,
      leavesAfterOne, Run.after, Run.pulling, Run.stop]
  have left : HasLeft [.poll true, .close] := by simp [HasLeft]
  obtain ⟨result, -, pulled⟩ := toScreen_leaves leavesAfterOne.sink [] .fresh .fresh
    (.ofSecret (.clock .utc)) true 80 feed shown left
  exact ⟨octets, _, shown, left, result.trans rfl, pulled⟩

/-- A source that fails behind the last row that the reader saw is a fault nevertheless. -/
theorem toScreen_leaves_failing :
    let fault : SourceFault := .notObject "events.jsonl" 2
    let told := toScreen leavesAfterOne.sink.recorded (.started [] (.fresh, [])) .fresh
      (.ofSecret (.clock .utc)) true 80 (.gives [] (readBy (some named)) (.failed [] fault))
    ∃ octets last, told.state = some (.inl (last,
        [.poll false, .write octets (.written octets.length), .close])) ∧
      last.writes = [octets] ∧ leavesAfterOne.isClosed last = true ∧
      told.result = .error (.source fault) := by
  intro fault told
  obtain ⟨octets, result, state⟩ := toScreen_leavesAfterOne (.failed [] fault)
  exact ⟨octets, _, state, rfl, rfl, result⟩

end Render

end AuditTrail
