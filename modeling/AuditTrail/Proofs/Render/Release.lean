import AuditTrail.Proofs.Render.Order

/-!
# The sink is let go

However a run ends, it closes its sink once, behind everything else that it does; and behind a
write that fails it only asks whether the reader has left, which tells whether the failure is
one. Both hold of the pager as of the bounded output in its place.

The events that a run pulls are not told by its sink. `Course.unique` says that a transcript has
only one history with them.
-/

namespace AuditTrail

/-- The sink that is obtained by starting a pager: the pager, the bounded output in its place,
or none if the start failed. -/
def Start.obtained? {State : Type} (start : Start State) (output : Output) :
    Option (State ⊕ LineBudget) :=
  match start with
  | .started _ state => some (.inl state)
  | .unavailable _ => some (.inr (.ofOutput output LineBudget.usual))
  | .failed _ _ => none

namespace Render

variable {State : Type} {table : Table} {layout : Layout} {feed : Feed}

/-! ## Closing once -/

/-- A write that ends the run closes nothing. -/
theorem WriteStop.not_mem_close {rows : Nat} {octets : Bytes} {acts : History}
    {result : Except RenderFault Nat} (stop : WriteStop rows octets acts result) :
    .close ∉ acts := by
  cases stop <;> simp

/-- A row that ends the run closes nothing. -/
theorem RowStop.not_mem_close {rows : Nat} {event : Event} {acts : History}
    {result : Except RenderFault Nat} (stop : RowStop table layout rows event acts result) :
    .close ∉ acts := by
  cases stop with
  | noText | left | noOctets => simp
  | notTaken line stop => simpa using stop.not_mem_close

/-- The rows of a feed close nothing. -/
theorem RowCourse.not_mem_close {rows : Nat} {acts : History}
    {result : Except RenderFault Nat} (course : RowCourse table layout feed rows acts result) :
    .close ∉ acts := by
  induction course with
  | done | failed => simp
  | stopped stop => simpa using stop.not_mem_close
  | wrote line later inductionHypothesis => simpa using inductionHypothesis

/-- A run closes its sink behind everything else, and only there. -/
theorem Course.closes_once {acts : History} {result : Except RenderFault Nat}
    (course : Course table layout feed acts result) :
    ∃ earlier, acts = earlier ++ [.close] ∧ .close ∉ earlier := by
  cases course with
  | bare hides rows => exact ⟨_, rfl, rows.not_mem_close⟩
  | noHeader shows failed => exact ⟨[], rfl, by simp⟩
  | headerNotTaken shows line stop => exact ⟨_, rfl, stop.not_mem_close⟩
  | headed shows line rows => exact ⟨_, rfl, by simpa using rows.not_mem_close⟩

/-! ## Behind a failure -/

/-- Behind a write that fails comes one question, and its answer tells what the run comes to.
`rows` counts the rows before these acts. -/
def FailsLast (rows : Nat) (acts : History) (result : Except RenderFault Nat) : Prop :=
  ∀ (before : History) octets fault after,
    acts = before ++ .write octets (.failed fault) :: after ->
      ∃ left, after = [.poll left, .close] ∧
        result = if left then .ok (rows + before.taken.length) else .error (.unwritten fault)

/-- Nothing fails when the sink is closed. -/
theorem failsLast_close (rows : Nat) (result : Except RenderFault Nat) :
    FailsLast rows [.close] result := by
  intro before octets fault after parts
  simp [List.singleton_eq_append_iff] at parts

/-- What does not fail may come first. -/
theorem FailsLast.cons {rows : Nat} {act : Act} {acts : History}
    {result : Except RenderFault Nat}
    (fails : FailsLast (rows + act.taken?.toList.length) acts result)
    (other : ∀ octets fault, act ≠ .write octets (.failed fault)) :
    FailsLast rows (act :: acts) result := by
  intro before octets fault after parts
  cases before with
  | nil =>
      injection parts with same
      exact absurd same (other octets fault)
  | cons first others =>
      injection parts with same remainder
      subst same
      obtain ⟨left, rest, comes⟩ := fails others octets fault after remainder
      refine ⟨left, rest, comes.trans ?_⟩
      simp [Nat.add_assoc]

/-- A write that fails is the only one behind itself. -/
theorem failsLast_failed (rows : Nat) (octets : Bytes) (fault : WriteFault) (left : Bool) :
    FailsLast rows [.write octets (.failed fault), .poll left, .close]
      (if left then .ok rows else .error (.unwritten fault)) := by
  intro before octets' fault' after parts
  cases before with
  | nil =>
      cases parts
      exact ⟨left, rfl, by simp⟩
  | cons first others =>
      injection parts with same remainder
      simp [List.cons_eq_append_iff] at remainder

/-- A write that ends the run is the last, and if it failed one question follows. -/
theorem WriteStop.failsLast {rows : Nat} {octets : Bytes} {acts : History}
    {result : Except RenderFault Nat} (stop : WriteStop rows octets acts result) :
    FailsLast rows (acts ++ [.close]) result := by
  cases stop with
  | exhausted | afterClose => exact (failsLast_close _ _).cons (by simp)
  | left fault => exact failsLast_failed rows octets fault true
  | refused fault => exact failsLast_failed rows octets fault false

/-- A row that ends the run ends with its write, if there was one. -/
theorem RowStop.failsLast {rows : Nat} {event : Event} {acts : History}
    {result : Except RenderFault Nat} (stop : RowStop table layout rows event acts result) :
    FailsLast rows (acts ++ [.close]) result := by
  cases stop with
  | noText => exact failsLast_close _ _
  | left | noOctets => exact (failsLast_close _ _).cons (by simp)
  | notTaken line stop =>
      refine FailsLast.cons ?_ (by simp)
      exact stop.failsLast

/-- Only the last row of a feed fails. -/
theorem RowCourse.failsLast {rows : Nat} {acts : History}
    {result : Except RenderFault Nat} (course : RowCourse table layout feed rows acts result) :
    FailsLast rows (acts ++ [.close]) result := by
  induction course with
  | done | failed => exact failsLast_close _ _
  | stopped stop =>
      refine FailsLast.cons ?_ (by simp)
      exact stop.failsLast
  | wrote line later inductionHypothesis =>
      refine FailsLast.cons (FailsLast.cons (FailsLast.cons ?_ (by simp)) (by simp)) (by simp)
      exact inductionHypothesis

/-- Only the last line of a run fails, and the count that is returned is that of the rows. -/
theorem Course.fails_last {acts : History} {result : Except RenderFault Nat}
    (course : Course table layout feed acts result) {before after : History} {octets : Bytes}
    {fault : WriteFault} (parts : acts = before ++ .write octets (.failed fault) :: after) :
    ∃ left, after = [.poll left, .close] ∧
      result =
        if left then .ok (rowsTaken layout before).length else .error (.unwritten fault) := by
  cases course with
  | bare hides rows =>
      simpa [rowsTaken, headerCount, hides] using rows.failsLast before octets fault after parts
  | noHeader shows failed => exact absurd parts (by simp [List.singleton_eq_append_iff])
  | headerNotTaken shows line stop =>
      have none : before.taken = [] := by
        have taken := congrArg History.taken parts
        simp [stop.offered.1] at taken
        exact taken.1
      simpa [rowsTaken, none] using stop.failsLast before octets fault after parts
  | headed shows line rows =>
      cases before with
      | nil =>
          injection parts with same
          cases same
      | cons first others =>
          injection parts with same remainder
          subst same
          simpa [rowsTaken, headerCount, shows] using
            rows.failsLast others octets fault after remainder

/-! ## One history for a transcript -/

/-- A row that ends the run is not written. -/
theorem RowStop.ne_wrote {rows taken : Nat} {event : Event} {acts rest : History}
    {octets : Bytes} {result : Except RenderFault Nat}
    (stop : RowStop table layout rows event acts result) :
    acts ≠ .poll false :: .write octets (.written taken) :: rest := by
  cases stop with
  | noText | left | noOctets => simp
  | notTaken line stop => cases stop <;> simp

/-- The part at the sink tells all that the rows of a feed do. -/
theorem RowCourse.unique {rows : Nat} {acts others : History}
    {result result' : Except RenderFault Nat}
    (course : RowCourse table layout feed rows acts result)
    (other : RowCourse table layout feed rows others result')
    (same : acts.atSink = others.atSink) : acts = others := by
  induction course generalizing others with
  | done | failed => cases other; rfl
  | stopped stop =>
      cases other with
      | stopped stop' => simpa [stop.atSink, stop'.atSink] using same
      | wrote line later => exact absurd (by simpa [stop.atSink] using same) stop.ne_wrote
  | wrote line later inductionHypothesis =>
      cases other with
      | stopped stop' => exact absurd (by simpa [stop'.atSink] using same.symm) stop'.ne_wrote
      | wrote line' later' =>
          simp only [History.atSink_cons, Act.isAtSink, if_true, Bool.false_eq_true, if_false,
            List.cons.injEq, true_and] at same
          obtain ⟨written, rest⟩ := same
          rw [written, inductionHypothesis later' rest]

/-- A write that ends the run did not succeed. -/
theorem WriteStop.ne_wrote {rows taken : Nat} {octets octets' : Bytes} {acts rest : History}
    {result : Except RenderFault Nat} (stop : WriteStop rows octets acts result) :
    acts ++ [.close] ≠ .write octets' (.written taken) :: rest := by
  cases stop <;> simp

/-- The part at the sink tells all that a run does. -/
theorem Course.unique {acts others : History} {result result' : Except RenderFault Nat}
    (course : Course table layout feed acts result)
    (other : Course table layout feed others result')
    (same : acts.atSink = others.atSink) : acts = others := by
  cases course with
  | bare hides rows =>
      cases other with
      | bare _ rows' => rw [rows.unique rows' (by simpa using same)]
      | noHeader shows | headerNotTaken shows | headed shows => simp [hides] at shows
  | noHeader shows failed =>
      cases other with
      | bare hides => simp [shows] at hides
      | noHeader => rfl
      | headerNotTaken _ line | headed _ line => cases failed.symm.trans line
  | headerNotTaken shows line stop =>
      cases other with
      | bare hides => simp [shows] at hides
      | noHeader _ failed => cases failed.symm.trans line
      | headerNotTaken _ _ stop' => simpa [stop.atSink, stop'.atSink] using same
      | headed _ _ rows' => exact absurd (by simpa [stop.atSink] using same) stop.ne_wrote
  | headed shows line rows =>
      cases other with
      | bare hides => simp [shows] at hides
      | noHeader _ failed => cases failed.symm.trans line
      | headerNotTaken _ _ stop' =>
          exact absurd (by simpa [stop'.atSink] using same.symm) stop'.ne_wrote
      | headed _ line' rows' =>
          simp only [List.cons_append, History.atSink_cons, Act.isAtSink, if_true,
            History.atSink_append, List.cons.injEq] at same
          obtain ⟨header, rest⟩ := same
          rw [header, rows.unique rows' (List.append_cancel_right rest)]

/-! ## Whole runs -/

/-- A run that has a sink is a run over the pager or over the bounded output in its place. -/
theorem toScreen_obtained (sink : Sink State) {start : Start State} {output : Output}
    {state : State ⊕ LineBudget} (obtained : start.obtained? output = some state)
    (table : Table) (asRecords : Bool) (width : Int) (feed : Feed) :
    let run := toScreen sink start output table asRecords width feed
    let bare := Render.run (sink.either LineBudget.sink) table
      (Layout.ofTable asRecords width table) feed state
    run.result = bare.result ∧ run.pulled = bare.pulled ∧ run.state = some bare.state := by
  cases start with
  | started | unavailable =>
      cases obtained
      exact ⟨rfl, rfl, rfl⟩
  | failed => cases obtained

/-- A history of a run is a course with the run's result, its transcript and its pulls. -/
structure IsHistory (table : Table) (layout : Layout) (feed : Feed)
    (result : Except RenderFault Nat) (transcript : History) (pulled : Nat)
    (history : History) : Prop where
  course : Course table layout feed history result
  told : transcript = history.atSink
  counted : pulled = history.pulled.length

/-- Whatever happens to a run that has a sink, its one history ends by closing the sink, which
it does nowhere else; and behind a write that fails it asks whether the reader has left, and
either returns the rows so far or says what failed. -/
theorem toScreen_releases (sink : Sink State) {start : Start State} {output : Output}
    {state : State ⊕ LineBudget} (obtained : start.obtained? output = some state)
    (table : Table) (asRecords : Bool) (width : Int) (feed : Feed) :
    let layout := Layout.ofTable asRecords width table
    let run := toScreen sink start output table asRecords width feed
    let told := Render.run (sink.either LineBudget.sink).recorded table layout feed (state, [])
    run.state = some told.state.1 ∧
    ∃ history, IsHistory table layout feed run.result told.state.2 run.pulled history ∧
      (∀ other, IsHistory table layout feed run.result told.state.2 run.pulled other ->
        other = history) ∧
      (∃ earlier, history = earlier ++ [.close] ∧ .close ∉ earlier) ∧
      ∀ before octets fault after, history = before ++ .write octets (.failed fault) :: after ->
        ∃ left, after = [.poll left, .close] ∧
          run.result =
            if left then .ok (rowsTaken layout before).length else .error (.unwritten fault) := by
  intro layout run told
  obtain ⟨result, pulled, last⟩ := toScreen_obtained sink obtained table asRecords width feed
  have erased := run_carried (sink.either LineBudget.sink).recorded_carries table layout feed
    (state, [])
  rw [erased] at result pulled last
  obtain ⟨history, course, transcript, counted⟩ :=
    run_course (sink.either LineBudget.sink) table layout feed state
  have same : run.result = told.result := result
  rw [← same] at course
  refine ⟨last, history, ⟨course, transcript, pulled.trans counted⟩, fun other is => ?_,
    course.closes_once, fun before octets fault after parts => course.fails_last parts⟩
  exact is.course.unique course (is.told.symm.trans transcript)

/-- A pager that has quit before anything is written to it is closed all the same. -/
theorem toScreen_releases_quit :
    let start : Start PagerProcess := .started [] (.start .quits)
    let table := Table.ofSecret (.clock .utc)
    let told := Render.run (PagerProcess.sink.either LineBudget.sink).recorded table
      (Layout.ofTable false 80 table) (.done []) (.inl (.start .quits), [])
    start.obtained? .fresh = some (.inl (.start .quits)) ∧
      ∃ earlier, told.state.2 = earlier ++ [.close] ∧ .close ∉ earlier := by
  intro start table told
  have obtained : start.obtained? .fresh = some (.inl (.start .quits)) := rfl
  obtain ⟨-, history, is, -, ⟨earlier, rfl, once⟩, -⟩ :=
    toScreen_releases PagerProcess.sink obtained table false 80 (.done [])
  refine ⟨obtained, History.atSink earlier, is.told.trans (by simp), fun member => once ?_⟩
  exact List.mem_of_mem_filter member

end Render

end AuditTrail
