import AuditTrail.Proofs.Pager.Transcript
import AuditTrail.Render

/-!
# Sinks that answer alike

A map of states carries one sink to another when it commutes with everything that can be done
to them. A run then ends alike over both. Two such maps matter here: one forgets a transcript,
and the other takes a sink as one of two.

`toScreen_started` and `toScreen_unavailable` use the second to reduce what reaches the screen
to a run over the sink that is there.
-/

namespace AuditTrail

variable {Source Target : Type}

/-- `carry` takes the states of one sink to states in which another answers alike. -/
structure Sink.Carries (carry : Source -> Target) (source : Sink Source)
    (target : Sink Target) : Prop where
  write : ∀ octets state,
    target.write octets (carry state) = (source.write octets state).map id carry
  isClosed : ∀ state, target.isClosed (carry state) = (source.isClosed state).map id carry
  close : ∀ state, target.close (carry state) = carry (source.close state)

/-- Forgetting the transcript carries a recorded sink to the sink itself. -/
theorem Sink.recorded_carries (sink : Sink Source) : Sink.Carries Prod.fst sink.recorded sink where
  write _ _ := rfl
  isClosed _ := rfl
  close _ := rfl

/-- A sink is carried to the first of two. -/
theorem Sink.left_carries (left : Sink Source) (right : Sink Target) :
    Sink.Carries Sum.inl left (left.either right) where
  write _ _ := rfl
  isClosed _ := rfl
  close _ := rfl

/-- A sink is carried to the second of two. -/
theorem Sink.right_carries (left : Sink Source) (right : Sink Target) :
    Sink.Carries Sum.inr right (left.either right) where
  write _ _ := rfl
  isClosed _ := rfl
  close _ := rfl

/-- A run with another view of its final state. -/
def Run.map (carry : Source -> Target) (run : Run Source) : Run Target :=
  ⟨run.result, run.journal, run.pulled, carry run.state⟩

namespace Run

variable (carry : Source -> Target) (run : Run Source)

@[simp] theorem result_map : (run.map carry).result = run.result := rfl

@[simp] theorem pulled_map : (run.map carry).pulled = run.pulled := rfl

@[simp] theorem map_after (journal : Journal) :
    (run.after journal).map carry = (run.map carry).after journal := rfl

@[simp] theorem map_pulling : run.pulling.map carry = (run.map carry).pulling := rfl

end Run

namespace Render

variable {carry : Source -> Target} {source : Sink Source} {target : Sink Target}

/-- A write ends alike, or goes on to what ends alike. -/
theorem write_carried (carries : Sink.Carries carry source target) (rows : Nat)
    (octets : Bytes) {next : Source -> Run Source} {next' : Target -> Run Target}
    (goesOn : ∀ state, next' (carry state) = (next state).map carry) (state : Source) :
    write target rows octets next' (carry state) =
      (write source rows octets next state).map carry := by
  unfold write
  rw [carries.write]
  cases source.write octets state with
  | mk result state' =>
      cases result with
      | written taken => exact goesOn state'
      | exhausted taken => rfl
      | afterClose => rfl
      | failed fault =>
          simp only [Prod.map, id]
          rw [carries.isClosed]
          cases source.isClosed state' with
          | mk closed last => cases closed <;> rfl

/-- A row ends alike, or goes on to what ends alike. -/
theorem writeRow_carried (carries : Sink.Carries carry source target) (table : Table)
    (layout : Layout) (rows : Nat) (event : Event) {next : Source -> Run Source}
    {next' : Target -> Run Target}
    (goesOn : ∀ state, next' (carry state) = (next state).map carry) (state : Source) :
    writeRow target table layout rows event next' (carry state) =
      (writeRow source table layout rows event next state).map carry := by
  unfold writeRow
  cases rowText table layout event with
  | error fault => rfl
  | ok text =>
      simp only
      rw [carries.isClosed]
      cases source.isClosed state with
      | mk closed polled =>
          cases closed with
          | true => rfl
          | false =>
              cases lineOctets text with
              | error fault => rfl
              | ok octets => exact write_carried carries rows octets goesOn polled

/-- The rows of a feed end alike. -/
theorem writeRows_carried (carries : Sink.Carries carry source target) (table : Table)
    (layout : Layout) (feed : Feed) (rows : Nat) (state : Source) :
    writeRows target table layout feed rows (carry state) =
      (writeRows source table layout feed rows state).map carry := by
  induction feed generalizing rows state with
  | done journal => rfl
  | failed journal fault => rfl
  | gives journal event rest inductionHypothesis =>
      simp only [writeRows, Run.map_after, Run.map_pulling]
      rw [writeRow_carried carries _ layout rows event (inductionHypothesis (rows + 1))]

/-- Header and rows end alike. -/
theorem writeAll_carried (carries : Sink.Carries carry source target) (table : Table)
    (layout : Layout) (feed : Feed) (state : Source) :
    writeAll target table layout feed (carry state) =
      (writeAll source table layout feed state).map carry := by
  have rows := writeRows_carried carries table layout feed 0
  unfold writeAll
  split
  · cases layout.row table.header with
    | error fault => rfl
    | ok header =>
        simp only
        cases lineOctets header with
        | error fault => rfl
        | ok octets => exact write_carried carries 0 octets rows state
  · exact rows state

/-- A run ends alike over sinks that answer alike. -/
theorem run_carried (carries : Sink.Carries carry source target) (table : Table)
    (layout : Layout) (feed : Feed) (state : Source) :
    run target table layout feed (carry state) =
      (run source table layout feed state).map carry := by
  simp only [run, writeAll_carried carries, Run.map, carries.close]

/-- What the screen shows through a pager is a run over the pager. -/
theorem toScreen_started (sink : Sink Source) (log : Journal) (state : Source)
    (output : Output) (table : Table) (asRecords : Bool) (width : Int) (feed : Feed) :
    let layout := Layout.ofTable asRecords width table
    let shown := run sink table layout feed state
    toScreen sink (.started log state) output table asRecords width feed =
      ⟨shown.result, layout.journal width ++ log ++ shown.journal, shown.pulled,
        some (.inl shown.state)⟩ := by
  simp only [toScreen, run_carried (sink.left_carries LineBudget.sink), Run.map]

/-- What the screen shows without a pager is a run over the bounded output. -/
theorem toScreen_unavailable (sink : Sink Source) (log : Journal) (output : Output)
    (table : Table) (asRecords : Bool) (width : Int) (feed : Feed) :
    let layout := Layout.ofTable asRecords width table
    let shown := run LineBudget.sink table layout feed (.ofOutput output LineBudget.usual)
    toScreen sink (.unavailable log) output table asRecords width feed =
      ⟨shown.result, layout.journal width ++ (log ++ Journal.debug noPagerLine) ++ shown.journal,
        shown.pulled, some (.inr shown.state)⟩ := by
  simp only [toScreen, run_carried (sink.right_carries LineBudget.sink), Run.map]

end Render

end AuditTrail
