import AuditTrail.Layout.Rows
import AuditTrail.Pager.LineBudget
import AuditTrail.Pager.Start
import AuditTrail.Source.Feed
import AuditTrail.Table.Row

/-!
# Rendering the audit log

The rows of a feed's events are written into a sink, one after the other and each as soon as
its event has been pulled. The run ends with the feed, with the first fault, or when the sink
takes no more; a reader who leaves is no fault. The sink is closed once, at the very end.
-/

namespace AuditTrail

/-- Why a run of the audit log breaks off. -/
inductive RenderFault where
  | unstarted (fault : StartFault)
  | source (fault : SourceFault)
  | unmapped (fault : RowFault)
  | mismatch (fault : Layout.CellMismatch)
  | unwritable (fault : Utf8.Unwritable)
  | unwritten (fault : WriteFault)
  | afterClose

/-- What is said of a run that breaks off. -/
def RenderFault.message : RenderFault -> Text
  | .unstarted fault => fault.message
  | .source fault => fault.message
  | .unmapped fault => fault.message
  | .mismatch fault => fault.message
  | .unwritable fault => fault.message
  | .unwritten fault => fault.message
  | .afterClose => closedSinkMessage

/-- What came of a run: the rows that were written in full or the fault, what was done
besides writing, the events that were pulled, and the state of the sink. -/
structure Run (State : Type) where
  result : Except RenderFault Nat
  journal : Journal
  pulled : Nat
  state : State

namespace Run

variable {State : Type}

/-- A run that ends here. -/
def stop (result : Except RenderFault Nat) (journal : Journal) (state : State) : Run State :=
  ⟨result, journal, 0, state⟩

/-- A run before which something else was done. -/
def after (journal : Journal) (run : Run State) : Run State :=
  { run with journal := journal ++ run.journal }

/-- A run before which one more event was pulled. -/
def pulling (run : Run State) : Run State := { run with pulled := run.pulled + 1 }

end Run

namespace Render

variable {State : Type}

/-- The line that is logged when the reader has left. -/
def closedLine (rows : Nat) : Text := "Pager closed after " ++ Text.ofNat rows ++ " rows"

/-- The warning that not all lines were shown. -/
def truncatedLine : Text :=
  "Output truncated to " ++ Text.ofNat LineBudget.usual
    ++ " lines. Set $PAGER or install less or more to see the full audit log."

/-- The text of an event's row. -/
def rowText (table : Table) (layout : Layout) (event : Event) : Except RenderFault Text :=
  match table.row event with
  | .error fault => .error (.unmapped fault)
  | .ok row => (layout.row row).mapError .mismatch

/-- The octets of a text and the end of its last line. -/
def lineOctets (text : Text) : Except RenderFault Bytes :=
  (Utf8.encode? (text ++ "\n")).mapError .unwritable

/-- Writes octets after `rows` rows, and goes on as `next` says if the sink takes them. -/
def write (sink : Sink State) (rows : Nat) (octets : Bytes) (next : State -> Run State)
    (state : State) : Run State :=
  match sink.write octets state with
  | (.written _, state) => next state
  | (.exhausted _, state) => .stop (.ok rows) (Journal.warn truncatedLine) state
  | (.afterClose, state) => .stop (.error .afterClose) [] state
  | (.failed fault, state) =>
    match sink.isClosed state with
    | (true, state) => .stop (.ok rows) (Journal.debug (closedLine rows)) state
    | (false, state) => .stop (.error (.unwritten fault)) [] state

/-- Writes an event's row after `rows` rows unless the reader has left. -/
def writeRow (sink : Sink State) (table : Table) (layout : Layout) (rows : Nat) (event : Event)
    (next : State -> Run State) (state : State) : Run State :=
  match rowText table layout event with
  | .error fault => .stop (.error fault) [] state
  | .ok text =>
    match sink.isClosed state with
    | (true, state) => .stop (.ok rows) (Journal.debug (closedLine rows)) state
    | (false, state) =>
      match lineOctets text with
      | .error fault => .stop (.error fault) [] state
      | .ok octets => write sink rows octets next state

/-- Writes the rows of a feed's events after `rows` rows. -/
def writeRows (sink : Sink State) (table : Table) (layout : Layout) :
    Feed -> (rows : Nat) -> State -> Run State
  | .done before, rows, state => .stop (.ok rows) before state
  | .failed before fault, _, state => .stop (.error (.source fault)) before state
  | .gives before event rest, rows, state =>
    Run.after before
      (writeRow sink (table.behind rows) layout rows event
        (writeRows sink table layout rest (rows + 1)) state).pulling

/-- Writes the header, if the layout shows one, and the rows behind it. -/
def writeAll (sink : Sink State) (table : Table) (layout : Layout) (feed : Feed)
    (state : State) : Run State :=
  if layout.showsHeader then
    match layout.row table.header with
    | .error fault => .stop (.error (.mismatch fault)) [] state
    | .ok header =>
      match lineOctets header with
      | .error fault => .stop (.error fault) [] state
      | .ok octets => write sink 0 octets (writeRows sink table layout feed 0) state
  else writeRows sink table layout feed 0 state

/-- Renders a feed into a sink that has been obtained, and closes it. -/
def run (sink : Sink State) (table : Table) (layout : Layout) (feed : Feed) (state : State) :
    Run State :=
  let run := writeAll sink table layout feed state
  { run with state := sink.close run.state }

end Render

/-- The layout of a table's rows. -/
def Layout.ofTable (asRecords : Bool) (width : Int) (table : Table) : Layout :=
  if asRecords then .records table.header else .grid (Layout.widths width table.columns)

/-- The line that is logged for the widths of columns. -/
def Layout.widthsLine (width : Int) (widths : List Int) : Text :=
  "Column widths for table width " ++ Text.ofInt width ++ ": ["
    ++ Text.join ", " (widths.map Text.ofInt) ++ "]"

/-- What is logged when a layout for a width has been chosen. -/
def Layout.journal (width : Int) : Layout -> Journal
  | .grid widths => Journal.debug (Layout.widthsLine width widths)
  | .records _ => []

namespace Render

variable {State : Type}

/-- The line that is logged when there is no pager. -/
def noPagerLine : Text :=
  "No terminal pager found; output limited to " ++ Text.ofNat LineBudget.usual ++ " lines"

/-- Renders a feed into the pager that was started, or, when there is none, into the first
lines of an output. The state is absent when the pager did not start. -/
def toScreen (sink : Sink State) (start : Start State) (output : Output) (table : Table)
    (asRecords : Bool) (width : Int) (feed : Feed) : Run (Option (State ⊕ LineBudget)) :=
  let layout := Layout.ofTable asRecords width table
  let render (log : Journal) (state : State ⊕ LineBudget) :=
    let run := Render.run (sink.either LineBudget.sink) table layout feed state
    ⟨run.result, layout.journal width ++ log ++ run.journal, run.pulled, some run.state⟩
  match start with
  | .started log state => render log (.inl state)
  | .unavailable log =>
    render (log ++ Journal.debug noPagerLine) (.inr (.ofOutput output LineBudget.usual))
  | .failed log fault =>
    ⟨.error (.unstarted fault), layout.journal width ++ log, 0, none⟩

end Render

end AuditTrail
