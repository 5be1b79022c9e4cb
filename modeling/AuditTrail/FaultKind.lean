import AuditTrail.Render
import AuditTrail.Tree.Load

/-!
# Kinds of faults

Faults that the program foresees are told to the user in one line; all others end it as they
are. The kind of a fault tells the two apart, and among the foreseen ones who is to blame:
what the user asked for, the source of the events, an event, or the sink.
-/

namespace AuditTrail

/-- The kinds of faults. -/
inductive FaultKind where
  /-- What the user asked for cannot be had. -/
  | request
  /-- The source of events fails. -/
  | source
  /-- An event has no row. -/
  | mapping
  /-- The subject of an event is not in the tree. -/
  | resolution
  /-- A row does not fit its columns. -/
  | mismatch
  /-- The sink does not take what is written. -/
  | write
  /-- A document cannot be had from the service. -/
  | service
  /-- A value that an operation cannot take. -/
  | value
  /-- A number that is too large. -/
  | overflow
  /-- Containers inside too many others. -/
  | depth
  /-- A text that has no octets. -/
  | encoding
  /-- The system refuses. -/
  | system
  /-- The user interrupted the run. -/
  | interruption
deriving DecidableEq, Repr

/-- Whether faults of a kind are told to the user. -/
def FaultKind.isForeseen : FaultKind -> Bool
  | .request | .source | .mapping | .resolution | .mismatch | .write | .service => true
  | .value | .overflow | .depth | .encoding | .system | .interruption => false

/-- The kind of a fault that bars a file, `blamed` being the kind of what the system reports. -/
def FileFault.kind (blamed : FaultKind) : FileFault -> FaultKind
  | .nullByte => .value
  | .unwritable _ => .encoding
  | _ => blamed

/-- The kind of a fault in a stored text. -/
def Json.ReadFault.kind (blamed : FaultKind) : Json.ReadFault -> FaultKind
  | .malformed _ _ => blamed
  | .oversized _ => .value
  | .tooDeep _ => .depth

/-- The kind of a fault of the client that is not about requests. -/
def Service.ForeignFault.kind : Service.ForeignFault -> FaultKind
  | .unwritable _ => .encoding
  | .tooDeep _ => .depth
  | .other _ => .value

/-- The kind of a fault that bars a document of the service. -/
def Service.FetchFault.kind (blamed : FaultKind) : Service.FetchFault -> FaultKind
  | .foreign fault => fault.kind
  | .interrupted => .interruption
  | .failed _ | .refused _ _ | .notJson _ => blamed

/-- The kind of a source's fault. -/
def SourceFault.kind : SourceFault -> FaultKind
  | .unopened _ fault => fault.kind .source
  | .notJson _ _ _ fault => fault.kind .source
  | .unfetched _ fault => fault.kind .source
  | _ => .source

/-- The kind of a fault in loading a tree. -/
def LoadFault.kind : LoadFault -> FaultKind
  | .unopened _ fault => fault.kind .request
  | .notJson _ _ fault => fault.kind .request
  | .unfetched _ fault => fault.kind .request
  | _ => .request

/-- The kind of a fault in showing a time. -/
def Calendar.Fault.kind : Calendar.Fault -> FaultKind
  | .notANumber | .refused _ => .value
  | .outOfRange | .infinite | .tooLarge => .overflow

/-- The kind of a fault that leaves an event without a row. -/
def RowFault.kind : RowFault -> FaultKind
  | .unresolved _ _ => .resolution
  | .unshownTime fault => fault.kind
  | _ => .mapping

/-- The kind of a fault that breaks a run off. -/
def RenderFault.kind : RenderFault -> FaultKind
  | .unstarted _ => .system
  | .source fault => fault.kind
  | .unmapped fault => fault.kind
  | .mismatch _ => .mismatch
  | .unwritable _ => .encoding
  | .unwritten _ => .write
  | .afterClose => .value

end AuditTrail
