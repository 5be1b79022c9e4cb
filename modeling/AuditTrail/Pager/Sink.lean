import AuditTrail.Text.Utf8

/-!
# Sinks

A sink takes octets until it is closed, and its reader may close it before the writer does.
What a write comes to and whether the sink is closed may depend on everything that has
happened to it, so a sink is given by what it does to a state.
-/

namespace AuditTrail

/-- Why a sink did not take what was written. -/
inductive WriteFault where
  /-- The pager is gone. -/
  | pagerGone
  /-- The output behind the sink refused the octets. -/
  | outputRefused (reason : Text)
  /-- The sink said so itself. -/
  | refused (reason : Text)
deriving DecidableEq, Repr

/-- What is said of a write that failed. -/
def WriteFault.message : WriteFault -> Text
  | .pagerGone => "Writing to pager failed: [Errno 32] Broken pipe"
  | .outputRefused reason => "Writing output failed: " ++ reason
  | .refused reason => reason

/-- What a write comes to. -/
inductive WriteResult where
  /-- So many octets were taken. -/
  | written (octets : Nat)
  /-- So many octets were taken, and no line will be taken from now on. -/
  | exhausted (octets : Nat)
  /-- Nothing was taken. -/
  | failed (fault : WriteFault)
  /-- The writer itself had closed the sink. -/
  | afterClose
deriving DecidableEq, Repr

/-- What is said of a write after the writer closed the sink. -/
def closedSinkMessage : Text := "I/O operation on closed file"

/-- A destination for octets, given by what it does to its state. -/
structure Sink (State : Type) where
  write : Bytes -> State -> WriteResult × State
  isClosed : State -> Bool × State
  close : State -> State

/-- Two sinks as one: whichever is there is used. -/
def Sink.either {Left Right : Type} (left : Sink Left) (right : Sink Right) :
    Sink (Left ⊕ Right) where
  write octets
    | .inl state => (left.write octets state).map id .inl
    | .inr state => (right.write octets state).map id .inr
  isClosed
    | .inl state => (left.isClosed state).map id .inl
    | .inr state => (right.isClosed state).map id .inr
  close
    | .inl state => .inl (left.close state)
    | .inr state => .inr (right.close state)

end AuditTrail
