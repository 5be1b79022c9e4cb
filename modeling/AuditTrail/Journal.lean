import AuditTrail.Service

/-!
# The journal of a run

What a run does besides writing to its sink, in order: the lines it logs and the requests
it sends. The log goes to the handlers that are set up for it; there is never more than one
handler for a stream, however often logging is set up.
-/

namespace AuditTrail

/-- How much a line of the log matters. -/
inductive Level where
  | debug
  | warning
deriving DecidableEq, Repr

namespace Level

/-- The name of a level in the log. -/
def name : Level -> Text
  | .debug => "DEBUG"
  | .warning => "WARNING"

/-- Whether a log that is kept from a level on takes lines of another one. -/
def admits (threshold level : Level) : Bool := threshold = .debug || level = .warning

/-- The level from which the log is kept, with or without debugging. -/
def threshold (debugging : Bool) : Level := if debugging then .debug else .warning

end Level

/-- One line of the log. -/
structure LogLine where
  level : Level
  message : Text
deriving DecidableEq, Repr

/-- The line as it is shown. -/
def LogLine.text (line : LogLine) : Text := line.level.name ++ ": " ++ line.message

/-- One thing that a run does besides writing. -/
inductive Deed where
  | logs (line : LogLine)
  | requests (request : Service.Request)

/-- What a run has done besides writing, in order. -/
abbrev Journal := List Deed

namespace Journal

/-- A journal of one line for the debugging user. -/
def debug (message : Text) : Journal := [.logs ⟨.debug, message⟩]

/-- A journal of one warning. -/
def warn (message : Text) : Journal := [.logs ⟨.warning, message⟩]

/-- A journal of one request. -/
def request (request : Service.Request) : Journal := [.requests request]

/-- The requests that were sent. -/
def requests (journal : Journal) : List Service.Request :=
  journal.filterMap fun
    | .requests request => some request
    | .logs _ => none

/-- The lines that a log takes that is kept from a level on. -/
def lines (threshold : Level) (journal : Journal) : List LogLine :=
  journal.filterMap fun
    | .logs line => if threshold.admits line.level then some line else none
    | .requests _ => none

@[simp] theorem requests_append (left right : Journal) :
    requests (left ++ right) = requests left ++ requests right :=
  List.filterMap_append

@[simp] theorem lines_append (threshold : Level) (left right : Journal) :
    lines threshold (left ++ right) = lines threshold left ++ lines threshold right :=
  List.filterMap_append

end Journal

/-- How logging is set up: the streams that have a handler, in the order in which they came,
and the level from which the log is kept. -/
structure LogSetup where
  handlers : List Nat
  threshold : Option Level
deriving DecidableEq, Repr

namespace LogSetup

/-- Nothing is set up. -/
def none : LogSetup := ⟨[], .none⟩

/-- Sets logging up for the stream that takes error messages at present. -/
def setUp (debugging : Bool) (stream : Nat) (setup : LogSetup) : LogSetup where
  handlers := if setup.handlers.contains stream then setup.handlers else setup.handlers ++ [stream]
  threshold := some (Level.threshold debugging)

end LogSetup

end AuditTrail
