import AuditTrail.Command.Audit

/-!
# Command lines and messages

The program declares its commands and leaves it to a toolkit to read command lines, to answer
those that are for no command, and to put out messages. The toolkit is not part of the program.
What is decided here is what the program makes of it: which log it shows, what it says when that
breaks off, and the status with which it exits. The error stream has the log first and then what
kept the run from its end.
-/

namespace AuditTrail.Command

/-- What a command line comes to. -/
inductive Call where
  /-- The audit log is to be shown, and the user is debugging or not. -/
  | audit (debugging : Bool) (request : AuditRequest)
  /-- The toolkit has answered by itself, with a status and with what it put out. -/
  | answered (status : Nat) (output errors : Bytes)

/-- What the program leaves to a toolkit. -/
structure Toolkit where
  /-- What a command line comes to, the program having been called as `program`. -/
  call : (program : Text) -> (words : List Text) -> Call
  /-- The octets of a message for the user on the error stream. -/
  echo : (message : Text) -> Bytes
  /-- What is put out when the user has interrupted the run, and the status for that. -/
  interrupted : Bytes × Nat

/-- How a run ends. -/
inductive Ending where
  | exited (status : Nat)
  /-- With a fault that the program does not foresee. -/
  | broken (fault : AuditFault)

/-- What came of a run. -/
structure Answer where
  ending : Ending
  output : Bytes
  errors : Bytes
  requests : List Service.Request

/-- The status for a line that asks for nothing that can be had. -/
def refusedStatus : Nat := 2

/-- The octets of the lines that a log takes. -/
def logOctets (threshold : Level) (journal : Journal) : Bytes :=
  (journal.lines threshold).flatMap fun line => Utf8.encodeEscaping (line.text ++ "\n")

namespace Toolkit

/-- What is said of a fault at the end, and the ending. -/
def endingOf (toolkit : Toolkit) (fault : AuditFault) : Bytes × Ending :=
  if fault.kind.isForeseen then
    (toolkit.echo ("ERROR: " ++ fault.message), .exited refusedStatus)
  else if fault.kind = .interruption then
    (toolkit.interrupted.1, .exited toolkit.interrupted.2)
  else ([], .broken fault)

/-- The answer when the log has been shown as far as it could be. -/
def answerOfShowing (toolkit : Toolkit) (debugging : Bool) (showing : Showing) : Answer :=
  let log := logOctets (Level.threshold debugging) showing.journal
  let (message, ending) :=
    match showing.fault with
    | none => ([], .exited 0)
    | some fault => toolkit.endingOf fault
  ⟨ending, showing.output, log ++ message, showing.journal.requests⟩

/-- The answer to a command line, the program having been called as `program`. -/
def answer (toolkit : Toolkit) (program : Text) (around : Surroundings) (words : List Text) :
    Answer :=
  match toolkit.call program words with
  | .answered status output errors => ⟨.exited status, output, errors, []⟩
  | .audit debugging request => toolkit.answerOfShowing debugging (showLog around request)

end Toolkit

end AuditTrail.Command
