import AuditTrail.Command.Invocation
import AuditTrail.Command.Toolkit
import AuditTrail.Text.Styling

/-!
# Running the program

A run answers a command line through a toolkit for streams that are no screens: a message loses
what styles it on a screen, and a text without octets is spelt out.
-/

namespace AuditTrail.Command

/-- The octets of a message on a stream that is no screen. -/
def plainOctets (message : Text) : Bytes := Utf8.encodeEscaping message.unstyled

/-- What a command line comes to on such streams. -/
def plainCall (program : Text) (words : List Text) : Call :=
  match invocation words with
  | .error .empty => .answered refusedStatus [] (plainOctets (Page.program.help program))
  | .error (.misused page fault) =>
    .answered refusedStatus [] (plainOctets (fault.report program page))
  | .ok (.help page) => .answered 0 (plainOctets (page.help program)) []
  | .ok .release => .answered 0 (plainOctets releaseLine) []
  | .ok (.audit debugging request) => .audit debugging request

/-- The toolkit for such streams. -/
def Toolkit.plain : Toolkit where
  call := plainCall
  echo message := plainOctets (message ++ "\n")
  interrupted := (plainOctets "\nAborted!\n", 1)

/-- The answer to a command line, the program having been called as `program`. -/
def answer (program : Text) (around : Surroundings) (words : List Text) : Answer :=
  Toolkit.plain.answer program around words

end AuditTrail.Command
