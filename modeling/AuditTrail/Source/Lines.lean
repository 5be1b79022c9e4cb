import AuditTrail.Source.Feed
import AuditTrail.Text.Blank
import AuditTrail.Text.Line

/-!
# Events from a file

A file holds one record a line. Blank lines are skipped but counted; the first line that is
no record ends the feed with a fault that names it.
-/

namespace AuditTrail

/-- The lines of a file that reads so. In front of a fault only those count that are ended, and
a carriage return at the end may still be half of a line end. -/
def Utf8.Reading.lines (reading : Utf8.Reading) : List Text :=
  match reading.fault? with
  | none => Text.lines reading.text.unifyNewlines
  | some _ => (Text.endedLines reading.text.withoutFinalReturn.unifyNewlines).1

namespace Feed

/-- The events of lines, the first of which has the number `line`; `ending` follows. -/
def ofLines (path : Text) (ending : Feed) : (line : Nat) -> List Text -> Feed
  | _, [] => ending
  | line, text :: rest =>
    let record := text.trim
    if record.isEmpty then ofLines path ending (line + 1) rest
    else
      match Json.read record with
      | .error fault => .failed [] (.notJson path line record fault)
      | .ok (.object members) =>
        .gives [] (Event.ofMembers members) (ofLines path ending (line + 1) rest)
      | .ok _ => .failed [] (.notObject path line)

/-- The end of a file's events, which is a fault if the file could not be read any further. -/
def ofEnd (path : Text) : Option Utf8.Unreadable -> Feed
  | none => .done []
  | some fault => .failed [] (.notUtf8 path fault)

/-- The events of a file's content. Octets that are no text are noticed only behind the lines
that are complete without their chunk. -/
def ofContent (path : Text) (content : Bytes) : Feed :=
  let reading := Utf8.read content
  ofLines path (ofEnd path reading.fault?) 1 reading.lines

/-- The events of a stored file. -/
def ofFile (files : Files) (path : Text) : Feed :=
  let path := Path.normal path
  match files.content path with
  | .error fault => .failed [] (.unopened path fault)
  | .ok content => ofContent path content

end Feed

end AuditTrail
