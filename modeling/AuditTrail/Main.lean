import AuditTrail.Command.Run
import Std.Time

/-!
# The program

Gathers what a run finds around it, runs it, and hands on what it answers. Nothing is decided
here. This program starts no pager and reaches no service, so a log is shown as far as it goes
without them.
-/

namespace AuditTrail.Session

/-- The day number of the first day of the year 1970. -/
def unixDayNumber : Nat := Calendar.daysBeforeYear 1970

/-- The timestamp of a moment in nanoseconds after the first day of the year 1970. -/
def timestamp (nanoseconds : Int) : Calendar.Timestamp :=
  let wall := unixDayNumber * Calendar.day + nanoseconds / 1000
  (Calendar.Timestamp.ofWall? wall .utc).getD ⟨0, .utc, by decide⟩

/-- The offset of a clock that is a number of seconds ahead. -/
def offset (seconds : Int) : Calendar.Offset :=
  (Calendar.Offset.ofMicroseconds? (seconds * Calendar.second)).getD .utc

/-- The locations of files that a command line names. -/
def paths (words : List Text) : List Text :=
  match Command.invocation words with
  | .ok (.audit _ request) =>
    (request.source :: request.tree.toList).filter fun location => !isAddress location
  | _ => []

/-- Why this program has no answer of the service. -/
def unreachable : Service.Answer := .failed "the service cannot be reached"

/-- The string of a text without unpaired surrogates. -/
def string (text : Text) : String := String.ofList (text.map fun c => Char.ofNat c.val)

/-- What is stored at a path, if anything is. -/
def stored (path : Text) : IO (List (Text × Node)) := do
  match ← (IO.FS.readBinFile (string path)).toBaseIO with
  | .ok content => return [(path, .file content.toList)]
  | .error (.inappropriateType ..) => return [(path, .folder)]
  | .error _ => return []

/-- The nanoseconds from the first day of the year 1970 to a timestamp. -/
def nanoseconds (t : Calendar.Timestamp) : Int :=
  (t.instant - unixDayNumber * Calendar.day) * 1000

/-- The zone of the local clock. -/
def localZone : IO Calendar.Zone := do
  match ← Std.Time.Database.defaultGetLocalZoneRules.toBaseIO with
  | .ok rules =>
    return ⟨fun t =>
      let moment := Std.Time.Timestamp.ofNanosecondsSinceUnixEpoch (.ofInt (nanoseconds t))
      offset (rules.timezoneAt moment).offset.second.val⟩
  | .error _ => return Calendar.Offset.utc

/-- What a run finds around it. -/
def surroundings (words : List Text) : IO Command.Surroundings := do
  let now ← Std.Time.Timestamp.now
  let nodes ← (paths words).mapM fun location => stored (Path.normal location)
  return {
    files := Files.ofPaths nodes.flatten
    replies := [unreachable]
    pager := none
    token := (← IO.getEnv "AUDITPAGER_TOKEN").map Text.ofString
    zone := ← localZone
    now := timestamp now.toNanosecondsSinceUnixEpoch.val
    screenColumns := none }

/-- Writes octets to a stream. -/
def put (stream : IO.FS.Stream) (octets : Bytes) : IO Unit := do
  stream.write ⟨octets.toArray⟩
  stream.flush

end AuditTrail.Session

/-- Answers a command line. -/
def main (arguments : List String) : IO UInt32 := do
  let words := arguments.map AuditTrail.Text.ofString
  let around ← AuditTrail.Session.surroundings words
  let answer := AuditTrail.Command.answer AuditTrail.Command.programName around words
  AuditTrail.Session.put (← IO.getStdout) answer.output
  let errors ← IO.getStderr
  AuditTrail.Session.put errors answer.errors
  match answer.ending with
  | .exited status => return UInt32.ofNat status
  | .broken fault =>
    AuditTrail.Session.put errors (AuditTrail.Utf8.encodeEscaping (fault.message ++ "\n"))
    return 1
