import AuditTrail.Journal
import AuditTrail.Pager.Process

/-!
# Choosing and starting the pager

The pager is the first program that can be found among the one that the user names, `less`
and `more`. A name is looked for in the folder of programs; one that is a path is taken as
it is. Only files that may be run count as found.
-/

namespace AuditTrail

/-- What is said when there is no pager. -/
def noPagerMessage : Text :=
  "no terminal pager available. Please configure a terminal pager by setting the $PAGER "
    ++ "environment variable or install \"less\" or \"more\""

/-- Why a pager that was found does not start. -/
inductive StartFault where
  /-- The system cannot run the file. -/
  | notProgram (path : Text)
  /-- The system gave a reason of its own. -/
  | refused (reason : Text)
deriving DecidableEq, Repr

/-- What is said of a pager that does not start. -/
def StartFault.message : StartFault -> Text
  | .notProgram path => "[Errno 8] Exec format error: " ++ path.quoted
  | .refused reason => reason

/-- What came of starting a pager, and what was logged meanwhile. -/
inductive Start (State : Type) where
  | started (log : Journal) (state : State)
  | unavailable (log : Journal)
  | failed (log : Journal) (fault : StartFault)

namespace PagerProcess

/-- The folder of programs. -/
def programFolder : Text := "bin"

/-- The pagers that are tried when the user names none that can be found. -/
def usualNames : List Text := ["less", "more"]

/-- The program at a path, if it may be run. -/
def program? (files : Files) (path : Text) : Option Program :=
  match files.find path with
  | .ok (.program program) => some program
  | _ => none

/-- The path and the program that a name stands for. -/
def named? (files : Files) (name : Text) : Option (Text × Program) :=
  if name.isEmpty then none
  else
    let path :=
      if name.contains Path.slash then name else programFolder ++ [Path.slash] ++ name
    (program? files path).map fun program => (path, program)

/-- The pager to run; `wanted` is what the user names. -/
def chosen? (files : Files) (wanted : Option Text) : Option (Text × Program) :=
  (wanted.toList ++ usualNames).findSome? (named? files)

/-- Starts the pager. -/
def ofFiles (files : Files) (wanted : Option Text) : Start PagerProcess :=
  match chosen? files wanted with
  | none => .unavailable []
  | some (path, program) =>
    let log := Journal.debug ("Starting pager " ++ path)
    match program with
    | .unstartable => .failed log (.notProgram path)
    | .uninterpreted => .unavailable log
    | program => .started log (PagerProcess.start program)

end PagerProcess

end AuditTrail
