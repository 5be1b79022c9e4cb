import AuditTrail.Files.Path
import AuditTrail.Text.Quoted

/-!
# Stored files

The files that the audit log can be read from: contents filed under the folders that lead
to them. Looking a path up goes from folder to folder and says why it cannot go on.
-/

namespace AuditTrail

/-- What a program does when it is started. -/
inductive Program where
  /-- Copies its input to its output until the input ends. -/
  | copies
  /-- Exits at once. -/
  | quits
  /-- Is no program that the system can start. -/
  | unstartable
  /-- Names an interpreter that does not exist. -/
  | uninterpreted
deriving DecidableEq, Repr

/-- What is read from the file of a program. Scripts begin with the mark before the name of
their interpreter, which begins no record, so that nothing after it matters to a reader; the
file that cannot be started is empty. -/
def Program.content : Program -> Bytes
  | .unstartable => []
  | .copies | .quits | .uninterpreted => Utf8.encodeEscaping "#!"

/-- What is stored at a place. -/
inductive Node where
  | folder
  | file (content : Bytes)
  | program (behaviour : Program)
deriving DecidableEq, Repr

/-- Why a file cannot be had. -/
inductive FileFault where
  | missing
  | notFolder
  | isFolder
  | nameTooLong
  | nullByte
  | unwritable (fault : Utf8.Unwritable)
deriving DecidableEq, Repr

/-- The system's number and words for a fault, if it is one of the system's. -/
def FileFault.systemWords? : FileFault -> Option Text
  | .missing => some "[Errno 2] No such file or directory"
  | .notFolder => some "[Errno 20] Not a directory"
  | .isFolder => some "[Errno 21] Is a directory"
  | .nameTooLong => some "[Errno 36] File name too long"
  | .nullByte => none
  | .unwritable _ => none

/-- What is said of a path that cannot be opened. -/
def FileFault.message (path : Text) : FileFault -> Text
  | .nullByte => "embedded null byte"
  | .unwritable fault => fault.message
  | fault => (fault.systemWords?.getD []) ++ ": " ++ path.quoted

/-- Whether the system reports the fault; the others are found before it is asked. -/
def FileFault.isSystems (fault : FileFault) : Bool := fault.systemWords?.isSome

/-- The most octets of a component. -/
def longestName : Nat := 255

/-- The octets that a path stays below. -/
def pathBound : Nat := 4096

/-- Nodes filed under the components that lead to them from the working folder. -/
structure Files where
  entries : List (List Text × Node)

namespace Files

/-- The place of the folder that all absolute paths start from. -/
def top : List Text := [[Path.slash]]

/-- Whether a place lies on the way out of the working folder or is the top. -/
def isOutside (place : List Text) : Bool := place = top || place.all (· = ("..": Text))

/-- What is stored at a place. Folders exist by what lies in them. -/
def node? (files : Files) (place : List Text) : Option Node :=
  if isOutside place then some .folder
  else
    match files.entries.find? fun entry => entry.1 = place with
    | some entry => some entry.2
    | none =>
      if files.entries.any fun entry => place.isPrefixOf entry.1 then some .folder else none

/-- The folder above a place. -/
def above (place : List Text) : List Text :=
  if place = top then top
  else if place.getLast? = none ∨ place.getLast? = some ".." then place ++ [(".." : Text)]
  else place.dropLast

/-- The place that one component leads to. -/
def step (place : List Text) (part : Text) : List Text :=
  if part = [] ∨ part = ("." : Text) then place
  else if part = (".." : Text) then above place
  else place ++ [part]

/-- The place that components lead to from another place. -/
def walk (files : Files) (place : List Text) : List Text -> Except FileFault (List Text)
  | [] => .ok place
  | part :: rest =>
    match files.node? place with
    | none => .error .missing
    | some .folder =>
      if longestName < Path.octetCount part then .error .nameTooLong
      else files.walk (step place part) rest
    | some _ => .error .notFolder

/-- The place at which a path begins. -/
def start (path : Text) : List Text := if path.head? = some Path.slash then top else []

/-- The places that a path leads through, the last one first. -/
def route (path : Text) : List (List Text) :=
  (Path.components path).foldl (fun places part => step (places.headD []) part :: places)
    [start path]

/-- The files of which is known what is stored at some paths. The paths lead through
folders; of what is stored at one place the last counts. -/
def ofPaths (stored : List (Text × Node)) : Files where
  entries :=
    stored.reverse.map (fun entry => ((route entry.1).headD [], entry.2))
      ++ stored.flatMap fun entry => (route entry.1).tail.map fun place => (place, .folder)

/-- What is stored at a path. -/
def find (files : Files) (path : Text) : Except FileFault Node :=
  match Path.octets? 0 path with
  | .error fault => .error (.unwritable fault)
  | .ok octets =>
    if octets.contains 0 then .error .nullByte
    else if pathBound ≤ octets.length then .error .nameTooLong
    else
      match files.walk (start path) (Path.components path) with
      | .error fault => .error fault
      | .ok place =>
        match files.node? place with
        | none => .error .missing
        | some node => .ok node

/-- The content of the file at a path. -/
def content (files : Files) (path : Text) : Except FileFault Bytes :=
  match files.find path with
  | .error fault => .error fault
  | .ok .folder => .error .isFolder
  | .ok (.file content) => .ok content
  | .ok (.program program) => .ok program.content

/-- Whether a file is stored at a path. A path that cannot be looked up names none, except
that a name which is too long is a fault. -/
def isFile (files : Files) (path : Text) : Except FileFault Bool :=
  match files.find path with
  | .error .nameTooLong => .error .nameTooLong
  | .error _ => .ok false
  | .ok .folder => .ok false
  | .ok _ => .ok true

end Files

end AuditTrail
