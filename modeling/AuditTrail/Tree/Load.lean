import AuditTrail.Source.Location
import AuditTrail.Tree.Snapshot

/-!
# Loading a snapshot

A snapshot lies in a file or at an address of the service, where one request fetches it.
Whatever is wrong with it is found before any event is looked at.
-/

namespace AuditTrail

/-- Why a tree cannot be had from a location. -/
inductive LoadFault where
  | unopened (path : Text) (fault : FileFault)
  | notUtf8 (path : Text) (fault : Utf8.Unreadable)
  | notJson (path content : Text) (fault : Json.ReadFault)
  | unfetched (address : Text) (fault : Service.FetchFault)
  | notObject (location : Text)
  | malformed (fault : SnapshotFault)

/-- What is said of a tree that cannot be had. -/
def LoadFault.message : LoadFault -> Text
  | .unopened path fault =>
    if fault.isSystems then "Failed to read " ++ path ++ ": " ++ fault.message path
    else fault.message path
  | .notUtf8 path fault => "Invalid UTF-8 in " ++ path ++ ": " ++ fault.message
  | .notJson path content (.malformed defect left) =>
    "Invalid JSON in " ++ path ++ ": " ++ Json.ReadFault.message content (.malformed defect left)
  | .notJson _ content fault => fault.message content
  | .unfetched address fault => fault.message address
  | .notObject location =>
    "Invalid tree snapshot in " ++ location ++ ": expected a JSON object"
  | .malformed fault => fault.message

namespace Tree

/-- The value in the content of a file. -/
def readContent (path : Text) (content : Bytes) : Except LoadFault Json :=
  match Utf8.decode? content with
  | .error fault => .error (.notUtf8 path fault)
  | .ok text =>
    let text := text.unifyNewlines
    (Json.read text).mapError (.notJson path text)

/-- The value in a file. -/
def readFile (files : Files) (path : Text) : Except LoadFault Json :=
  match files.content path with
  | .error fault => .error (.unopened path fault)
  | .ok content => readContent path content

/-- The tree that a value found at a location describes. -/
def ofValue (location : Text) : Json -> Except LoadFault Tree
  | .object members => (Snapshot.tree (.object members)).mapError .malformed
  | _ => .error (.notObject location)

/-- What came of loading a tree: the tree or a fault, what was done for it, and the answers
that the client has still to give. -/
structure Loading where
  result : Except LoadFault Tree
  journal : Journal
  answers : List Service.Answer

/-- Loads the tree at a location. -/
def load (files : Files) (answers : List Service.Answer) (token : Option Text)
    (location : Text) : Loading :=
  if isAddress location then
    let (answer, answers) := Service.answer answers
    { result := ((Service.documentValue answer).mapError (.unfetched location)).bind
        (ofValue location)
      journal := Journal.debug ("Fetching tree snapshot from " ++ location)
        ++ Journal.request (Service.request location none token)
      answers }
  else
    let path := Path.normal location
    { result := (readFile files path).bind (ofValue location)
      journal := Journal.debug ("Loading tree snapshot from " ++ path)
      answers }

end Tree

end AuditTrail
