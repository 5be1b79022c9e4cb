import AuditTrail.Json.Spelling
import AuditTrail.Tree.Basic

/-!
# Snapshots of a tree

A snapshot is an object that holds the root, lists of directories and of secrets, and the
path of the namespace. A list may also be a text or an object as long as it is empty, since
none of their parts is a record. The first defect, from the root to the last secret, is
the one that is reported.
-/

namespace AuditTrail

/-- Why a value is no snapshot. -/
inductive SnapshotFault where
  /-- A record without a field. -/
  | missing (field : Text)
  /-- A field that is no text. -/
  | notText (field : Text) (value : Json)
  /-- A value in the place of a record. -/
  | notRecord (value : Json)
  /-- A value in the place of a list. -/
  | notList (value : Json)

/-- What is said of the fault. -/
def SnapshotFault.message : SnapshotFault -> Text
  | .missing field => "Invalid tree snapshot: missing field " ++ field.quoted
  | .notText field value =>
    "Invalid tree snapshot: field " ++ field.quoted ++ " must be a string, got " ++ value.spelling
  | .notRecord (.array _) =>
    "Invalid tree snapshot: missing field list indices must be integers or slices, not str"
  | .notRecord (.text _) =>
    "Invalid tree snapshot: missing field string indices must be integers, not 'str'"
  | .notRecord value =>
    "Invalid tree snapshot: missing field '" ++ value.kindName ++ "' object is not subscriptable"
  | .notList value =>
    "Invalid tree snapshot: missing field '" ++ value.kindName ++ "' object is not iterable"

namespace Snapshot

/-- A field of a record. -/
def field (name : Text) (record : Json) : Except SnapshotFault Json :=
  match record with
  | .object members =>
    match Register.get? name members with
    | some value => .ok value
    | none => .error (.missing name)
  | other => .error (.notRecord other)

/-- A field that is a text. -/
def textField (name : Text) (record : Json) : Except SnapshotFault Text :=
  match field name record with
  | .error fault => .error fault
  | .ok (.text value) => .ok value
  | .ok value => .error (.notText name value)

/-- The parts of a list. The parts of a text are texts, and those of an object its names. -/
def parts : Json -> Except SnapshotFault (List Json)
  | .array items => .ok items
  | .text value => .ok (value.map fun c => .text [c])
  | .object members => .ok (members.map fun entry => .text entry.1)
  | other => .error (.notList other)

/-- The parts of a member of the snapshot that may be left out. -/
def partsOf (name : Text) (members : Register Json) : Except SnapshotFault (List Json) :=
  match members.get? name with
  | none => .ok []
  | some value => parts value

/-- The directory that a record describes. -/
def directory (record : Json) : Except SnapshotFault Directory := do
  let id ← textField "id" record
  let name ← textField "name" record
  let parent ← textField "parent_id" record
  return ⟨id, name, some parent⟩

/-- The secret that a record describes. -/
def secret (record : Json) : Except SnapshotFault Secret := do
  let id ← textField "id" record
  let name ← textField "name" record
  let directory ← textField "dir_id" record
  return ⟨id, name, directory⟩

/-- The tree of a snapshot. -/
def tree (snapshot : Json) : Except SnapshotFault Tree := do
  let root ← field "root" snapshot
  let rootId ← textField "id" root
  let rootName ← textField "name" root
  let members := (snapshot.members?).getD []
  let directories ← (← partsOf "dirs" members).mapM directory
  let secrets ← (← partsOf "secrets" members).mapM secret
  return {
    root := rootId
    parentPath := Json.labelOf "parent_path" members
    directories :=
      Register.ofPairs ((rootId, ⟨rootId, rootName, none⟩) :: directories.map fun d => (d.id, d))
    secrets := Register.ofPairs (secrets.map fun s => (s.id, s)) }

end Snapshot

end AuditTrail
