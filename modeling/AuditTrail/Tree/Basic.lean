import AuditTrail.Register

/-!
# Directory trees

The directories and secrets of a repository as they were at one time. A directory has a
path if its parents lead to the root; the path lists the names from the root down, behind
the path of the namespace that holds the repository.
-/

namespace AuditTrail

/-- A directory; only the root needs no parent. -/
structure Directory where
  id : Text
  name : Text
  parent : Option Text
deriving DecidableEq, Repr

/-- A secret in a directory. -/
structure Secret where
  id : Text
  name : Text
  directory : Text
deriving DecidableEq, Repr

/-- The directories and secrets of a repository, each filed under its id. -/
structure Tree where
  root : Text
  parentPath : Text
  directories : Register Directory
  secrets : Register Secret
deriving DecidableEq, Repr

namespace Tree

/-- The ids under which directories are filed, those `passed` left out. -/
def ahead (tree : Tree) (passed : List Text) : List Text :=
  tree.directories.keys.filter fun id => !passed.contains id

/-- Fewer ids are ahead once a further directory is passed. -/
theorem length_ahead_cons_lt {tree : Tree} {passed : List Text} {id : Text}
    (filed : id ∈ tree.directories.keys) (new : id ∉ passed) :
    (tree.ahead (id :: passed)).length < (tree.ahead passed).length := by
  have left : tree.ahead (id :: passed) = (tree.ahead passed).filter fun other => other ≠ id := by
    rw [ahead, ahead, List.filter_filter]
    simp
  rw [left, List.length_filter_lt_length_iff_exists]
  exact ⟨id, List.mem_filter.mpr ⟨filed, by simpa using new⟩, by simp⟩

/-- Climbs from a directory to the root and puts the names on the way, the root's first, before
`names`. Who comes to an id that is `passed` already goes round in a circle. -/
def climb (tree : Tree) (passed names : List Text) (id : Text) : Option (List Text) :=
  match _ : tree.directories.get? id with
  | none => none
  | some directory =>
    if passed.contains id then none
    else if id = tree.root then some (directory.name :: names)
    else
      match directory.parent with
      | none => none
      | some parent => tree.climb (id :: passed) (directory.name :: names) parent
termination_by (tree.ahead passed).length
decreasing_by
  have filed : id ∈ tree.directories.keys := Register.isSome_get?.mp (by simp [*])
  exact length_ahead_cons_lt filed (by simpa using ‹¬passed.contains id›)

/-- The path of a directory, if a climb from it ends at the root. -/
def directoryPath? (tree : Tree) (id : Text) : Option Text :=
  (tree.climb [] [] id).map fun names =>
    Text.join "/" (if tree.parentPath.isEmpty then names else tree.parentPath :: names)

/-- The path of a secret: its directory's path and its name. -/
def secretPath? (tree : Tree) (id : Text) : Option Text :=
  match tree.secrets.get? id with
  | none => none
  | some secret => (tree.directoryPath? secret.directory).map (· ++ "/" ++ secret.name)

/-- The path of the directory with an id, or else of the secret with it. An empty path of a
directory does not count. -/
def path? (tree : Tree) (id : Text) : Option Text :=
  match tree.directoryPath? id with
  | some (c :: rest) => some (c :: rest)
  | _ => tree.secretPath? id

end Tree

end AuditTrail
