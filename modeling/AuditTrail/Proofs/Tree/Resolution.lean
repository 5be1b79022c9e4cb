import AuditTrail.Proofs.Tree.Lineage
import AuditTrail.Tree.Snapshot

/-!
# What an id is resolved to

An id is resolved to the path of a directory, or else to that of a secret. An empty path counts as
none. Only the root can have one, and only where neither the root nor the namespace has a name, so
`resolution_complete_iff` says that nothing else with a path is lost.
-/

namespace AuditTrail.Tree

variable {tree : Tree} {id : Text}

/-- Neither the root nor the namespace has a name. -/
def IsNameless (tree : Tree) : Prop :=
  tree.parentPath = [] ∧
    ∃ directory, tree.directories.get? tree.root = some directory ∧ directory.name = []

/-- Only the root of a nameless tree has an empty path. -/
theorem directoryPath?_eq_nil_iff :
    tree.directoryPath? id = some [] ↔ id = tree.root ∧ tree.IsNameless := by
  rw [directoryPath?_eq_some_iff]
  constructor
  · rintro ⟨entries, lineage, empty⟩
    obtain ⟨noOpening, noNames⟩ := List.nil_eq_append_iff.mp empty
    have noNamespace : tree.parentPath = [] := by
      by_contra named
      rw [opening, if_neg (by simpa using named)] at noOpening
      simp [named] at noOpening
    have length := congrArg List.length noNames
    rw [Text.length_join] at length
    cases lineage with
    | root isRoot found =>
        subst isRoot
        refine ⟨rfl, noNamespace, _, found, ?_⟩
        simpa [names] using length
    | @child _ _ directory ancestors notRoot found named above =>
        -- Between two names there is a slash.
        have several := List.length_pos_of_ne_nil above.ne_nil
        have count : (names (ancestors ++ [(id, directory)])).length = ancestors.length + 1 := by
          simp [names]
        have slash : List.length ("/" : Text) = 1 := rfl
        rw [count, slash, List.length_nil] at length
        omega
  · rintro ⟨rfl, noNamespace, directory, found, noName⟩
    exact ⟨_, .root rfl found, by simp [opening, noNamespace, names, noName, Text.join]⟩

/-- No path of a secret is empty. -/
theorem secretPath?_ne_nil : tree.secretPath? id ≠ some [] := by
  intro empty
  obtain ⟨secret, above, -, -, path⟩ := secretPath?_eq_some_iff.mp empty
  have length := congrArg List.length path
  simp [Text.ofString] at length

/-- A secret has a path exactly if its directory leads to the root. -/
theorem exists_secretPath?_iff :
    (∃ path, tree.secretPath? id = some path) ↔
      ∃ secret, tree.secrets.get? id = some secret ∧ tree.LeadsToRoot secret.directory := by
  constructor
  · rintro ⟨path, located⟩
    obtain ⟨secret, above, found, ofDirectory, -⟩ := secretPath?_eq_some_iff.mp located
    exact ⟨secret, found, exists_directoryPath?_iff.mp ⟨above, ofDirectory⟩⟩
  · rintro ⟨secret, found, leads⟩
    obtain ⟨above, ofDirectory⟩ := exists_directoryPath?_iff.mpr leads
    exact ⟨_, secretPath?_eq_some_iff.mpr ⟨secret, above, found, ofDirectory, rfl⟩⟩

/-- Where the directory's path is not an empty one, it goes before the secret's. -/
theorem path?_of_ne_nil (nonempty : tree.directoryPath? id ≠ some []) :
    tree.path? id = (tree.directoryPath? id).or (tree.secretPath? id) := by
  unfold path?
  split
  next path => simp [path]
  next others =>
    cases path : tree.directoryPath? id with
    | none => rfl
    | some path' =>
        cases path' with
        | nil => exact absurd path nonempty
        | cons c rest => exact absurd path (others c rest)

/-- Where the directory's path is an empty one, only the secret's counts. -/
theorem path?_of_nil (empty : tree.directoryPath? id = some []) :
    tree.path? id = tree.secretPath? id := by
  simp [path?, empty]

/-- An id is resolved to the path of the directory or else the secret that it names, unless it is the
root's in a nameless tree; and to nothing exactly if neither has a path, apart from this root. -/
theorem resolution_complete_iff (tree : Tree) (id : Text) :
    (tree.path? id = (tree.directoryPath? id).or (tree.secretPath? id) ↔
      ¬(id = tree.root ∧ tree.IsNameless)) ∧
    (tree.path? id = none ↔
      (tree.LeadsToRoot id -> id = tree.root ∧ tree.IsNameless) ∧
      ¬∃ secret, tree.secrets.get? id = some secret ∧ tree.LeadsToRoot secret.directory) := by
  rw [← directoryPath?_eq_nil_iff, ← exists_directoryPath?_iff, ← exists_secretPath?_iff]
  simp only [← Option.isSome_iff_exists, Bool.not_eq_true, Option.isSome_eq_false_iff,
    Option.isNone_iff_eq_none]
  by_cases empty : tree.directoryPath? id = some []
  · rw [path?_of_nil empty, empty]
    simp [secretPath?_ne_nil]
  · rw [path?_of_ne_nil empty]
    simp [empty]

/-- The root of a snapshot without any names has a path, which is empty, and is resolved to nothing,
as if it were not there. -/
theorem nameless_root_unresolved :
    let members : Register Json := [("root", .object [("id", .text "d0"), ("name", .text [])])]
    ∃ tree, Snapshot.tree (.object members) = .ok tree ∧ tree.LeadsToRoot "d0" ∧
      tree.directoryPath? "d0" = some [] ∧ tree.path? "d0" = none := by
  refine ⟨⟨"d0", [], [("d0", ⟨"d0", [], none⟩)], []⟩, rfl, ⟨.refl, rfl⟩, ?_⟩
  have empty : directoryPath? ⟨"d0", [], [("d0", ⟨"d0", [], none⟩)], []⟩ "d0" = some [] :=
    directoryPath?_eq_nil_iff.mpr ⟨rfl, rfl, _, rfl, rfl⟩
  exact ⟨empty, path?_of_nil empty⟩

end AuditTrail.Tree
