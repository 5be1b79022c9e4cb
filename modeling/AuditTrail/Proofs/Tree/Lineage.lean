import AuditTrail.Proofs.Text.Join
import AuditTrail.Tree.Basic
import Mathlib.Data.List.Nodup
import Mathlib.Data.List.Perm.Subperm
import Mathlib.Logic.Relation

/-!
# Lineages

From a directory one may go on to its parent, and to the parent of that. This leads to the root, to
a directory that is not there, to one that has no parent, or round in a circle. The directories on a
way to the root are a lineage. A directory has one lineage at most, it has a path exactly if it has a
lineage, and `paths_follow_lineages` says what the path is. No lineage has a directory twice, which
is why a climb that turns back at the first directory it has passed before misses none of them.
-/

namespace AuditTrail.Tree

variable {tree : Tree}

/-- The directories from the root down to the one with an id, each under its own id. The root ends
every way, whether it has a parent or not. -/
inductive IsLineage (tree : Tree) : Text -> Register Directory -> Prop where
  | root {id : Text} {directory : Directory} (isRoot : id = tree.root)
      (found : tree.directories.get? id = some directory) : IsLineage tree id [(id, directory)]
  | child {id parent : Text} {directory : Directory} {ancestors : Register Directory}
      (notRoot : id ≠ tree.root) (found : tree.directories.get? id = some directory)
      (named : directory.parent = some parent) (above : IsLineage tree parent ancestors) :
      IsLineage tree id (ancestors ++ [(id, directory)])

/-- The names of directories. -/
def names (directories : Register Directory) : List Text :=
  directories.map fun entry => entry.2.name

/-- The parent of the directory with an id. -/
def parent? (tree : Tree) (id : Text) : Option Text :=
  (tree.directories.get? id).bind Directory.parent

/-- Parents lead from an id to the root, and every directory on the way is there, also the root. -/
def LeadsToRoot (tree : Tree) (id : Text) : Prop :=
  Relation.ReflTransGen (fun lower upper => tree.parent? lower = some upper) id tree.root ∧
    (tree.directories.get? tree.root).isSome

namespace IsLineage

/-- A lineage ends with the directory whose lineage it is. -/
theorem mem_keys {id : Text} {entries : Register Directory} (lineage : tree.IsLineage id entries) :
    id ∈ entries.keys := by
  cases lineage <;> simp

/-- No lineage is empty. -/
theorem ne_nil {id : Text} {entries : Register Directory} (lineage : tree.IsLineage id entries) :
    entries ≠ [] := by
  rintro rfl
  exact absurd lineage.mem_keys (by simp)

/-- What has a lineage is there. -/
theorem isFiled {id : Text} {entries : Register Directory} (lineage : tree.IsLineage id entries) :
    id ∈ tree.directories.keys := by
  cases lineage with
  | root isRoot found => exact Register.isSome_get?.mp (by simp [found])
  | child notRoot found => exact Register.isSome_get?.mp (by simp [found])

/-- There is one lineage at most. -/
theorem unique {id : Text} {entries others : Register Directory}
    (lineage : tree.IsLineage id entries) (other : tree.IsLineage id others) :
    entries = others := by
  induction lineage generalizing others with
  | root isRoot found =>
      cases other with
      | root _ found' =>
          rw [found] at found'
          cases found'
          rfl
      | child notRoot => exact absurd isRoot notRoot
  | child notRoot found named above inductionHypothesis =>
      cases other with
      | root isRoot => exact absurd isRoot notRoot
      | child _ found' named' above' =>
          rw [found] at found'
          cases found'
          rw [named] at named'
          cases named'
          rw [inductionHypothesis above']

/-- A lineage begins with the lineage of each directory in it. -/
theorem exists_prefix {id : Text} {entries : Register Directory}
    (lineage : tree.IsLineage id entries) {other : Text} (member : other ∈ entries.keys) :
    ∃ part, tree.IsLineage other part ∧ part <+: entries := by
  induction lineage with
  | root isRoot found =>
      obtain rfl : other = _ := by simpa using member
      exact ⟨_, .root isRoot found, List.prefix_rfl⟩
  | child notRoot found named above inductionHypothesis =>
      rw [Register.keys_append, List.mem_append] at member
      rcases member with among | last
      · obtain ⟨part, ofOther, opening⟩ := inductionHypothesis among
        exact ⟨part, ofOther, opening.trans (List.prefix_append _ _)⟩
      · obtain rfl : other = _ := by simpa using last
        exact ⟨_, .child notRoot found named above, List.prefix_rfl⟩

/-- The lineage of a directory's parent does not hold the directory. -/
theorem not_mem_above {id parent : Text} {directory : Directory} {ancestors : Register Directory}
    (notRoot : id ≠ tree.root) (found : tree.directories.get? id = some directory)
    (named : directory.parent = some parent) (above : tree.IsLineage parent ancestors) :
    id ∉ ancestors.keys := by
  intro member
  obtain ⟨part, ofId, opening⟩ := above.exists_prefix member
  -- The directory would have a lineage within its own one, less the last place.
  have whole : part = ancestors ++ [(id, directory)] :=
    ofId.unique (.child notRoot found named above)
  have shorter := opening.length_le
  rw [whole, List.length_append, List.length_singleton] at shorter
  omega

end IsLineage

/-- A directory has a lineage exactly if it leads to the root. -/
theorem exists_lineage_iff {id : Text} :
    (∃ entries, tree.IsLineage id entries) ↔ tree.LeadsToRoot id := by
  constructor
  · rintro ⟨entries, lineage⟩
    induction lineage with
    | root isRoot found =>
        subst isRoot
        exact ⟨.refl, by simp [found]⟩
    | child notRoot found named above inductionHypothesis =>
        obtain ⟨leads, there⟩ := inductionHypothesis
        exact ⟨.head (by simp [parent?, found, named]) leads, there⟩
  · rintro ⟨leads, there⟩
    induction leads using Relation.ReflTransGen.head_induction_on with
    | refl =>
        obtain ⟨directory, found⟩ := Option.isSome_iff_exists.mp there
        exact ⟨_, .root rfl found⟩
    | @head lower upper step _ inductionHypothesis =>
        obtain ⟨directory, found, named⟩ := Option.bind_eq_some_iff.mp step
        obtain ⟨ancestors, above⟩ := inductionHypothesis
        by_cases isRoot : lower = tree.root
        · exact ⟨_, .root isRoot found⟩
        · exact ⟨_, .child isRoot found named above⟩

/-! ## Climbing -/

/-- One round of a climb. -/
theorem climb_of_found {passed behind : List Text} {id : Text} {directory : Directory}
    (found : tree.directories.get? id = some directory) (new : id ∉ passed) :
    tree.climb passed behind id =
      if id = tree.root then some (directory.name :: behind)
      else directory.parent.bind (tree.climb (id :: passed) (directory.name :: behind)) := by
  rw [climb]
  split
  next missing => simp [found] at missing
  next other found' =>
    rw [found] at found'
    cases found'
    rw [if_neg (by simpa using new)]
    cases directory.parent <;> rfl

/-- The ids that a climb from `start` has passed, the names that it has put down, and where it is
then. -/
inductive Reaches (tree : Tree) (start : Text) : (passed behind : List Text) -> Text -> Prop where
  | start : Reaches tree start [] [] start
  | next {passed behind : List Text} {id parent : Text} {directory : Directory}
      (reached : Reaches tree start passed behind id)
      (found : tree.directories.get? id = some directory) (new : id ∉ passed)
      (notRoot : id ≠ tree.root) (named : directory.parent = some parent) :
      Reaches tree start (id :: passed) (directory.name :: behind) parent

namespace Reaches

variable {start id : Text} {passed behind : List Text}

/-- From wherever a climb is, it goes on to its own end. -/
theorem climb_eq (reached : tree.Reaches start passed behind id) :
    tree.climb passed behind id = tree.climb [] [] start := by
  induction reached with
  | start => rfl
  | next reached found new notRoot named inductionHypothesis =>
      rw [← inductionHypothesis, climb_of_found found new, if_neg notRoot, named, Option.bind_some]

/-- A climb has passed directories only, and each of them once. -/
theorem passed_distinct (reached : tree.Reaches start passed behind id) :
    passed.Nodup ∧ passed ⊆ tree.directories.keys := by
  induction reached with
  | start => simp
  | next reached found new notRoot named inductionHypothesis =>
      obtain ⟨distinct, filed⟩ := inductionHypothesis
      have there := Register.isSome_get?.mp (Option.isSome_iff_exists.mpr ⟨_, found⟩)
      exact ⟨List.nodup_cons.mpr ⟨new, distinct⟩, List.cons_subset.mpr ⟨there, filed⟩⟩

/-- A climb goes on no more often than there are directories. -/
theorem length_le (reached : tree.Reaches start passed behind id) :
    passed.length ≤ tree.directories.length := by
  obtain ⟨distinct, filed⟩ := reached.passed_distinct
  simpa using (distinct.subperm filed).length_le

end Reaches

/-- A climb stops at an id: nothing is filed under it, it is passed already, or it is that of the root
or of a directory without a parent. -/
def StopsAt (tree : Tree) (passed : List Text) (id : Text) : Prop :=
  ∀ directory, tree.directories.get? id = some directory -> id ∉ passed ->
    id = tree.root ∨ directory.parent = none

/-- From wherever a climb is, it comes to an id at which it stops. -/
theorem Reaches.exists_stop {start id : Text} {passed behind : List Text}
    (reached : tree.Reaches start passed behind id) :
    ∃ passed behind last, tree.Reaches start passed behind last ∧ tree.StopsAt passed last := by
  fun_induction climb tree passed behind id with
  | case1 passed behind id missing =>
      refine ⟨passed, behind, id, reached, fun directory found => ?_⟩
      rw [missing] at found
      cases found
  | case2 passed behind id directory found again =>
      exact ⟨passed, behind, id, reached, fun _ _ new => absurd (by simpa using again) new⟩
  | case3 passed behind directory found new =>
      exact ⟨passed, behind, tree.root, reached, fun _ _ _ => .inl rfl⟩
  | case4 passed behind id directory found new notRoot orphan =>
      refine ⟨passed, behind, id, reached, fun other found' _ => .inr ?_⟩
      rw [found] at found'
      cases found'
      exact orphan
  | case5 passed behind id directory found new notRoot parent named inductionHypothesis =>
      exact inductionHypothesis (reached.next found (by simpa using new) notRoot named)

/-- A climb that ends at the root has followed a lineage. -/
theorem exists_lineage_of_climb {passed behind result : List Text} {id : Text}
    (climbed : tree.climb passed behind id = some result) :
    ∃ entries, tree.IsLineage id entries ∧ result = names entries ++ behind := by
  fun_induction climb tree passed behind id with
  | case1 => cases climbed
  | case2 => cases climbed
  | case3 passed behind directory found new =>
      cases climbed
      exact ⟨_, .root rfl found, rfl⟩
  | case4 => cases climbed
  | case5 passed behind id directory found new notRoot parent named inductionHypothesis =>
      obtain ⟨ancestors, above, rfl⟩ := inductionHypothesis climbed
      exact ⟨_, .child notRoot found named above, by simp [names]⟩

/-- A climb that has passed nothing of a lineage yet follows it to the root. -/
theorem climb_of_lineage {passed behind : List Text} {id : Text} {entries : Register Directory}
    (lineage : tree.IsLineage id entries) (apart : ∀ other ∈ entries.keys, other ∉ passed) :
    tree.climb passed behind id = some (names entries ++ behind) := by
  induction lineage generalizing passed behind with
  | root isRoot found =>
      rw [climb_of_found found (apart _ (by simp)), if_pos isRoot]
      rfl
  | @child id parent directory ancestors notRoot found named above inductionHypothesis =>
      have new : id ∉ passed := apart id (by simp)
      have apartAbove : ∀ other ∈ ancestors.keys, other ∉ id :: passed := by
        intro other member again
        rcases List.mem_cons.mp again with rfl | before
        · exact IsLineage.not_mem_above notRoot found named above member
        · exact apart other (by simp [member]) before
      rw [climb_of_found found new, if_neg notRoot, named, Option.bind_some,
        inductionHypothesis apartAbove]
      simp [names]

/-- A climb from the start ends at the root exactly if there is a lineage. -/
theorem climb_eq_some_iff {id : Text} {result : List Text} :
    tree.climb [] [] id = some result ↔
      ∃ entries, tree.IsLineage id entries ∧ result = names entries := by
  constructor
  · intro climbed
    simpa using exists_lineage_of_climb climbed
  · rintro ⟨entries, lineage, rfl⟩
    rw [climb_of_lineage lineage (by simp), List.append_nil]

/-! ## Paths -/

/-- What stands in front of the root's name in every path: nothing, or the path of the namespace and
a slash. -/
def opening (tree : Tree) : Text :=
  if tree.parentPath.isEmpty then [] else tree.parentPath ++ "/"

/-- The path that a lineage makes. -/
theorem join_names {id : Text} {entries : Register Directory} (lineage : tree.IsLineage id entries) :
    Text.join "/" (if tree.parentPath.isEmpty then names entries
      else tree.parentPath :: names entries) = tree.opening ++ Text.join "/" (names entries) := by
  unfold opening
  split
  · rfl
  · obtain ⟨first, others, shape⟩ := List.exists_cons_of_ne_nil
      (show names entries ≠ [] by simpa [names] using lineage.ne_nil)
    rw [shape]
    simp [Text.join, List.intercalate_cons_cons]

/-- The path of a directory, told from its lineage. -/
theorem directoryPath?_eq_some_iff {id path : Text} :
    tree.directoryPath? id = some path ↔
      ∃ entries, tree.IsLineage id entries ∧
        path = tree.opening ++ Text.join "/" (names entries) := by
  rw [directoryPath?, Option.map_eq_some_iff]
  constructor
  · rintro ⟨result, climbed, rfl⟩
    obtain ⟨entries, lineage, rfl⟩ := climb_eq_some_iff.mp climbed
    exact ⟨entries, lineage, join_names lineage⟩
  · rintro ⟨entries, lineage, rfl⟩
    exact ⟨names entries, climb_eq_some_iff.mpr ⟨entries, lineage, rfl⟩, join_names lineage⟩

/-- A directory has a path exactly if it leads to the root. -/
theorem exists_directoryPath?_iff {id : Text} :
    (∃ path, tree.directoryPath? id = some path) ↔ tree.LeadsToRoot id := by
  rw [← exists_lineage_iff]
  constructor
  · rintro ⟨path, found⟩
    obtain ⟨entries, lineage, -⟩ := directoryPath?_eq_some_iff.mp found
    exact ⟨entries, lineage⟩
  · rintro ⟨entries, lineage⟩
    exact ⟨_, directoryPath?_eq_some_iff.mpr ⟨entries, lineage, rfl⟩⟩

/-- What is not there has no path. -/
theorem directoryPath?_of_not_filed {id : Text} (missing : id ∉ tree.directories.keys) :
    tree.directoryPath? id = none := by
  rw [Option.eq_none_iff_forall_ne_some]
  intro path located
  obtain ⟨entries, lineage, -⟩ := directoryPath?_eq_some_iff.mp located
  exact missing lineage.isFiled

/-- The path of a secret, told from the path of its directory. -/
theorem secretPath?_eq_some_iff {id path : Text} :
    tree.secretPath? id = some path ↔
      ∃ secret above, tree.secrets.get? id = some secret ∧
        tree.directoryPath? secret.directory = some above ∧
        path = above ++ "/" ++ secret.name := by
  unfold secretPath?
  cases tree.secrets.get? id with
  | none => simp
  | some secret => simp [eq_comm]

/-- Wherever a climb begins, it goes on no more often than there are directories before it stops, and
what it comes to then is what it comes to in all. There is a path exactly if parents lead from there
to the root; it lists the names from the root down, behind the path of the namespace. A secret has a
path exactly if its directory has one. -/
theorem paths_follow_lineages (tree : Tree) (id : Text) :
    (∃ passed behind last, tree.Reaches id passed behind last ∧ tree.StopsAt passed last ∧
      passed.length ≤ tree.directories.length ∧
      tree.climb [] [] id = tree.climb passed behind last) ∧
    ((∃ path, tree.directoryPath? id = some path) ↔ tree.LeadsToRoot id) ∧
    (∀ path, tree.directoryPath? id = some path ↔
      ∃ entries, tree.IsLineage id entries ∧ path = tree.opening ++ Text.join "/" (names entries)) ∧
    (∀ path, tree.secretPath? id = some path ↔
      ∃ secret above, tree.secrets.get? id = some secret ∧
        tree.directoryPath? secret.directory = some above ∧
        path = above ++ "/" ++ secret.name) := by
  refine ⟨?_, exists_directoryPath?_iff, fun path => directoryPath?_eq_some_iff,
    fun path => secretPath?_eq_some_iff⟩
  have outset : tree.Reaches id [] [] id := .start
  obtain ⟨passed, behind, last, reached, stops⟩ := outset.exists_stop
  exact ⟨passed, behind, last, reached, stops, reached.length_le, reached.climb_eq.symm⟩

-- Parents that go round in a circle.
example :
    let a : Directory := ⟨"a", "x", some ("b" : Text)⟩
    let b : Directory := ⟨"b", "y", some ("a" : Text)⟩
    directoryPath? ⟨"r", [], [("a", a), ("b", b)], []⟩ "a" = none := by
  cbv

end AuditTrail.Tree
