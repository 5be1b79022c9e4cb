import AuditTrail.Proofs.Tree.Format
import AuditTrail.Proofs.Tree.Lineage
import Mathlib.Data.List.Perm.Basic

/-!
# Snapshots in another order

Two snapshots may list the same directories and the same secrets in another order, so that a
directory comes before or behind its parent. If the ids of a list differ, the trees have the same
under every id, and a climb asks for nothing else: `tree_rearranged`. Which of two records with one
id counts does depend on their order, so nothing is said of a list that has an id twice.
-/

namespace AuditTrail

/-! ## Trees that have the same under every id -/

/-- The same is found in both trees, whatever order it is filed in. -/
structure Tree.Agrees (tree other : Tree) : Prop where
  root : tree.root = other.root
  parentPath : tree.parentPath = other.parentPath
  directory : ∀ id, tree.directories.get? id = other.directories.get? id
  secret : ∀ id, tree.secrets.get? id = other.secrets.get? id

namespace Tree.Agrees

variable {tree other : Tree}

/-- Neither of two trees goes before the other. -/
theorem symm (agrees : tree.Agrees other) : other.Agrees tree where
  root := agrees.root.symm
  parentPath := agrees.parentPath.symm
  directory id := (agrees.directory id).symm
  secret id := (agrees.secret id).symm

/-- A lineage in one tree is one in the other. -/
theorem isLineage (agrees : tree.Agrees other) {id : Text} {entries : Register Directory}
    (lineage : tree.IsLineage id entries) : other.IsLineage id entries := by
  induction lineage with
  | root isRoot found =>
      exact .root (isRoot.trans agrees.root) (agrees.directory _ ▸ found)
  | child notRoot found named above inductionHypothesis =>
      exact .child (agrees.root ▸ notRoot) (agrees.directory _ ▸ found) named inductionHypothesis

/-- A path in one tree is one in the other. -/
theorem directoryPath?_eq_some (agrees : tree.Agrees other) {id path : Text}
    (located : tree.directoryPath? id = some path) : other.directoryPath? id = some path := by
  obtain ⟨entries, lineage, shape⟩ := directoryPath?_eq_some_iff.mp located
  have opening : tree.opening = other.opening := by
    rw [Tree.opening, agrees.parentPath, Tree.opening]
  exact directoryPath?_eq_some_iff.mpr ⟨entries, agrees.isLineage lineage, opening ▸ shape⟩

/-- Directories have the same paths in both. -/
theorem directoryPath?_eq (agrees : tree.Agrees other) (id : Text) :
    tree.directoryPath? id = other.directoryPath? id := by
  ext path
  exact ⟨agrees.directoryPath?_eq_some, agrees.symm.directoryPath?_eq_some⟩

/-- Secrets have the same paths in both. -/
theorem secretPath?_eq (agrees : tree.Agrees other) (id : Text) :
    tree.secretPath? id = other.secretPath? id := by
  simp only [secretPath?, agrees.secret id, agrees.directoryPath?_eq]

/-- Ids are resolved to the same in both. -/
theorem path?_eq (agrees : tree.Agrees other) (id : Text) : tree.path? id = other.path? id := by
  rw [path?, path?, agrees.directoryPath?_eq, agrees.secretPath?_eq]

end Tree.Agrees

namespace Snapshot

/-! ## Records in another order -/

/-- The ids that are texts, of all records that have such a one. -/
def ids (records : List Json) : List Text := records.filterMap (textIn? "id")

/-- Where the ids differ, at most one record has a given one. -/
theorem subsingleton_of_nodup_ids {records : List Json} (distinct : (ids records).Nodup)
    (id : Text) : {record ∈ records | textIn? "id" record = some id}.Subsingleton := by
  have apart := List.pairwise_filterMap.mp distinct
  have same := List.Pairwise.forall_of_forall_of_flip
    (R := fun first second =>
      textIn? "id" first = some id -> textIn? "id" second = some id -> first = second)
    (fun _ _ _ _ => rfl)
    (apart.imp fun differ hasId hasId' => absurd rfl (differ id hasId id hasId'))
    (apart.imp fun differ hasId hasId' => absurd rfl (differ id hasId' id hasId))
  rintro first ⟨firstIn, firstId⟩ second ⟨secondIn, secondId⟩
  exact same firstIn secondIn firstId secondId

/-- Where the ids differ, the last record with an id is the same in every order. -/
theorem lastWith_of_perm {records others : List Json} (perm : records.Perm others)
    (distinct : (ids records).Nodup) (id : Text) : lastWith id records = lastWith id others := by
  have backwards : records.reverse.Perm others.reverse :=
    records.reverse_perm.trans (perm.trans others.reverse_perm.symm)
  refine List.find?_eq_find?_of_perm backwards ?_
  simpa using subsingleton_of_nodup_ids distinct id

/-- What stands in the place of a list: the same in both, or an array of the same items in some
order. -/
inductive IsRearranged : Option Json -> Option Json -> Prop where
  | same (value : Option Json) : IsRearranged value value
  | array {items others : List Json} (perm : items.Perm others) :
      IsRearranged (some (.array items)) (some (.array others))

/-- Neither of two orders goes before the other. -/
theorem IsRearranged.symm {value other : Option Json} (rearranged : IsRearranged value other) :
    IsRearranged other value := by
  cases rearranged with
  | same => exact .same _
  | array perm => exact .array perm.symm

/-- What may stand in the place of a list of records may do so in every order. -/
theorem IsRearranged.isListing {value other : Option Json} (rearranged : IsRearranged value other)
    {fields : List Text} (listing : IsListing fields value) : IsListing fields other := by
  cases rearranged with
  | same => exact listing
  | array perm =>
      cases listing with
      | records described =>
          exact .records fun item member => described item (perm.mem_iff.mpr member)

/-- The items are the same in some order. -/
theorem IsRearranged.listed_perm {name : Text} {members others : Register Json}
    (rearranged : IsRearranged (members.get? name) (others.get? name)) :
    (listed name members).Perm (listed name others) := by
  unfold listed
  generalize members.get? name = value, others.get? name = other at rearranged
  cases rearranged with
  | same => exact .refl _
  | array perm => simpa [Json.items?] using perm

/-! ## Snapshots in another order -/

/-- The snapshots differ in the order of their directories and of their secrets, and in nothing
else. -/
structure IsRearrangement (members others : Register Json) : Prop where
  directories : IsRearranged (members.get? "dirs") (others.get? "dirs")
  secrets : IsRearranged (members.get? "secrets") (others.get? "secrets")
  remaining : ∀ name : Text, name ≠ "dirs" -> name ≠ "secrets" ->
    members.get? name = others.get? name

namespace IsRearrangement

variable {members others : Register Json}

/-- Neither of two snapshots goes before the other. -/
theorem symm (rearranged : IsRearrangement members others) : IsRearrangement others members where
  directories := rearranged.directories.symm
  secrets := rearranged.secrets.symm
  remaining name noDirectories noSecrets :=
    (rearranged.remaining name noDirectories noSecrets).symm

/-- The member with another name is the same. -/
theorem member_eq (rearranged : IsRearrangement members others) {name : Text}
    (noDirectories : name ≠ "dirs") (noSecrets : name ≠ "secrets") :
    Json.member name members = Json.member name others := by
  rw [Json.member, rearranged.remaining name noDirectories noSecrets, Json.member]

/-- A snapshot keeps its format, though where it has none the first defect may be another one. -/
theorem isFormat (rearranged : IsRearrangement members others) (format : IsFormat members) :
    IsFormat others where
  root := rearranged.remaining "root" (by decide) (by decide) ▸ format.root
  directories := rearranged.directories.isListing format.directories
  secrets := rearranged.secrets.isListing format.secrets

/-- The trees of both have the same under every id. -/
theorem agrees (rearranged : IsRearrangement members others)
    (distinctDirectories : (ids (listed "dirs" members)).Nodup)
    (distinctSecrets : (ids (listed "secrets" members)).Nodup) (format : IsFormat members) :
    (treeOf members).Agrees (treeOf others) := by
  have describes := format.describes
  have describesOther := (rearranged.isFormat format).describes
  have sameRoot : rootOf members = rootOf others := rearranged.member_eq (by decide) (by decide)
  have sameDirectory : rootDirectory members = rootDirectory others := by
    rw [rootDirectory, sameRoot, rootDirectory]
  have root : (treeOf members).root = (treeOf others).root := by
    rw [treeOf, treeOf, sameRoot]
  refine {
    root
    parentPath := ?parentPath
    directory := fun id => ?directory
    secret := fun id => ?secret }
  case parentPath =>
    rw [treeOf, treeOf, Json.labelOf, rearranged.member_eq (by decide) (by decide), Json.labelOf]
  case directory =>
    rw [describes.directory, describesOther.directory, sameDirectory, root,
      lastWith_of_perm rearranged.directories.listed_perm distinctDirectories]
  case secret =>
    rw [describes.secret, describesOther.secret,
      lastWith_of_perm rearranged.secrets.listed_perm distinctSecrets]

end IsRearrangement

/-- What has not the format is refused. -/
theorem exists_fault_of_not_isFormat {members : Register Json} (noFormat : ¬IsFormat members) :
    ∃ fault, tree (.object members) = .error fault := by
  cases read : tree (.object members) with
  | ok result => exact absurd (tree_eq_ok_iff.mp read).1 noFormat
  | error fault => exact ⟨fault, rfl⟩

/-- Two snapshots that differ in the order of their records are both refused, or both have a tree
and every id has the same paths and is resolved to the same in the two. -/
theorem tree_rearranged {members others : Register Json}
    (rearranged : IsRearrangement members others)
    (distinctDirectories : (ids (listed "dirs" members)).Nodup)
    (distinctSecrets : (ids (listed "secrets" members)).Nodup) :
    match tree (.object members), tree (.object others) with
    | .ok first, .ok second => ∀ id, first.directoryPath? id = second.directoryPath? id ∧
        first.secretPath? id = second.secretPath? id ∧ first.path? id = second.path? id
    | .error _, .error _ => True
    | _, _ => False := by
  by_cases format : IsFormat members
  · rw [tree_eq_ok_iff.mpr ⟨format, rfl⟩, tree_eq_ok_iff.mpr ⟨rearranged.isFormat format, rfl⟩]
    have agrees := rearranged.agrees distinctDirectories distinctSecrets format
    intro id
    exact ⟨agrees.directoryPath?_eq id, agrees.secretPath?_eq id, agrees.path?_eq id⟩
  · obtain ⟨fault, refused⟩ := exists_fault_of_not_isFormat format
    obtain ⟨other, otherRefused⟩ :=
      exists_fault_of_not_isFormat fun format' => format (rearranged.symm.isFormat format')
    rw [refused, otherRefused]
    trivial

/-! ## A directory in front of its parent -/

/-- A repository with the records of its directories and its secrets. -/
def ofRecords (directories secrets : List Json) : Register Json :=
  [("root", .object [("id", .text "d0"), ("name", .text "repo")]),
    ("dirs", .array directories), ("secrets", .array secrets)]

/-- A directory may come before its parent, and a secret before its directory. -/
theorem tree_rearranged_childFirst :
    let app : Json := .object [("id", .text "d1"), ("name", .text "app"), ("parent_id", .text "d0")]
    let logs : Json :=
      .object [("id", .text "d2"), ("name", .text "logs"), ("parent_id", .text "d1")]
    let key : Json := .object [("id", .text "s1"), ("name", .text "key"), ("dir_id", .text "d2")]
    let token : Json :=
      .object [("id", .text "s2"), ("name", .text "token"), ("dir_id", .text "d0")]
    let members := ofRecords [app, logs] [key, token]
    let others := ofRecords [logs, app] [token, key]
    IsRearrangement members others ∧ (ids (listed "dirs" members)).Nodup ∧
      (ids (listed "secrets" members)).Nodup ∧
      ∃ first second, tree (.object members) = .ok first ∧ tree (.object others) = .ok second ∧
        first.secretPath? "s1" = some ("repo/app/logs/key" : Text) ∧
        second.secretPath? "s1" = some ("repo/app/logs/key" : Text) := by
  intro app logs key token members others
  have rearranged : IsRearrangement members others := {
    directories := .array (.swap logs app [])
    secrets := .array (.swap token key [])
    remaining := fun name noDirectories noSecrets => by
      simp [members, others, ofRecords, Register.get?, noDirectories.symm, noSecrets.symm] }
  have distinctDirectories : (ids (listed "dirs" members)).Nodup := by
    rw [show ids (listed "dirs" members) = ["d1", "d2"] from rfl]
    decide
  have distinctSecrets : (ids (listed "secrets" members)).Nodup := by
    rw [show ids (listed "secrets" members) = ["s1", "s2"] from rfl]
    decide
  obtain ⟨first, hasFirst⟩ : ∃ first, tree (.object members) = .ok first := ⟨_, rfl⟩
  obtain ⟨second, hasSecond⟩ : ∃ second, tree (.object others) = .ok second := ⟨_, rfl⟩
  have located : first.secretPath? "s1" = some ("repo/app/logs/key" : Text) := by
    cases hasFirst
    decide +kernel
  have same := tree_rearranged rearranged distinctDirectories distinctSecrets
  rw [hasFirst, hasSecond] at same
  exact ⟨rearranged, distinctDirectories, distinctSecrets, first, second, hasFirst, hasSecond,
    located, (same "s1").2.1 ▸ located⟩

end Snapshot

end AuditTrail
