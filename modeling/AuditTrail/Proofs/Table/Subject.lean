import AuditTrail.FaultKind
import AuditTrail.Proofs.Tree.Resolution

/-!
# Subjects in the tree

Directories, secrets and versions of secrets are shown by a path in the tree. What their kind says of
them does not count when the path is looked up: an id stands for the directory that has it, and only
without one for a secret, so `subjectLabel_resolves` speaks of the two paths of an id and not of the
kind. Of the root in a nameless tree nothing is said here.
-/

namespace AuditTrail

/-- The id that is looked up for a subject, and what its label has behind the path. -/
inductive Subject.IsSought (subject : Subject) : (id behind : Text) -> Prop where
  | itself (kind : subject.kind ∈ [("dir" : Text), "secret", "secret_member"]) :
      IsSought subject subject.id []
  | version {version : Int} (kind : subject.kind = ("secret_version" : Text))
      (numbered : subject.version = some version) :
      IsSought subject subject.secretId (":" ++ Text.ofInt version)

/-- The label of a subject that is sought in the tree is the path that its id is resolved to. -/
theorem Subject.IsSought.label_eq {subject : Subject} {id behind : Text}
    (sought : subject.IsSought id behind) (tree : Tree) :
    subject.label tree = subject.found ((tree.path? id).map (· ++ behind)) := by
  cases sought with
  | itself kind =>
      have other : ∀ kind ∈ [("dir" : Text), "secret", "secret_member"],
          kind ≠ "user" ∧ kind ≠ "service" ∧ kind ≠ "repo" ∧ kind ≠ "secret_key" := by decide
      simp [label, other _ kind, kind]
  | version kind numbered =>
      have other : ("secret_version" : Text) ∉
          [("user" : Text), "service", "repo", "secret_key", "dir", "secret", "secret_member"] := by
        decide
      simp only [List.mem_cons, List.not_mem_nil, or_false, not_or] at other
      simp [label, kind, numbered, other]

/-- A subject that is sought in the tree is shown by the path of the directory with its id, or else
of the secret with it, whatever its kind; and it is not resolved exactly if neither has a path. -/
theorem subjectLabel_resolves {tree : Tree} {event : Event} {subject : Subject} {id behind : Text}
    (described : event.subject = some subject) (sought : subject.IsSought id behind)
    (named : tree.directoryPath? id ≠ some []) :
    (∀ path, (tree.directoryPath? id).or (tree.secretPath? id) = some path ->
      event.subjectLabel tree = .ok (path ++ behind)) ∧
    ((∃ fault, event.subjectLabel tree = .error fault ∧ fault.kind = .resolution) ↔
      tree.directoryPath? id = none ∧ tree.secretPath? id = none) := by
  have label : event.subjectLabel tree =
      subject.found (((tree.directoryPath? id).or (tree.secretPath? id)).map (· ++ behind)) := by
    rw [Event.subjectLabel, described, ← Tree.path?_of_ne_nil named]
    exact sought.label_eq tree
  rw [label, ← Option.or_eq_none_iff]
  constructor
  · intro path located
    rw [located]
    rfl
  · cases (tree.directoryPath? id).or (tree.secretPath? id) with
    | none => simp [Subject.found, RowFault.kind]
    | some path => simp [Subject.found]

/-! ## A secret in the root -/

/-- A repository with one secret, which lies in the root. -/
def Tree.ofOneSecret : Tree :=
  ⟨"d0", "acme", [("d0", ⟨"d0", "backend", none⟩)], [("s1", ⟨"s1", "key", "d0"⟩)]⟩

/-- The paths in the tree. -/
theorem Tree.paths_ofOneSecret :
    ofOneSecret.directoryPath? "d0" = some ("acme/backend" : Text) ∧
      ofOneSecret.directoryPath? "s1" = none ∧
      ofOneSecret.secretPath? "s1" = some ("acme/backend/key" : Text) ∧
      ofOneSecret.secretPath? "d0" = none := by
  have root : ofOneSecret.directoryPath? "d0" = some ("acme/backend" : Text) :=
    directoryPath?_eq_some_iff.mpr ⟨_, .root rfl rfl, rfl⟩
  refine ⟨root, directoryPath?_of_not_filed (by decide), ?_, rfl⟩
  exact secretPath?_eq_some_iff.mpr ⟨_, _, rfl, root, rfl⟩

/-- A version of the secret is shown by the secret's path and its number. -/
theorem subjectLabel_resolves_version :
    let subject : Subject := ⟨"secret_version", "v1", [], [], [], "s1", some 3⟩
    let event : Event := ⟨[], "read", [], none, none, some subject⟩
    subject.IsSought "s1" ":3" ∧ Tree.ofOneSecret.directoryPath? "s1" ≠ some [] ∧
      event.subjectLabel Tree.ofOneSecret = .ok "acme/backend/key:3" := by
  intro subject event
  obtain ⟨-, noDirectory, ofSecret, -⟩ := Tree.paths_ofOneSecret
  have sought : subject.IsSought "s1" ":3" := by
    have behind : (":3" : Text) = ":" ++ Text.ofInt 3 := rfl
    rw [behind]
    exact .version rfl rfl
  have named : Tree.ofOneSecret.directoryPath? "s1" ≠ some [] := by simp [noDirectory]
  have located : (Tree.ofOneSecret.directoryPath? "s1").or (Tree.ofOneSecret.secretPath? "s1") =
      some ("acme/backend/key" : Text) := by rw [noDirectory, ofSecret, Option.none_or]
  exact ⟨sought, named, (subjectLabel_resolves rfl sought named).1 _ located⟩

/-- A secret whose id is the root's is shown by the root's path, and it is not missed. -/
theorem subjectLabel_of_other_kind :
    let subject : Subject := ⟨"secret", "d0", [], [], [], [], none⟩
    let event : Event := ⟨[], "read", [], none, none, some subject⟩
    Tree.ofOneSecret.secretPath? "d0" = none ∧
      event.subjectLabel Tree.ofOneSecret = .ok "acme/backend" := by
  intro subject event
  obtain ⟨root, -, -, noSecret⟩ := Tree.paths_ofOneSecret
  have sought : subject.IsSought "d0" [] := .itself (by decide)
  have resolved : Tree.ofOneSecret.path? "d0" = some ("acme/backend" : Text) := by
    rw [Tree.path?_of_ne_nil (by rw [root]; decide), root, Option.some_or]
  refine ⟨noSecret, ?_⟩
  calc event.subjectLabel Tree.ofOneSecret
      = subject.found ((Tree.ofOneSecret.path? "d0").map (· ++ [])) := sought.label_eq _
    _ = .ok "acme/backend" := by rw [resolved]; rfl

end AuditTrail
