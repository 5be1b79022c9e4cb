import AuditTrail.FaultKind
import Mathlib.Data.List.Find

/-!
# The format of snapshots

Which objects are snapshots of a tree, said without the order in which their parts are looked at, and
what the tree of a snapshot holds. An object has a tree exactly if it has the format, and every other
one is refused with a fault of the request: `tree_describes_format`. Where several records have one id
the last of them counts, and the root is like a record in front of all others.
-/

namespace AuditTrail

/-- What two steps come to, one after the other. -/
theorem bind_eq_ok_iff {ε α β : Type} {first : Except ε α} {next : α -> Except ε β} {result : β} :
    (first >>= next) = .ok result ↔ ∃ value, first = .ok value ∧ next value = .ok result := by
  cases first <;> simp [bind, Except.bind]

namespace Snapshot

/-! ## Records -/

/-- The text in a field of a record. -/
def textIn? (name : Text) (record : Json) : Option Text :=
  record.members?.bind fun members => (members.get? name).bind Json.text?

/-- The text in a field of a record that has one there. -/
def textIn (name : Text) (record : Json) : Text := (textIn? name record).getD []

/-- An object with a text in each of the fields. -/
def IsRecord (fields : List Text) (record : Json) : Prop :=
  ∃ members, record = .object members ∧
    ∀ name ∈ fields, ∃ value, Register.get? name members = some (.text value)

/-- A field is read exactly if there is a text in it. -/
theorem textField_eq_ok_iff {name : Text} {record : Json} {value : Text} :
    textField name record = .ok value ↔ textIn? name record = some value := by
  unfold textField field textIn?
  cases record with
  | object members =>
      simp only [Json.members?, Option.bind_some]
      cases Register.get? name members with
      | none => simp
      | some found => cases found <;> simp [Json.text?]
  | null | bool | int | real | text | array => simp [Json.members?]

/-- Every field of a record has a text. -/
theorem IsRecord.textIn?_eq {fields : List Text} {record : Json} (described : IsRecord fields record)
    {name : Text} (member : name ∈ fields) :
    textIn? name record = some (textIn name record) := by
  obtain ⟨members, rfl, texts⟩ := described
  obtain ⟨value, found⟩ := texts name member
  simp [textIn, textIn?, Json.members?, found, Json.text?]

/-- A value with a text in each of some fields is a record. -/
theorem isRecord_of_textIn? {name : Text} {others : List Text} {record : Json}
    (texts : ∀ field ∈ name :: others, ∃ value, textIn? field record = some value) :
    IsRecord (name :: others) record := by
  obtain ⟨value, found⟩ := texts name List.mem_cons_self
  obtain ⟨members, isObject, -⟩ := Option.bind_eq_some_iff.mp found
  cases record with
  | object members =>
      refine ⟨members, rfl, fun field member => ?_⟩
      obtain ⟨value, found⟩ := texts field member
      obtain ⟨stored, filed, isText⟩ := Option.bind_eq_some_iff.mp
        (show (Register.get? field members).bind Json.text? = some value from found)
      cases stored with
      | text stored => exact ⟨stored, filed⟩
      | null | bool | int | real | array | object => cases isText
  | null | bool | int | real | text | array => cases isObject

/-- A reader that takes the records with certain fields and no other value, each for what `of` makes
of it. -/
def Takes {α : Type} (read : Json -> Except SnapshotFault α) (fields : List Text)
    (of : Json -> α) : Prop :=
  ∀ record value, read record = .ok value ↔ IsRecord fields record ∧ value = of record

/-- The fields of a directory's record. -/
def directoryFields : List Text := ["id", "name", "parent_id"]

/-- The fields of a secret's record. -/
def secretFields : List Text := ["id", "name", "dir_id"]

/-- The directory that a record describes. -/
def directoryOf (record : Json) : Directory :=
  ⟨textIn "id" record, textIn "name" record, some (textIn "parent_id" record)⟩

/-- The secret that a record describes. -/
def secretOf (record : Json) : Secret :=
  ⟨textIn "id" record, textIn "name" record, textIn "dir_id" record⟩

/-- A reader of an id, a name and one more text takes the records that have the three. -/
theorem takes_three {α : Type} (third : Text) (make : Text -> Text -> Text -> α) :
    Takes
      (fun record => do
        let id ← textField "id" record
        let name ← textField "name" record
        let other ← textField third record
        return make id name other)
      ["id", "name", third]
      (fun record => make (textIn "id" record) (textIn "name" record) (textIn third record)) := by
  intro record value
  simp only [bind_eq_ok_iff, textField_eq_ok_iff, pure, Except.pure]
  constructor
  · rintro ⟨id, hasId, name, hasName, other, hasOther, ⟨⟩⟩
    exact ⟨isRecord_of_textIn? (by simp [hasId, hasName, hasOther]),
      by simp [textIn, hasId, hasName, hasOther]⟩
  · rintro ⟨described, rfl⟩
    exact ⟨_, described.textIn?_eq (by simp), _, described.textIn?_eq (by simp), _,
      described.textIn?_eq (by simp), rfl⟩

/-- Directories are read from their records. -/
theorem takes_directory : Takes directory directoryFields directoryOf :=
  takes_three "parent_id" fun id name parent => Directory.mk id name (some parent)

/-- Secrets are read from their records. -/
theorem takes_secret : Takes secret secretFields secretOf :=
  takes_three "dir_id" Secret.mk

/-! ## Lists of records -/

/-- What may stand in the place of a list of records: nothing, an empty text or object, or an array
of records. -/
inductive IsListing (fields : List Text) : Option Json -> Prop where
  | absent : IsListing fields none
  | emptyText : IsListing fields (some (.text []))
  | emptyObject : IsListing fields (some (.object []))
  | records {items : List Json} (described : ∀ item ∈ items, IsRecord fields item) :
      IsListing fields (some (.array items))

/-- The items of the array in a member of the snapshot. -/
def listed (name : Text) (members : Register Json) : List Json :=
  ((members.get? name).bind Json.items?).getD []

variable {α : Type} {read : Json -> Except SnapshotFault α} {fields : List Text} {of : Json -> α}

/-- Values are read one after the other exactly if all are records. -/
theorem Takes.mapM_eq_ok_iff (takes : Takes read fields of) {items : List Json} {values : List α} :
    items.mapM read = .ok values ↔
      (∀ item ∈ items, IsRecord fields item) ∧ values = items.map of := by
  induction items generalizing values with
  | nil => simp [pure, Except.pure, eq_comm]
  | cons item rest inductionHypothesis =>
      simp only [List.mapM_cons, bind_eq_ok_iff, takes item, inductionHypothesis, pure, Except.pure,
        List.forall_mem_cons, List.map_cons]
      constructor
      · rintro ⟨_, ⟨described, rfl⟩, _, ⟨others, rfl⟩, ⟨⟩⟩
        exact ⟨⟨described, others⟩, rfl⟩
      · rintro ⟨⟨described, others⟩, rfl⟩
        exact ⟨_, ⟨described, rfl⟩, _, ⟨others, rfl⟩, rfl⟩

/-- No text is a record. -/
theorem not_isRecord_text (value : Text) : ¬IsRecord fields (.text value) := by
  rintro ⟨members, isObject, -⟩
  cases isObject

/-- A member of the snapshot is read exactly if it is a listing. The parts of a text or an object are
texts, so that it must have none. -/
theorem Takes.partsOf_eq_ok_iff (takes : Takes read fields of) {name : Text}
    {members : Register Json} {values : List α} :
    (∃ items, partsOf name members = .ok items ∧ items.mapM read = .ok values) ↔
      IsListing fields (members.get? name) ∧ values = (listed name members).map of := by
  simp only [takes.mapM_eq_ok_iff, partsOf, listed]
  cases members.get? name with
  | none =>
      simp only [Option.bind_none, Option.getD_none, IsListing.absent, true_and]
      simp
  | some value =>
      cases value with
      | array items =>
          have listing : IsListing fields (some (.array items)) ↔
              ∀ item ∈ items, IsRecord fields item := by
            refine ⟨fun listing => ?_, .records⟩
            cases listing with
            | records described => exact described
          simp [parts, Json.items?, listing]
      | text value =>
          cases value with
          | nil => simp [parts, Json.items?, IsListing.emptyText]
          | cons c rest =>
              have other : ¬IsListing fields (some (.text (c :: rest))) := nofun
              simp [parts, other, not_isRecord_text]
      | object members =>
          cases members with
          | nil => simp [parts, Json.items?, IsListing.emptyObject]
          | cons entry rest =>
              have other : ¬IsListing fields (some (.object (entry :: rest))) := nofun
              simp [parts, other, not_isRecord_text]
      | null | bool | int | real =>
          simp only [parts]
          constructor
          · rintro ⟨items, impossible, -⟩
            cases impossible
          · rintro ⟨impossible, -⟩
            cases impossible

/-! ## Snapshots -/

/-- The format of a snapshot: a record for the root, and lists of records that may be left out. -/
structure IsFormat (members : Register Json) : Prop where
  root : ∃ record, members.get? "root" = some record ∧ IsRecord ["id", "name"] record
  directories : IsListing directoryFields (members.get? "dirs")
  secrets : IsListing secretFields (members.get? "secrets")

/-- The value in the place of the root. -/
def rootOf (members : Register Json) : Json := Json.member "root" members

/-- The directory that the root's record describes. It has no parent, whatever the record says. -/
def rootDirectory (members : Register Json) : Directory :=
  ⟨textIn "id" (rootOf members), textIn "name" (rootOf members), none⟩

/-- The tree of a snapshot that has the format. -/
def treeOf (members : Register Json) : Tree where
  root := textIn "id" (rootOf members)
  parentPath := Json.labelOf "parent_path" members
  directories := Register.ofPairs ((textIn "id" (rootOf members), rootDirectory members) ::
    (listed "dirs" members).map fun record => (textIn "id" record, directoryOf record))
  secrets := Register.ofPairs
    ((listed "secrets" members).map fun record => (textIn "id" record, secretOf record))

/-- The root is read exactly if it is a record. -/
theorem root_eq_ok_iff {members : Register Json} {root : Json} {id name : Text} :
    (field "root" (.object members) = .ok root ∧ textField "id" root = .ok id ∧
        textField "name" root = .ok name) ↔
      (∃ record, members.get? "root" = some record ∧ IsRecord ["id", "name"] record) ∧
        root = rootOf members ∧ id = textIn "id" root ∧ name = textIn "name" root := by
  simp only [textField_eq_ok_iff, field, rootOf, Json.member]
  cases members.get? "root" with
  | none => simp
  | some record =>
      simp only [Except.ok.injEq, Option.some.injEq, exists_eq_left', Option.getD_some]
      constructor
      · rintro ⟨rfl, hasId, hasName⟩
        exact ⟨isRecord_of_textIn? (by simp [hasId, hasName]), rfl, by simp [textIn, hasId],
          by simp [textIn, hasName]⟩
      · rintro ⟨described, rfl, rfl, rfl⟩
        exact ⟨rfl, described.textIn?_eq (by simp), described.textIn?_eq (by simp)⟩

/-- An object has a tree exactly if it has the format. -/
theorem tree_eq_ok_iff {members : Register Json} {result : Tree} :
    tree (.object members) = .ok result ↔ IsFormat members ∧ result = treeOf members := by
  simp only [tree, bind_eq_ok_iff, pure, Except.pure]
  constructor
  · rintro ⟨root, hasRoot, id, hasId, name, hasName, items, hasItems, directories, areDirectories,
      others, hasOthers, secrets, areSecrets, ⟨⟩⟩
    obtain ⟨isRoot, rfl, rfl, rfl⟩ := root_eq_ok_iff.mp ⟨hasRoot, hasId, hasName⟩
    obtain ⟨listing, rfl⟩ := takes_directory.partsOf_eq_ok_iff.mp ⟨items, hasItems, areDirectories⟩
    obtain ⟨listing', rfl⟩ := takes_secret.partsOf_eq_ok_iff.mp ⟨others, hasOthers, areSecrets⟩
    refine ⟨⟨isRoot, listing, listing'⟩, ?_⟩
    simp [treeOf, rootDirectory, Json.members?, Function.comp_def, directoryOf, secretOf]
  · rintro ⟨⟨isRoot, listing, listing'⟩, rfl⟩
    obtain ⟨hasRoot, hasId, hasName⟩ := root_eq_ok_iff.mpr ⟨isRoot, rfl, rfl, rfl⟩
    obtain ⟨items, hasItems, areDirectories⟩ :=
      takes_directory.partsOf_eq_ok_iff.mpr ⟨listing, rfl⟩
    obtain ⟨others, hasOthers, areSecrets⟩ := takes_secret.partsOf_eq_ok_iff.mpr ⟨listing', rfl⟩
    refine ⟨_, hasRoot, _, hasId, _, hasName, items, hasItems, _, areDirectories, others, hasOthers,
      _, areSecrets, ?_⟩
    simp [treeOf, rootDirectory, Json.members?, Function.comp_def, directoryOf, secretOf]

/-! ## What the tree holds -/

/-- The last record with an id. -/
def lastWith (id : Text) (records : List Json) : Option Json :=
  records.reverse.find? fun record => textIn? "id" record = some id

/-- Some record is the last one with an id exactly if there is one with it. -/
theorem isSome_lastWith {id : Text} {records : List Json} :
    (lastWith id records).isSome ↔ ∃ record ∈ records, textIn? "id" record = some id := by
  simp [lastWith]

/-- The items of a listing are records. -/
theorem IsListing.isRecord {name : Text} {members : Register Json}
    (listing : IsListing fields (members.get? name)) :
    ∀ item ∈ listed name members, IsRecord fields item := by
  unfold listed
  generalize members.get? name = value at listing
  cases listing with
  | records described => simpa [Json.items?] using described
  | absent | emptyText | emptyObject => simp [Json.items?]

/-- Of the records that are filed under their ids, the last one with an id is found. -/
theorem get?_filed {records : List Json} (described : ∀ record ∈ records, IsRecord fields record)
    (hasId : ("id" : Text) ∈ fields) (id : Text) (of : Json -> α) :
    Register.get? id (records.map fun record => (textIn "id" record, of record)).reverse =
      (lastWith id records).map of := by
  rw [← List.map_reverse, Register.get?_map, lastWith]
  congr 1
  refine List.find?_congr fun record member => ?_
  rw [(described record (List.mem_reverse.mp member)).textIn?_eq hasId]
  simp

/-- What the tree of a snapshot holds: the root and the directories under the ids of their records,
the secrets under those of theirs, and in each place what the last record with the id says. -/
structure Describes (members : Register Json) (result : Tree) : Prop where
  root : textIn? "id" (rootOf members) = some result.root
  parentPath : result.parentPath =
    if (Json.member "parent_path" members).isVacant then []
    else (Json.member "parent_path" members).asText
  directory : ∀ id, result.directories.get? id =
    ((lastWith id (listed "dirs" members)).map directoryOf).or
      (if id = result.root then some (rootDirectory members) else none)
  directoryIds : ∀ id, id ∈ result.directories.keys ↔
    id = result.root ∨ ∃ record ∈ listed "dirs" members, textIn? "id" record = some id
  secret : ∀ id, result.secrets.get? id = (lastWith id (listed "secrets" members)).map secretOf
  secretIds : ∀ id, id ∈ result.secrets.keys ↔
    ∃ record ∈ listed "secrets" members, textIn? "id" record = some id
  distinct : result.directories.keys.Nodup ∧ result.secrets.keys.Nodup

/-- The tree of a snapshot with the format holds what the snapshot describes. -/
theorem IsFormat.describes {members : Register Json} (format : IsFormat members) :
    Describes members (treeOf members) := by
  have directory (id : Text) : (treeOf members).directories.get? id =
      ((lastWith id (listed "dirs" members)).map directoryOf).or
        (if id = (treeOf members).root then some (rootDirectory members) else none) := by
    have filed := get?_filed format.directories.isRecord (by simp [directoryFields]) id directoryOf
    rw [treeOf, Register.get?_ofPairs, List.reverse_cons, Register.get?_append, filed]
    simp [Register.get?, eq_comm]
  have secret (id : Text) : (treeOf members).secrets.get? id =
      (lastWith id (listed "secrets" members)).map secretOf := by
    rw [treeOf, Register.get?_ofPairs]
    exact get?_filed format.secrets.isRecord (by simp [secretFields]) id secretOf
  refine {
    root := ?root
    parentPath := rfl
    directory
    directoryIds := fun id => ?directoryIds
    secret
    secretIds := fun id => ?secretIds
    distinct := ⟨Register.nodup_keys_ofPairs _, Register.nodup_keys_ofPairs _⟩ }
  case root =>
    obtain ⟨record, found, described⟩ := format.root
    have isRoot : rootOf members = record := by simp [rootOf, Json.member, found]
    rw [treeOf, isRoot]
    exact described.textIn?_eq (by simp)
  case directoryIds =>
    rw [← Register.isSome_get?, directory, Option.isSome_or, Option.isSome_map, Bool.or_eq_true,
      isSome_lastWith, or_comm]
    by_cases isRoot : id = (treeOf members).root <;> simp [isRoot]
  case secretIds =>
    rw [← Register.isSome_get?, secret, Option.isSome_map, isSome_lastWith]

/-- An object with the format has a tree, which holds what the object describes, and every other
object is refused with a fault of the request. -/
theorem tree_describes_format (members : Register Json) :
    match tree (.object members) with
    | .ok result => IsFormat members ∧ Describes members result
    | .error fault => ¬IsFormat members ∧ (LoadFault.malformed fault).kind = .request := by
  cases read : tree (.object members) with
  | ok result =>
      obtain ⟨format, rfl⟩ := tree_eq_ok_iff.mp read
      exact ⟨format, format.describes⟩
  | error fault =>
      refine ⟨fun format => ?_, rfl⟩
      have accepted := tree_eq_ok_iff.mpr ⟨format, rfl⟩
      rw [read] at accepted
      cases accepted

-- A record with the root's id takes the root's place.
example :
    tree (.object [
      ("root", .object [("id", .text "r"), ("name", .text "x")]),
      ("dirs", .array [.object [("id", .text "r"), ("name", .text "y"), ("parent_id", .text "q")]])]) =
    .ok ⟨"r", [], [("r", ⟨"r", "y", some ("q" : Text)⟩)], []⟩ := by
  rfl

end Snapshot

end AuditTrail
