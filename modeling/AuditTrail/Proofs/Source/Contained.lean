import AuditTrail.FaultKind
import AuditTrail.Proofs.Files.Known
import AuditTrail.Proofs.Json.Nesting
import AuditTrail.Proofs.Text.RoundTrip

/-!
# What a file can be refused for

Whatever a file holds, its feed ends with a fault of the source or with none, and a tree in a
file is had or the request for it is at fault. There are two exceptions: a path for which the
system has no octets, and a whole numeral that is too long in the first record that describes no
event, or in the snapshot. `inputs_contained_iff` says that there are no others as long as the
path has no null character and nothing nests too deep.
-/

namespace AuditTrail

/-- A text that is refused for a whole numeral that is too long. -/
def Json.IsOversized (t : Text) : Prop := ∃ digits, Json.read t = .error (.oversized digits)

/-- Without deep nesting, such numerals are the only thing that JSON allows and the reader does
not. -/
theorem Json.kind_of_read {t : Text} {fault : Json.ReadFault}
    (refused : Json.read t = .error fault) (shallow : Json.nesting t ≤ Json.deepestNesting)
    (blamed : FaultKind) (other : blamed ≠ .value) :
    fault.kind blamed = blamed ↔ ¬Json.IsOversized t := by
  have told := Json.of_read_eq_error refused
  cases fault with
  | malformed defect left => simp [Json.ReadFault.kind, Json.IsOversized, refused]
  | oversized digits => simp [Json.ReadFault.kind, Json.IsOversized, refused, other.symm]
  | tooDeep container => exact absurd told (by simpa using shallow)

/-- What bars a file is to blame on it exactly if its path is known. -/
theorem FileFault.kind_of_content {files : Files} {path : Text} {fault : FileFault}
    (noNull : Path.null ∉ path) (refused : files.content (Path.normal path) = .error fault)
    (blamed : FaultKind) (other : blamed ≠ .encoding) :
    fault.kind blamed = blamed ↔ Path.IsKnown path := by
  constructor
  · intro blames
    by_contra unknown
    obtain ⟨unwritable, barred⟩ :=
      Files.content_of_not_isKnown (mt Path.isKnown_normal.mp unknown) files
    cases refused.symm.trans barred
    exact other blames.symm
  · intro known
    have told := Files.isSystems_of_content (Path.isKnown_normal.mpr known)
      (mt Path.null_mem_normal.mp noNull) refused
    cases fault with
    | nullByte | unwritable => cases told
    | missing | notFolder | isFolder | nameTooLong => rfl

/-- A file that can be had has a known path. -/
theorem Path.isKnown_of_content {files : Files} {path : Text} {content : Bytes}
    (found : files.content (Path.normal path) = .ok content) : Path.IsKnown path := by
  by_contra unknown
  obtain ⟨fault, barred⟩ :=
    Files.content_of_not_isKnown (mt Path.isKnown_normal.mp unknown) files
  cases found.symm.trans barred

/-- A text without long numerals is not refused for one. -/
theorem Json.not_isOversized_of_short {t : Text}
    (short : ∀ count, ¬Json.HasLongNumeral count t) : ¬Json.IsOversized t := by
  rintro ⟨digits, refused⟩
  exact short digits (Json.of_read_eq_error refused)

namespace Feed

/-- A feed that ends with a fault of the source or with none. -/
def IsContained (feed : Feed) : Prop := ∀ fault, feed.fault? = some fault -> fault.kind = .source

/-- The records in lines. -/
def records (lines : List Text) : List Text := (lines.map Text.trim).filter fun t => !t.isEmpty

/-- The records in the content of a file that are met before it cannot be read further. -/
def recordsOf (content : Bytes) : List Text := records (Utf8.read content).lines

/-- Records of which the first that describes no event has a whole numeral that is too long. -/
inductive BreaksOff : List Text -> Prop where
  | here {record : Text} {rest : List Text} (oversized : Json.IsOversized record) :
      BreaksOff (record :: rest)
  | later {record : Text} {members : Register Json} {rest : List Text}
      (described : Json.read record = .ok (.object members)) (later : BreaksOff rest) :
      BreaksOff (record :: rest)

/-- Without records nothing breaks off. -/
theorem not_breaksOff_nil : ¬BreaksOff [] := nofun

/-- A record that is refused breaks the others off exactly for a numeral. -/
theorem breaksOff_of_error {record : Text} {rest : List Text} {fault : Json.ReadFault}
    (refused : Json.read record = .error fault) :
    BreaksOff (record :: rest) ↔ Json.IsOversized record := by
  refine ⟨fun breaks => ?_, .here⟩
  cases breaks with
  | here oversized => exact oversized
  | later described => simp [refused] at described

/-- A record that is read does not break the others off. -/
theorem breaksOff_of_ok {record : Text} {rest : List Text} {value : Json}
    (read : Json.read record = .ok value) :
    BreaksOff (record :: rest) ↔ (∃ members, value = .object members) ∧ BreaksOff rest := by
  constructor
  · intro breaks
    cases breaks with
    | here oversized => simp [Json.IsOversized, read] at oversized
    | later described later => exact ⟨⟨_, Except.ok.inj (read.symm.trans described)⟩, later⟩
  · rintro ⟨⟨members, rfl⟩, later⟩
    exact .later read later

/-- Records without long numerals do not break off. -/
theorem not_breaksOff_of_short {records : List Text}
    (short : ∀ record ∈ records, ∀ count, ¬Json.HasLongNumeral count record) :
    ¬BreaksOff records := by
  intro breaks
  induction breaks with
  | here oversized =>
      exact Json.not_isOversized_of_short (short _ List.mem_cons_self) oversized
  | later described later inductionHypothesis =>
      exact inductionHypothesis fun record member => short record (List.mem_cons_of_mem _ member)

/-- The events of lines are contained unless a record breaks them off. -/
theorem ofLines_isContained_iff {path : Text} {ending : Feed} {line : Nat} {lines : List Text}
    (ends : ending.IsContained)
    (shallow : ∀ record ∈ records lines, Json.nesting record ≤ Json.deepestNesting) :
    (ofLines path ending line lines).IsContained ↔ ¬BreaksOff (records lines) := by
  induction lines generalizing line with
  | nil => simpa [ofLines, records, not_breaksOff_nil] using ends
  | cons text rest inductionHypothesis =>
      by_cases blank : text.trim = []
      · have skipped : records (text :: rest) = records rest := by simp [records, blank]
        rw [skipped] at shallow ⊢
        simpa [ofLines, blank] using inductionHypothesis shallow
      · have first : records (text :: rest) = text.trim :: records rest := by
          simp [records, blank]
        rw [first] at shallow ⊢
        obtain ⟨here, others⟩ := List.forall_mem_cons.mp shallow
        simp only [ofLines, List.isEmpty_iff, blank, if_false]
        cases read : Json.read text.trim with
        | error fault =>
            rw [breaksOff_of_error read]
            simpa [IsContained, fault?, SourceFault.kind] using
              Json.kind_of_read read here .source (by decide)
        | ok value =>
            rw [breaksOff_of_ok read]
            cases value with
            | object members => simpa [IsContained, fault?] using inductionHypothesis others
            | null | bool | int | real | text | array =>
                simp [IsContained, fault?, SourceFault.kind]

/-- The events of a content are contained unless a record breaks them off. -/
theorem ofContent_isContained_iff {path : Text} {content : Bytes}
    (shallow : ∀ record ∈ recordsOf content, Json.nesting record ≤ Json.deepestNesting) :
    (ofContent path content).IsContained ↔ ¬BreaksOff (recordsOf content) := by
  have ends : (ofEnd path (Utf8.read content).fault?).IsContained := by
    cases (Utf8.read content).fault? <;> simp [ofEnd, IsContained, fault?, SourceFault.kind]
  exact ofLines_isContained_iff ends shallow

/-- The records in a stored file, none if it cannot be had. -/
def recordsIn (files : Files) (path : Text) : List Text :=
  match files.content (Path.normal path) with
  | .error _ => []
  | .ok content => recordsOf content

/-- The events of a file are contained exactly when its path is known and no record breaks them
off. -/
theorem ofFile_isContained_iff {files : Files} {path : Text} (noNull : Path.null ∉ path)
    (shallow : ∀ record ∈ recordsIn files path, Json.nesting record ≤ Json.deepestNesting) :
    (ofFile files path).IsContained ↔ Path.IsKnown path ∧ ¬BreaksOff (recordsIn files path) := by
  unfold recordsIn at shallow ⊢
  simp only [ofFile]
  cases found : files.content (Path.normal path) with
  | error fault =>
      have blame := FileFault.kind_of_content noNull found .source (by decide)
      simpa [IsContained, fault?, SourceFault.kind, not_breaksOff_nil] using blame
  | ok content =>
      rw [found] at shallow
      simpa [Path.isKnown_of_content found] using ofContent_isContained_iff shallow

end Feed

namespace Tree

/-- A loading that comes to a tree or blames the request. -/
def Loading.IsContained (loading : Loading) : Prop :=
  ∀ fault, loading.result = .error fault -> fault.kind = .request

/-- The text of the snapshot in a stored file, if it can be had. -/
def snapshotIn? (files : Files) (path : Text) : Option Text :=
  match files.content (Path.normal path) with
  | .error _ => none
  | .ok content =>
    match Utf8.decode? content with
    | .error _ => none
    | .ok text => some text.unifyNewlines

/-- A value that is found is a tree or blames the request. -/
theorem kind_of_ofValue {location : Text} {value : Json} {fault : LoadFault}
    (refused : ofValue location value = .error fault) : fault.kind = .request := by
  unfold ofValue at refused
  split at refused
  next members =>
    cases snapshot : Snapshot.tree (.object members) with
    | error defect =>
        rw [snapshot] at refused
        cases refused
        rfl
    | ok tree => rw [snapshot] at refused; cases refused
  next => cases refused; rfl

/-- The loading of a snapshot from a file is contained exactly when its path is known and its
text is not refused for a numeral. -/
theorem load_isContained_iff {files : Files} (answers : List Service.Answer)
    (token : Option Text) {location : Text} (isFile : isAddress location = false)
    (noNull : Path.null ∉ location)
    (shallow : ∀ text ∈ snapshotIn? files location, Json.nesting text ≤ Json.deepestNesting) :
    (load files answers token location).IsContained ↔
      Path.IsKnown location ∧ ∀ text ∈ snapshotIn? files location, ¬Json.IsOversized text := by
  unfold snapshotIn? at shallow ⊢
  simp only [Loading.IsContained, load, isFile, Bool.false_eq_true, if_false, readFile]
  cases found : files.content (Path.normal location) with
  | error fault =>
      have blame := FileFault.kind_of_content noNull found .request (by decide)
      simpa [Except.bind, LoadFault.kind] using blame
  | ok content =>
      simp only [found] at shallow
      simp only [Path.isKnown_of_content found, true_and, readContent]
      cases decoded : Utf8.decode? content with
      | error fault => simp [Except.bind, LoadFault.kind]
      | ok text =>
          simp only [decoded] at shallow
          have nests := shallow _ rfl
          simp only [Option.mem_def, Option.some.injEq, forall_eq']
          cases read : Json.read text.unifyNewlines with
          | error fault =>
              simpa [Except.bind, Except.mapError, LoadFault.kind] using
                Json.kind_of_read read nests .request (by decide)
          | ok value =>
              have notOversized : ¬Json.IsOversized text.unifyNewlines := by
                simp [Json.IsOversized, read]
              simp only [notOversized, not_false_eq_true, iff_true]
              exact fun fault refused => kind_of_ofValue refused

end Tree

/-! ## Both files -/

/-- Without null characters and deep nesting, a file of events and a snapshot in a file are
contained exactly when their paths are known and no whole numeral that is too long is met. Short
numerals are enough for that. -/
theorem inputs_contained_iff {files : Files} (answers : List Service.Answer) (token : Option Text)
    {source snapshot : Text} (isFile : isAddress snapshot = false)
    (noNull : Path.null ∉ source ∧ Path.null ∉ snapshot)
    (shallow : ∀ record ∈ Feed.recordsIn files source, Json.nesting record ≤ Json.deepestNesting)
    (shallowSnapshot : ∀ text ∈ Tree.snapshotIn? files snapshot,
      Json.nesting text ≤ Json.deepestNesting) :
    let feed := Feed.ofFile files source
    let loading := Tree.load files answers token snapshot
    (feed.IsContained ↔
      Path.IsKnown source ∧ ¬Feed.BreaksOff (Feed.recordsIn files source)) ∧
    (loading.IsContained ↔
      Path.IsKnown snapshot ∧ ∀ text ∈ Tree.snapshotIn? files snapshot, ¬Json.IsOversized text) ∧
    (Path.IsKnown source ->
      (∀ record ∈ Feed.recordsIn files source, ∀ count, ¬Json.HasLongNumeral count record) ->
      feed.IsContained) ∧
    (Path.IsKnown snapshot ->
      (∀ text ∈ Tree.snapshotIn? files snapshot, ∀ count, ¬Json.HasLongNumeral count text) ->
      loading.IsContained) := by
  have events := Feed.ofFile_isContained_iff noNull.1 shallow
  have tree := Tree.load_isContained_iff answers token isFile noNull.2 shallowSnapshot
  refine ⟨events, tree, fun known short => ?_, fun known short => ?_⟩
  · exact events.mpr ⟨known, Feed.not_breaksOff_of_short short⟩
  · exact tree.mpr ⟨known, fun text found => Json.not_isOversized_of_short (short text found)⟩

/-- A folder with one file in it. -/
def Files.single (text : Text) : Files :=
  ⟨[([("log" : Text)], .file (text.flatMap Utf8.encodeCodePoint))]⟩

/-- The file is found. -/
theorem Files.content_single (text : Text) :
    (Files.single text).content (Path.normal "log") =
      .ok (text.flatMap Utf8.encodeCodePoint) := by
  have normal : Path.normal "log" = "log" := by
    simp [Path.normal, Path.components, Path.root, Path.slash, Text.ofString,
      CodePoint.ofChar_inj, Text.join]
  have octets : Path.octets? 0 "log" = .ok [0x6C, 0x6F, 0x67] := rfl
  have components : Path.components "log" = ["log"] := by
    simp [Path.components, Path.slash, Text.ofString, CodePoint.ofChar_inj]
  rw [normal]
  simp [Files.single, Files.content, Files.find, octets, pathBound, components, Files.walk,
    Files.start, Files.node?, Files.step, Files.isOutside, Path.octetCount, longestName]
  simp [Text.ofString, CodePoint.ofChar_inj, Files.top, Path.slash]

/-- The only record in the file. -/
theorem Feed.recordsIn_single {text : Text} (writable : text.IsWritable) (solid : text.IsSolid)
    (some : text ≠ []) : Feed.recordsIn (Files.single text) "log" = [text] := by
  rw [Feed.recordsIn, Files.content_single]
  simp [Feed.recordsOf, Utf8.read_encode writable, Utf8.Reading.lines, solid.unifyNewlines,
    solid.lines some, Feed.records, solid.trim, some]

/-- The snapshot in the file. -/
theorem Tree.snapshotIn?_single {text : Text} (writable : text.IsWritable)
    (solid : text.IsSolid) : Tree.snapshotIn? (Files.single text) "log" = some text := by
  rw [Tree.snapshotIn?, Files.content_single]
  simp [Utf8.decode?_encode writable, solid.unifyNewlines]

/-- The path of the file is known. -/
theorem Path.isKnown_log : Path.IsKnown "log" ∧ Path.null ∉ ("log" : Text) := by
  constructor
  · intro c member surrogate
    have writable : Text.IsWritable "log" := Text.isWritable_ofString (by simp)
    exact absurd (writable c member) (by simp [surrogate])
  · simp [Path.null, Text.ofString]
    decide

/-- A snapshot at the path is looked for in the file. -/
theorem isAddress_log : isAddress "log" = false := rfl

/-- An object without members is contained, as an event and as a snapshot. -/
theorem inputs_contained_empty :
    (Feed.ofFile (Files.single "\x7b\x7d") "log").IsContained ∧
      (Tree.load (Files.single "\x7b\x7d") [] none "log").IsContained := by
  have writable : Text.IsWritable "\x7b\x7d" := Text.isWritable_ofString (by simp)
  have solid : Text.IsSolid "\x7b\x7d" := by
    intro c member
    have brace : c = CodePoint.ofChar '\x7b' ∨ c = CodePoint.ofChar '\x7d' := by
      simpa [Text.ofString] using member
    rcases brace with rfl | rfl <;> decide
  have records := Feed.recordsIn_single writable solid (by decide)
  have snapshot := Tree.snapshotIn?_single writable solid
  have read : Json.read "\x7b\x7d" = .ok (.object []) := rfl
  have nests : Json.nesting "\x7b\x7d" ≤ Json.deepestNesting := by decide
  have shallow : ∀ record ∈ Feed.recordsIn (Files.single "\x7b\x7d") "log",
      Json.nesting record ≤ Json.deepestNesting := by simpa [records] using nests
  have shallowSnapshot : ∀ text ∈ Tree.snapshotIn? (Files.single "\x7b\x7d") "log",
      Json.nesting text ≤ Json.deepestNesting := by simpa [snapshot] using nests
  obtain ⟨known, noNull⟩ := Path.isKnown_log
  obtain ⟨events, tree, -⟩ := inputs_contained_iff [] none isAddress_log ⟨noNull, noNull⟩ shallow
    shallowSnapshot
  refine ⟨events.mpr ⟨known, ?_⟩, tree.mpr ⟨known, ?_⟩⟩
  · rw [records, Feed.breaksOff_of_ok read]
    exact fun breaks => Feed.not_breaksOff_nil breaks.2
  · simp [snapshot, Json.IsOversized, read]

/-- A whole numeral that is too long is contained neither as an event nor as a snapshot. -/
theorem not_isContained_of_digits {c : CodePoint} {rest : Text}
    (notZero : c ≠ CodePoint.ofChar '0') (digits : ∀ digit ∈ c :: rest, digit.isDigit)
    (long : mostDigits < (c :: rest).length) :
    ¬(Feed.ofFile (Files.single (c :: rest)) "log").IsContained ∧
      ¬(Tree.load (Files.single (c :: rest)) [] none "log").IsContained := by
  have oversized : Json.IsOversized (c :: rest) := ⟨_, Json.read_of_digits notZero digits long⟩
  have nests : Json.nesting (c :: rest) ≤ Json.deepestNesting := by
    have behind : Json.IsBehindPlain (c :: rest) [] :=
      ⟨c :: rest, by simp, fun digit member => Json.isPlain_of_isDigit (digits digit member)⟩
    rw [Json.nesting, ← behind.deepest_eq 0]
    exact Nat.zero_le _
  have writable : Text.IsWritable (c :: rest) := by
    refine Text.isWritable_of_ascii fun digit member => ?_
    have range := Json.val_of_isDigit (digits digit member)
    omega
  have solid : Text.IsSolid (c :: rest) := by
    intro digit member
    have range := Json.val_of_isDigit (digits digit member)
    simp [CodePoint.isBlank, scatteredBlanks]
    omega
  have records := Feed.recordsIn_single writable solid (by simp)
  have snapshot := Tree.snapshotIn?_single writable solid
  obtain ⟨known, noNull⟩ := Path.isKnown_log
  constructor
  · rw [Feed.ofFile_isContained_iff noNull (by simpa [records] using nests), records]
    exact fun contained => contained.2 (.here oversized)
  · rw [Tree.load_isContained_iff [] none isAddress_log noNull (by simpa [snapshot] using nests),
      snapshot]
    exact fun contained => contained.2 _ rfl oversized

/-- A numeral of 4301 digits is contained neither as an event nor as a snapshot. -/
theorem inputs_contained_long :
    let text : Text := List.replicate 4301 (CodePoint.ofChar '1')
    ¬(Feed.ofFile (Files.single text) "log").IsContained ∧
      ¬(Tree.load (Files.single text) [] none "log").IsContained := by
  have shape : List.replicate 4301 (CodePoint.ofChar '1') =
      CodePoint.ofChar '1' :: List.replicate 4300 (CodePoint.ofChar '1') := List.replicate_succ
  rw [shape]
  refine not_isContained_of_digits (by decide) (fun digit member => ?_) ?_
  · rw [← shape] at member
    rw [List.eq_of_mem_replicate member]
    decide
  · rw [List.length_cons, List.length_replicate, mostDigits]
    omega

end AuditTrail
