import AuditTrail.Proofs.Source.Contained
import AuditTrail.Proofs.Source.Pulls
import AuditTrail.Proofs.Text.Lines

/-!
# Logs that are continued

A log in a file is continued by writing behind it. As long as every record of it describes an
event and its last line is ended, the longer log gives the events of the shorter one, and then
whatever the continuation gives as a file of its own, except that faults name lines further down:
as many as the shorter log has line ends. Nor does it matter which line ends a log uses.
-/

namespace AuditTrail

/-- A fault in lines below `lines` others. -/
def SourceFault.lowered (lines : Nat) : SourceFault -> SourceFault
  | .notJson path line record fault => .notJson path (line + lines) record fault
  | .notObject path line => .notObject path (line + lines)
  | fault => fault

/-- A file at a path that holds a text. -/
def Files.Holds (files : Files) (path text : Text) : Prop :=
  text.IsWritable ∧ files.content (Path.normal path) = .ok (text.flatMap Utf8.encodeCodePoint)

/-- A text that can be written can be written with another line end. -/
theorem Text.IsWritable.withLineEnds {text lineEnd : Text} (writable : text.IsWritable)
    (writable' : lineEnd.IsWritable) : (text.withLineEnds lineEnd).IsWritable := by
  intro c member
  obtain ⟨source, among, inside⟩ := List.mem_flatMap.mp member
  split at inside
  · exact writable' c inside
  · rw [List.mem_singleton.mp inside]
    exact writable source among

namespace Feed

variable {files files' : Files} {path : Text}

/-- A feed of lines below `lines` others. -/
def lowered (lines : Nat) : Feed -> Feed
  | .gives before event rest => .gives before event (rest.lowered lines)
  | .done before => .done before
  | .failed before fault => .failed before (fault.lowered lines)

/-- A record and the members of the object that it spells. -/
def Describes (record : Text) (members : Register Json) : Prop :=
  Json.read record = .ok (.object members)

/-- Lines with greater numbers give the same but for the numbers. -/
theorem ofLines_add (line above : Nat) (lines : List Text) :
    ofLines path (.done []) (line + above) lines =
      (ofLines path (.done []) line lines).lowered above := by
  induction lines generalizing line with
  | nil => rfl
  | cons text rest inductionHypothesis =>
      have later := inductionHypothesis (line + 1)
      rw [Nat.add_right_comm] at later
      simp only [ofLines]
      split
      · exact later
      split
      · rfl
      · simp [lowered, later]
      · rfl

/-- Lines whose records describe events give them before what the lines behind them give. -/
theorem ofLines_append {front : List Text} {objects : List (Register Json)}
    (described : List.Forall₂ Describes (records front) objects) (ending : Feed) (line : Nat)
    (back : List Text) :
    ofLines path ending line (front ++ back) =
      giving (objects.map Event.ofMembers) (ofLines path ending (line + front.length) back) := by
  induction front generalizing line objects with
  | nil =>
      cases described
      rfl
  | cons text rest inductionHypothesis =>
      have number : line + 1 + rest.length = line + (text :: rest).length := by
        simp only [List.length_cons]
        omega
      rw [List.cons_append, ofLines, ← number]
      by_cases blank : text.trim = []
      · have skipped : records (text :: rest) = records rest := by simp [records, blank]
        rw [skipped] at described
        simpa [blank] using inductionHypothesis described (line + 1)
      · have first : records (text :: rest) = text.trim :: records rest := by
          simp [records, blank]
        rw [first] at described
        obtain ⟨members, objects, here, others, rfl⟩ := List.forall₂_cons_left_iff.mp described
        unfold Describes at here
        simpa [blank, here] using inductionHypothesis others (line + 1)

/-- A file that holds a text gives what its lines give. -/
theorem ofFile_of_holds {text : Text} (holds : files.Holds path text) :
    ofFile files path =
      ofLines (Path.normal path) (.done []) 1 (Text.lines text.unifyNewlines) := by
  obtain ⟨writable, content⟩ := holds
  simp only [ofFile, content, ofContent, Utf8.read_encode writable]
  rfl

/-- Records that describe something have their objects. -/
theorem exists_described {records : List Text}
    (describe : ∀ record ∈ records, ∃ members, Describes record members) :
    ∃ objects, List.Forall₂ Describes records objects := by
  induction records with
  | nil => exact ⟨[], .nil⟩
  | cons record rest inductionHypothesis =>
      obtain ⟨⟨members, here⟩, others⟩ := List.forall_mem_cons.mp describe
      obtain ⟨objects, described⟩ := inductionHypothesis others
      exact ⟨members :: objects, .cons here described⟩

/-- A log whose records describe events, continued by another text: the events of its records
come first, and then the feed of the continuation below the lines of the log. A log without
carriage returns gives the same whichever line end it uses. -/
theorem ofFile_continued (path : Text) :
    (∀ {files files' : Files} {front back : Text}, files.Holds path (front ++ back) ->
      files'.Holds path back -> front.IsEnded ->
      (∀ record ∈ records (Text.lines front.unifyNewlines),
        ∃ members, Describes record members) ->
      ∃ objects, List.Forall₂ Describes (records (Text.lines front.unifyNewlines)) objects ∧
        ofFile files path = giving (objects.map Event.ofMembers)
          ((ofFile files' path).lowered front.lineEndCount)) ∧
    ∀ {files files' : Files} {text lineEnd : Text}, Text.carriageReturn ∉ text ->
      lineEnd = [Text.carriageReturn, Text.lineFeed] ∨ lineEnd = [Text.carriageReturn] ->
      files.Holds path text -> files'.Holds path (text.withLineEnds lineEnd) ->
      ofFile files' path = ofFile files path := by
  constructor
  · intro files files' front back whole alone ended describe
    obtain ⟨objects, described⟩ := exists_described describe
    refine ⟨objects, described, ?_⟩
    rw [ofFile_of_holds whole, ofFile_of_holds alone, Text.lines_append ended,
      ofLines_append described, Text.length_lines ended, ofLines_add]
  · intro files files' text lineEnd noReturn known holds holds'
    rw [ofFile_of_holds holds, ofFile_of_holds holds',
      Text.unifyNewlines_withLineEnds noReturn known, Text.unifyNewlines_of_noReturn noReturn]

/-- The single file in a folder holds its text. -/
theorem holds_single {text : Text} (writable : text.IsWritable) :
    (Files.single text).Holds "log" text :=
  ⟨writable, Files.content_single text⟩

/-- A record and a blank line above a value that is no object: the value stands in the third line
of the file, whether or not the first ends with a carriage return. -/
theorem ofFile_continued_blankLine :
    let front : Text := "\x7b\x7d\n\n"
    let back : Text := "[]"
    let paired := front.withLineEnds [Text.carriageReturn, Text.lineFeed]
    (Files.single (paired ++ back)).Holds "log" (paired ++ back) ∧ paired.IsEnded ∧
      ofFile (Files.single (paired ++ back)) "log" =
        .gives [] (Event.ofMembers []) (.failed [] (.notObject (Path.normal "log") 3)) ∧
      ofFile (Files.single paired) "log" = ofFile (Files.single front) "log" := by
  intro front back paired
  have writable : front.IsWritable := Text.isWritable_ofString (by simp)
  have writableBack : back.IsWritable := Text.isWritable_ofString (by simp)
  have writableEnd : Text.IsWritable [Text.carriageReturn, Text.lineFeed] :=
    Text.isWritable_of_ascii (by simp [Text.carriageReturn, Text.lineFeed])
  have writablePaired : paired.IsWritable := writable.withLineEnds writableEnd
  have whole := holds_single ((Text.isWritable_append _ _).mpr ⟨writablePaired, writableBack⟩)
  have alone := holds_single writableBack
  have ended : paired.IsEnded := ⟨paired.dropLast, by decide⟩
  have records : records (Text.lines paired.unifyNewlines) = ["\x7b\x7d"] := by decide
  have read : Json.read "\x7b\x7d" = .ok (.object []) := rfl
  have describe : ∀ record ∈ Feed.records (Text.lines paired.unifyNewlines),
      ∃ members, Describes record members := by
    rw [records]
    exact List.forall_mem_singleton.mpr ⟨[], read⟩
  obtain ⟨continued, rewritten⟩ := ofFile_continued "log"
  refine ⟨whole, ended, ?_, ?_⟩
  · obtain ⟨objects, described, same⟩ := continued whole alone ended describe
    rw [records] at described
    obtain ⟨members, rest, here, others, rfl⟩ := List.forall₂_cons_left_iff.mp described
    cases others
    cases read.symm.trans here
    have count : paired.lineEndCount = 2 := by decide
    have value : Json.read (Text.trim back) = .ok (.array []) := rfl
    have lines : Text.lines (Text.unifyNewlines back) = [back] := by decide
    have some : (Text.trim back).isEmpty = false := by decide
    rw [same, count, ofFile_of_holds alone, lines]
    simp [ofLines, value, some, lowered, SourceFault.lowered]
  · exact rewritten (by decide) (.inl rfl) (holds_single writable) (holds_single writablePaired)

end Feed

end AuditTrail
