import AuditTrail.Json.Writer
import AuditTrail.Text.Utf8
import Mathlib.Data.List.TakeWhile

/-!
# Texts that can be written

UTF-8 has octets for exactly the texts without surrogates, and a text in JSON is always one of
them: whatever a code point is, its escape is made of ASCII.
-/

namespace AuditTrail

/-- A text without surrogates. -/
def Text.IsWritable (text : Text) : Prop := ∀ c ∈ text, c.isSurrogate = false

instance (text : Text) : Decidable text.IsWritable :=
  inferInstanceAs (Decidable (∀ c ∈ text, c.isSurrogate = false))

/-- A code point of a character has its number. -/
@[simp] theorem CodePoint.val_ofChar (c : Char) : (CodePoint.ofChar c).val = c.toNat := rfl

/-- Code points of characters are told apart by the characters. -/
theorem CodePoint.ofChar_inj {a b : Char} :
    CodePoint.ofChar a = CodePoint.ofChar b ↔ a = b := by
  refine ⟨fun same => Char.toNat_inj.mp ?_, congrArg _⟩
  have number : (CodePoint.ofChar a).val = (CodePoint.ofChar b).val := by rw [same]
  exact number

namespace Text

@[simp] theorem isWritable_nil : IsWritable [] := by simp [IsWritable]

@[simp] theorem isWritable_cons (c : CodePoint) (rest : Text) :
    IsWritable (c :: rest) ↔ c.isSurrogate = false ∧ IsWritable rest := by simp [IsWritable]

@[simp] theorem isWritable_append (left right : Text) :
    IsWritable (left ++ right) ↔ IsWritable left ∧ IsWritable right := by
  simp [IsWritable, or_imp, forall_and]

/-- ASCII has no surrogates. -/
theorem isWritable_of_ascii {text : Text} (ascii : ∀ c ∈ text, c.val < 0x80) : text.IsWritable := by
  intro c member
  have low := ascii c member
  simp [CodePoint.isSurrogate]
  omega

/-- A literal in ASCII can be written. -/
theorem isWritable_ofString {literal : String} (ascii : ∀ c ∈ literal.toList, c.toNat < 0x80) :
    (ofString literal).IsWritable := by
  apply isWritable_of_ascii
  simpa [ofString] using ascii

end Text

namespace Utf8

/-- The first run of surrogates begins behind all that is none. -/
theorem firstUnwritable?_eq (text : Text) :
    firstUnwritable? text =
      match text.dropWhile fun c => !c.isSurrogate with
      | [] => none
      | first :: rest =>
        some ⟨(text.takeWhile fun c => !c.isSurrogate).length,
          ((first :: rest).takeWhile CodePoint.isSurrogate).length, first⟩ := by
  have rest : text.drop (text.takeWhile fun c => !c.isSurrogate).length =
      text.dropWhile fun c => !c.isSurrogate := by
    have split := List.takeWhile_append_dropWhile (p := fun c : CodePoint => !c.isSurrogate)
      (l := text)
    exact (congrArg (List.drop _) split.symm).trans List.drop_left
  rw [← rest]
  rfl

/-- Nothing is unwritable in a text exactly when it holds no surrogate. -/
theorem firstUnwritable?_eq_none {text : Text} :
    firstUnwritable? text = none ↔ text.IsWritable := by
  have empty : (text.dropWhile fun c => !c.isSurrogate) = [] ↔ text.IsWritable := by
    simp [Text.IsWritable]
  rw [firstUnwritable?_eq]
  cases left : text.dropWhile fun c => !c.isSurrogate with
  | nil => simpa [left] using empty
  | cons first others => simpa [left] using empty

/-- What can be written does not go on with the surrogates in front of it. -/
theorem takeWhile_isSurrogate_append (run : Text) {more : Text} (writable : more.IsWritable) :
    (run ++ more).takeWhile CodePoint.isSurrogate = run.takeWhile CodePoint.isSurrogate := by
  have none : more.takeWhile CodePoint.isSurrogate = [] := by
    cases more with
    | nil => rfl
    | cons first rest =>
        have plain := ((Text.isWritable_cons first rest).mp writable).1
        simp [plain]
  rw [List.takeWhile_append, none, List.append_nil]
  split
  next all => exact ((List.takeWhile_prefix _).eq_of_length all).symm
  next => rfl

/-- What is unwritable in a text is not changed by what stands behind it and can be written. -/
theorem firstUnwritable?_append (text : Text) {more : Text} (writable : more.IsWritable) :
    firstUnwritable? (text ++ more) = firstUnwritable? text := by
  cases left : text.dropWhile fun c => !c.isSurrogate with
  | nil =>
      have whole : text.IsWritable := by simpa [Text.IsWritable] using left
      rw [firstUnwritable?_eq_none.mpr whole, firstUnwritable?_eq_none]
      exact (Text.isWritable_append text more).mpr ⟨whole, writable⟩
  | cons first rest =>
      have fewer : (text.takeWhile fun c => !c.isSurrogate).length ≠ text.length := by
        intro all
        have same := (List.takeWhile_prefix _).eq_of_length all
        have parts := List.takeWhile_append_dropWhile (p := fun c : CodePoint => !c.isSurrogate)
          (l := text)
        rw [same, left] at parts
        simpa using congrArg List.length parts
      rw [firstUnwritable?_eq, firstUnwritable?_eq, List.dropWhile_append, List.takeWhile_append,
        left, if_neg fewer]
      have run := takeWhile_isSurrogate_append (first :: rest) writable
      simp only [List.cons_append] at run
      simp [run]

/-- A text without surrogates has octets. -/
theorem encode?_of_isWritable {text : Text} (writable : text.IsWritable) :
    encode? text = .ok (text.flatMap encodeCodePoint) := by
  simp [encode?, firstUnwritable?_eq_none.mpr writable]

end Utf8

/-! ## JSON -/

/-- A text in printable ASCII. -/
def Text.IsPrintableAscii (text : Text) : Prop := ∀ c ∈ text, 0x20 ≤ c.val ∧ c.val ≤ 0x7E

namespace Text

@[simp] theorem isPrintableAscii_append (left right : Text) :
    IsPrintableAscii (left ++ right) ↔ IsPrintableAscii left ∧ IsPrintableAscii right :=
  List.forall_mem_append

/-- A literal in printable ASCII. -/
theorem isPrintableAscii_ofString {literal : String}
    (printable : ∀ c ∈ literal.toList, 0x20 ≤ c.toNat ∧ c.toNat ≤ 0x7E) :
    (ofString literal).IsPrintableAscii := by
  simpa [IsPrintableAscii, ofString] using printable

/-- What is made of printable parts. -/
theorem isPrintableAscii_flatMap {spell : CodePoint -> Text}
    (printable : ∀ c, (spell c).IsPrintableAscii) (text : Text) :
    IsPrintableAscii (text.flatMap spell) := by
  intro part member
  obtain ⟨c, -, inside⟩ := List.mem_flatMap.mp member
  exact printable c part inside

/-- Printable ASCII can be written. -/
theorem IsPrintableAscii.isWritable {text : Text} (printable : text.IsPrintableAscii) :
    text.IsWritable :=
  isWritable_of_ascii fun c member => Nat.lt_of_le_of_lt (printable c member).2 (by decide)

end Text

namespace Utf8

/-- Printable ASCII has one octet for each code point. -/
theorem flatMap_encodeCodePoint_of_isPrintableAscii {text : Text}
    (printable : text.IsPrintableAscii) :
    text.flatMap encodeCodePoint = text.map fun c => UInt8.ofNat c.val := by
  have one : text.map encodeCodePoint = text.map fun c => [UInt8.ofNat c.val] :=
    List.map_congr_left fun c member =>
      if_pos (Nat.lt_of_le_of_lt (printable c member).2 (by decide))
  rw [List.flatMap_def, one, ← List.flatMap_def, ← List.map_eq_flatMap]

/-- Printable ASCII can be written, with one octet for each code point. -/
theorem encode?_of_isPrintableAscii {text : Text} (printable : text.IsPrintableAscii) :
    encode? text = .ok (text.map fun c => UInt8.ofNat c.val) := by
  rw [encode?_of_isWritable printable.isWritable,
    flatMap_encodeCodePoint_of_isPrintableAscii printable]

end Utf8

namespace Json

/-- A hexadecimal digit is printable. -/
theorem ofHexDigit_printable (n : Nat) (digit : n < 16) :
    0x20 ≤ (CodePoint.ofHexDigit n).val ∧ (CodePoint.ofHexDigit n).val ≤ 0x7E := by
  revert n
  decide

/-- Hexadecimal digits are printable. -/
theorem isPrintableAscii_hexadecimal (width n : Nat) :
    (Text.hexadecimal width n).IsPrintableAscii := by
  induction width generalizing n with
  | zero => simp [Text.hexadecimal, Text.IsPrintableAscii]
  | succ width inductionHypothesis =>
      refine (Text.isPrintableAscii_append _ _).mpr ⟨inductionHypothesis _, fun c member => ?_⟩
      rw [List.mem_singleton.mp member]
      exact ofHexDigit_printable _ (Nat.mod_lt _ (by decide))

/-- A unit as an escape is printable. -/
theorem isPrintableAscii_unitEscape (unit : Nat) : (unitEscape unit).IsPrintableAscii :=
  (Text.isPrintableAscii_append _ _).mpr
    ⟨Text.isPrintableAscii_ofString (by simp), isPrintableAscii_hexadecimal 4 unit⟩

/-- A code point in JSON is printable, whatever it is. -/
theorem isPrintableAscii_escaped (c : CodePoint) : (escaped c).IsPrintableAscii := by
  unfold escaped
  split
  next quoted => rcases quoted with rfl | rfl <;> simp [Text.IsPrintableAscii]
  split
  next printable => simpa [Text.IsPrintableAscii] using printable
  iterate 5
    split
    next => exact Text.isPrintableAscii_ofString (by simp)
  split
  next => exact isPrintableAscii_unitEscape _
  next =>
    exact (Text.isPrintableAscii_append _ _).mpr
      ⟨isPrintableAscii_unitEscape _, isPrintableAscii_unitEscape _⟩

/-- A text in JSON is printable, whatever it holds. -/
theorem isPrintableAscii_writeText (text : Text) : (writeText text).IsPrintableAscii := by
  have mark : Text.IsPrintableAscii "\"" := Text.isPrintableAscii_ofString (by simp)
  simp [writeText, mark, Text.isPrintableAscii_flatMap isPrintableAscii_escaped]

/-- Members whose values are texts. -/
def textMembers (members : List (Text × Text)) : Register Json :=
  members.map fun member => (member.1, .text member.2)

/-- Members whose values are texts are printable. -/
theorem isPrintableAscii_writeMembers (members : List (Text × Text)) (first : Bool) :
    (writeMembers first (textMembers members)).IsPrintableAscii := by
  have comma : Text.IsPrintableAscii "," := Text.isPrintableAscii_ofString (by simp)
  have colon : Text.IsPrintableAscii ":" := Text.isPrintableAscii_ofString (by simp)
  induction members generalizing first with
  | nil => simp [textMembers, writeMembers, Text.IsPrintableAscii]
  | cons member rest inductionHypothesis =>
      have later := inductionHypothesis false
      simp only [textMembers] at later
      cases first <;>
        simp [textMembers, writeMembers, write, isPrintableAscii_writeText, comma, colon, later]

/-- A record of texts is printable. -/
theorem isPrintableAscii_write_record (members : List (Text × Text)) :
    (write (.object (textMembers members))).IsPrintableAscii := by
  have opening : Text.IsPrintableAscii "\x7b" := Text.isPrintableAscii_ofString (by simp)
  have closing : Text.IsPrintableAscii "\x7d" := Text.isPrintableAscii_ofString (by simp)
  simp [write, opening, closing, isPrintableAscii_writeMembers]

/-- A record of texts can be written. -/
theorem isWritable_write_record (members : List (Text × Text)) :
    (write (.object (members.map fun m => (m.1, .text m.2)))).IsWritable :=
  (isPrintableAscii_write_record members).isWritable

end Json

end AuditTrail
