import AuditTrail.Proofs.Json.Nesting
import AuditTrail.Proofs.Text.Writable
import Mathlib.Data.List.Chain

/-!
# Records read back

A record of texts is read as the record that was written, whatever its texts hold, provided that
no two code points of a text could be taken for one surrogate pair. The writer spells a code
point in one escape, in a pair of them, or as it is. `readText_escaped` follows each spelling
through the reader, which may still have the first half of a pair in hand; `readText_flatMap`
is then one induction over the text, `readMembers_writeMembers` one over the members, and
`read_write_record` puts the braces around them.
-/

namespace AuditTrail

/-- The number of a code point. -/
theorem CodePoint.val_ofNat {n : Nat} (valid : n < 0x110000) : (CodePoint.ofNat n).val = n :=
  Nat.mod_eq_of_lt valid

theorem CodePoint.isHighSurrogate_iff {c : CodePoint} :
    c.isHighSurrogate = true ↔ 0xD800 ≤ c.val ∧ c.val ≤ 0xDBFF := by
  simp [CodePoint.isHighSurrogate]

theorem CodePoint.isLowSurrogate_iff {c : CodePoint} :
    c.isLowSurrogate = true ↔ 0xDC00 ≤ c.val ∧ c.val ≤ 0xDFFF := by
  simp [CodePoint.isLowSurrogate]

/-- A text in which no first half of a surrogate pair stands right before a second one. Either
half may stand alone. -/
def Text.IsUnjoined (text : Text) : Prop :=
  text.IsChain fun first second =>
    first.isHighSurrogate = true -> second.isLowSurrogate = false

instance (text : Text) : Decidable text.IsUnjoined :=
  inferInstanceAs (Decidable (text.IsChain _))

namespace Json

/-! ## Texts -/

/-- What the reader adds at once when it has read an escaped code point. -/
def settled (c : CodePoint) : Text := if c.isHighSurrogate then [] else [c]

/-- What the reader has in hand behind an escaped code point: it may be the first half of a
pair. -/
def pending (c : CodePoint) : Option CodePoint := if c.isHighSurrogate then some c else none

/-- Nothing of a code point is lost. -/
theorem settled_append_pending (c : CodePoint) : settled c ++ (pending c).toList = [c] := by
  unfold settled pending
  split <;> rfl

/-- All but the first halves of pairs are added at once. -/
theorem settled_of_not_high {c : CodePoint} (other : c.val < 0xD800 ∨ 0xDBFF < c.val) :
    settled c = [c] ∧ pending c = none := by
  have notHigh : c.isHighSurrogate = false := by
    rw [Bool.eq_false_iff, Ne, CodePoint.isHighSurrogate_iff]
    omega
  simp [settled, pending, notHigh]

/-- A step that has read something before. -/
def behind (front : Text) (step : Step Text) : Step Text :=
  step.map fun read => (front ++ read.1, read.2)

@[simp] theorem behind_ok (front text rest : Text) :
    behind front (.ok (text, rest)) = .ok (front ++ text, rest) := rfl

theorem behind_behind (first second : Text) (step : Step Text) :
    behind first (behind second step) = behind (first ++ second) step := by
  cases step <;> simp [behind, Except.map]

/-- Behind a half that waits for another half than this, a code point begins anew. -/
theorem joinHalves_eq {waiting : Option CodePoint} {c : CodePoint}
    (apart : ∀ half ∈ waiting, c.isLowSurrogate = false) :
    joinHalves waiting c = (waiting.toList ++ settled c, pending c) := by
  unfold joinHalves settled pending
  cases waiting with
  | none => simp only; split <;> rfl
  | some half =>
      simp only [apart half rfl]
      cases c.isHighSurrogate <;> simp

section

variable (opening : Text) (waiting : Option CodePoint)

/-- A code point as it is. -/
theorem readText_plain {c : CodePoint} (notQuote : c ≠ CodePoint.ofChar '"')
    (notEscape : c ≠ CodePoint.ofChar '\\') (printable : 0x20 ≤ c.val) (after : Text) :
    readText opening waiting (c :: after) =
      behind (waiting.toList ++ [c]) (readText opening none after) := by
  rw [readText.eq_def]
  simp only [if_neg notQuote, if_neg notEscape, if_neg (Nat.not_lt.mpr printable)]
  cases readText opening none after with
  | error fault => rfl
  | ok read => simp [behind, Except.map]

/-- An escape of one letter. -/
theorem readText_simpleEscape {letter meant : CodePoint}
    (means : simpleEscape? letter = some meant) (other : letter ≠ CodePoint.ofChar 'u')
    (after : Text) :
    readText opening waiting (CodePoint.ofChar '\\' :: letter :: after) =
      behind (waiting.toList ++ [meant]) (readText opening none after) := by
  have notQuote : CodePoint.ofChar '\\' ≠ CodePoint.ofChar '"' := by decide
  rw [readText.eq_def]
  simp only [if_neg notQuote, if_neg other, means, if_true]
  cases readText opening none after with
  | error fault => rfl
  | ok read => simp [behind, Except.map]

/-- Four digits denote the number that they were written for. -/
theorem fourHexDigits?_ofHexDigit {unit : Nat} (small : unit < 0x10000) :
    fourHexDigits? (.ofHexDigit (unit / 16 / 16 / 16 % 16)) (.ofHexDigit (unit / 16 / 16 % 16))
      (.ofHexDigit (unit / 16 % 16)) (.ofHexDigit (unit % 16)) = some (.ofNat unit) := by
  have digits : ∀ n < 16, (CodePoint.ofHexDigit n).hexDigit? = some n := by decide
  have digit (n : Nat) : (CodePoint.ofHexDigit (n % 16)).hexDigit? = some (n % 16) :=
    digits _ (Nat.mod_lt _ (by decide))
  have number : ((unit / 16 / 16 / 16 % 16 * 16 + unit / 16 / 16 % 16) * 16 + unit / 16 % 16) * 16
      + unit % 16 = unit := by omega
  simp only [fourHexDigits?, digit, number]

/-- An escape of four digits. The reader looks for one more code point behind them. -/
theorem readText_unitEscape {unit : Nat} (small : unit < 0x10000) {after : Text}
    (some : after ≠ []) :
    readText opening waiting (unitEscape unit ++ after) =
      behind (joinHalves waiting (.ofNat unit)).1
        (readText opening (joinHalves waiting (.ofNat unit)).2 after) := by
  obtain ⟨next, after, rfl⟩ := List.exists_cons_of_ne_nil some
  have shape : unitEscape unit ++ next :: after =
      CodePoint.ofChar '\\' :: CodePoint.ofChar 'u' :: .ofHexDigit (unit / 16 / 16 / 16 % 16) ::
        .ofHexDigit (unit / 16 / 16 % 16) :: .ofHexDigit (unit / 16 % 16) ::
        .ofHexDigit (unit % 16) :: next :: after := by
    simp [unitEscape, Text.hexadecimal, Text.ofString]
  rw [shape, readText, if_neg (by decide), if_pos rfl]
  simp only [if_true, fourHexDigits?_ofHexDigit small]
  cases readText opening (joinHalves waiting (.ofNat unit)).2 (next :: after) <;> rfl

/-- Two escapes for the halves of a code point above U+FFFF. -/
theorem readText_pair {above : Nat} (small : above < 0x100000) {after : Text}
    (some : after ≠ []) :
    readText opening waiting (unitEscape (0xD800 + above / 0x400) ++
        (unitEscape (0xDC00 + above % 0x400) ++ after)) =
      behind (waiting.toList ++ [.ofNat (0x10000 + above)]) (readText opening none after) := by
  have first := CodePoint.val_ofNat (show 0xD800 + above / 0x400 < 0x110000 by omega)
  have second := CodePoint.val_ofNat (show 0xDC00 + above % 0x400 < 0x110000 by omega)
  have high : (CodePoint.ofNat (0xD800 + above / 0x400)).isHighSurrogate = true :=
    CodePoint.isHighSurrogate_iff.mpr (by omega)
  have notLow : (CodePoint.ofNat (0xD800 + above / 0x400)).isLowSurrogate = false := by
    rw [Bool.eq_false_iff, Ne, CodePoint.isLowSurrogate_iff]
    omega
  have low : (CodePoint.ofNat (0xDC00 + above % 0x400)).isLowSurrogate = true :=
    CodePoint.isLowSurrogate_iff.mpr (by omega)
  have joined : CodePoint.ofPair (.ofNat (0xD800 + above / 0x400))
      (.ofNat (0xDC00 + above % 0x400)) = .ofNat (0x10000 + above) := by
    have number : 0x10000 + (0xD800 + above / 0x400 - 0xD800) * 0x400 +
        (0xDC00 + above % 0x400 - 0xDC00) = 0x10000 + above := by omega
    rw [CodePoint.ofPair, first, second, number]
  rw [readText_unitEscape opening waiting (by omega) (by simp [some]),
    joinHalves_eq fun _ _ => notLow, readText_unitEscape opening _ (by omega) some]
  simp [settled, pending, high, joinHalves, low, joined, behind_behind]

end

/-- However a code point is spelt, the reader reads it, unless the half in hand would take it for
its other half. -/
theorem readText_escaped (opening : Text) {waiting : Option CodePoint} {c : CodePoint}
    (apart : ∀ half ∈ waiting, c.isLowSurrogate = false) {after : Text} (some : after ≠ []) :
    readText opening waiting (escaped c ++ after) =
      behind (waiting.toList ++ settled c) (readText opening (pending c) after) := by
  -- The escapes of one letter differ in the letter and in what it means.
  have named {number : Nat} {letter : Char} (here : c.val = number) (small : number < 0xD800)
      (means : simpleEscape? (.ofChar letter) = .some (.ofNat number))
      (other : CodePoint.ofChar letter ≠ .ofChar 'u') :
      readText opening waiting (CodePoint.ofChar '\\' :: CodePoint.ofChar letter :: after) =
        behind (waiting.toList ++ settled c) (readText opening (pending c) after) := by
    obtain ⟨written, left⟩ := settled_of_not_high (c := c) (.inl (by omega))
    have same : c = .ofNat number := Fin.ext (by rw [here, CodePoint.val_ofNat (by omega)])
    rw [written, left, same]
    exact readText_simpleEscape opening waiting means other after
  have itself : CodePoint.ofNat c.val = c := Fin.ext (CodePoint.val_ofNat c.isLt)
  unfold escaped
  split
  next mark =>
    have small : c.val < 0xD800 := by rcases mark with rfl | rfl <;> decide
    have other : c ≠ .ofChar 'u' := by rcases mark with rfl | rfl <;> decide
    obtain ⟨written, left⟩ := settled_of_not_high (.inl small)
    rw [written, left]
    refine readText_simpleEscape opening waiting ?_ other after
    rw [simpleEscape?, if_pos (by tauto)]
  next unmarked =>
  rw [not_or] at unmarked
  split
  next printable =>
    obtain ⟨written, left⟩ := settled_of_not_high (c := c) (.inl (by omega))
    rw [written, left]
    exact readText_plain opening waiting unmarked.1 unmarked.2 printable.1 after
  next =>
  iterate 5
    split
    next number => exact named number (by decide) (by decide) (by decide)
    rename_i unnamed
    clear unnamed
  split
  next small =>
    rw [readText_unitEscape opening waiting small some, itself, joinHalves_eq apart]
  next large =>
    have bound := c.isLt
    have above : 0x10000 + (c.val - 0x10000) = c.val := by omega
    obtain ⟨written, left⟩ := settled_of_not_high (c := c) (.inr (by omega))
    rw [List.append_assoc, readText_pair opening waiting (by omega) some, above, itself, written,
      left]

/-- The code points of a text are read up to the quotation mark behind them. -/
theorem readText_flatMap (opening : Text) {waiting : Option CodePoint} {text : Text}
    (waits : ∀ half ∈ waiting, half.isHighSurrogate = true)
    (unjoined : Text.IsUnjoined (waiting.toList ++ text)) (rest : Text) :
    readText opening waiting (text.flatMap escaped ++ quote :: rest) =
      .ok (waiting.toList ++ text, rest) := by
  -- A half in hand counts as the beginning of the text that is still to be read.
  induction text generalizing waiting with
  | nil =>
      rw [List.flatMap_nil, List.nil_append, quote, readText.eq_def]
      simp
  | cons c text inductionHypothesis =>
      have apart : ∀ half ∈ waiting, c.isLowSurrogate = false := by
        rintro half rfl
        exact (List.isChain_cons_cons.mp unjoined).1 (waits half rfl)
      have waitsBehind : ∀ half ∈ pending c, half.isHighSurrogate = true := by
        intro half left
        simp only [pending, Option.mem_ite_none_right, Option.mem_some_iff] at left
        exact left.2 ▸ left.1
      have whole : waiting.toList ++ settled c ++ ((pending c).toList ++ text) =
          waiting.toList ++ c :: text := by
        rw [List.append_assoc, ← List.append_assoc (settled c), settled_append_pending]
        rfl
      have unjoinedBehind : Text.IsUnjoined ((pending c).toList ++ text) :=
        List.IsChain.suffix unjoined ⟨_, whole⟩
      rw [List.flatMap_cons, List.append_assoc, readText_escaped opening apart (by simp),
        inductionHypothesis waitsBehind unjoinedBehind, behind_ok, whole]

/-- A text begins with a quotation mark. -/
theorem writeText_eq_cons (text : Text) :
    writeText text = CodePoint.ofChar '"' :: (writeText text).tail := rfl

/-- Behind its first quotation mark a text is read as it was written. -/
theorem readText_writeText {text : Text} (unjoined : text.IsUnjoined) (opening rest : Text) :
    readText opening none ((writeText text).tail ++ rest) = .ok (text, rest) := by
  have shape : (writeText text).tail ++ rest = text.flatMap escaped ++ quote :: rest := by
    simp [writeText, Text.ofString, quote]
  have waits : ∀ half ∈ (none : Option CodePoint), half.isHighSurrogate = true := by simp
  rw [shape]
  exact readText_flatMap opening waits unjoined rest

/-- A text is read as it was written. -/
theorem readValue_writeText {text : Text} (unjoined : text.IsUnjoined) (fuel depth : Nat)
    (rest : Text) :
    readValue (fuel + 1) depth (writeText text ++ rest) = .ok (.text text, rest) := by
  rw [writeText_eq_cons, List.cons_append, readValue.eq_def]
  simp only [if_true, readText_writeText unjoined]

/-! ## Members -/

/-- Nothing is skipped in front of a mark that is no white space. -/
theorem skipSpacing_mark (mark : Char) (other : isSpacing (.ofChar mark) = false) (rest : Text) :
    skipSpacing (CodePoint.ofChar mark :: rest) = CodePoint.ofChar mark :: rest := by
  simp [skipSpacing, other]

/-- Nothing is skipped in front of a text. -/
theorem skipSpacing_writeText (text rest : Text) :
    skipSpacing (writeText text ++ rest) = writeText text ++ rest :=
  skipSpacing_mark '"' (by decide) _

/-- The first member begins with its name. -/
theorem writeMembers_true_cons (member : Text × Text) (others : List (Text × Text)) :
    writeMembers true (textMembers (member :: others)) =
      writeText member.1 ++ CodePoint.ofChar ':' ::
        (writeText member.2 ++ writeMembers false (textMembers others)) := by
  simp [writeMembers, textMembers, write, Text.ofString]

/-- A later member has a comma in front. -/
theorem writeMembers_false_cons (member : Text × Text) (others : List (Text × Text)) :
    writeMembers false (textMembers (member :: others)) =
      CodePoint.ofChar ',' :: writeMembers true (textMembers (member :: others)) := by
  simp [writeMembers, textMembers, Text.ofString]

/-- Nothing is skipped in front of members. -/
theorem skipSpacing_writeMembers (member : Text × Text) (others : List (Text × Text))
    (rest : Text) :
    skipSpacing (writeMembers true (textMembers (member :: others)) ++ rest) =
      writeMembers true (textMembers (member :: others)) ++ rest := by
  rw [writeMembers_true_cons, List.append_assoc, skipSpacing_writeText]

/-- Every member takes a code point at least. -/
theorem length_le_length_writeMembers (members : List (Text × Text)) (first : Bool) :
    members.length ≤ (writeMembers first (textMembers members)).length := by
  induction members generalizing first with
  | nil => exact Nat.zero_le _
  | cons member others inductionHypothesis =>
      have later := inductionHypothesis false
      have named : others.length + 1 ≤
          (writeMembers true (textMembers (member :: others))).length := by
        rw [writeMembers_true_cons]
        simp only [List.length_cons, List.length_append]
        omega
      cases first with
      | true => exact named
      | false =>
          rw [writeMembers_false_cons]
          exact Nat.le_succ_of_le named

/-- Names and values whose texts are read as they were written. -/
def AreUnjoined (members : List (Text × Text)) : Prop :=
  ∀ member ∈ members, member.1.IsUnjoined ∧ member.2.IsUnjoined

/-- Members are read as they were written up to the brace behind them. -/
theorem readMembers_writeMembers {members : List (Text × Text)} (some : members ≠ [])
    (unjoined : AreUnjoined members) {fuel : Nat} (enough : members.length < fuel) (depth : Nat)
    (rest : Text) :
    readMembers fuel depth
        (writeMembers true (textMembers members) ++ CodePoint.ofChar '\x7d' :: rest) =
      .ok (textMembers members, rest) := by
  have colon (rest : Text) := skipSpacing_mark ':' (by decide) rest
  have comma (rest : Text) := skipSpacing_mark ',' (by decide) rest
  have brace (rest : Text) := skipSpacing_mark '\x7d' (by decide) rest
  have differ : CodePoint.ofChar ',' ≠ CodePoint.ofChar '\x7d' := by decide
  induction members generalizing fuel with
  | nil => exact absurd rfl some
  | cons member others inductionHypothesis =>
      obtain ⟨⟨name, value⟩, othersUnjoined⟩ := List.forall_mem_cons.mp unjoined
      -- One call for the member and one for its value.
      obtain ⟨fuel, rfl⟩ : ∃ left, fuel = left + 2 :=
        ⟨fuel - 2, by rw [List.length_cons] at enough; omega⟩
      rw [writeMembers_true_cons, List.append_assoc, writeText_eq_cons, List.cons_append,
        readMembers.eq_def]
      simp only [ne_eq, not_true_eq_false, if_false, List.cons_append, List.append_assoc,
        readText_writeText name, colon, skipSpacing_writeText, readValue_writeText value]
      cases others with
      | nil => simp [textMembers, writeMembers, brace]
      | cons next others =>
          have enoughBehind : (next :: others).length < fuel + 1 := by simpa using enough
          have later := inductionHypothesis (by simp) othersUnjoined enoughBehind
          rw [writeMembers_false_cons, List.cons_append, comma]
          simp only [if_neg differ, if_true, skipSpacing_writeMembers, later]
          rfl

/-! ## Records -/

/-- A record begins with a brace and ends with one. -/
theorem write_record (members : List (Text × Text)) :
    write (.object (textMembers members)) = CodePoint.ofChar '\x7b' ::
      (writeMembers true (textMembers members) ++ [CodePoint.ofChar '\x7d']) := by
  simp [write, Text.ofString]

/-- A record whose names differ is read as it was written, if a container may still open. -/
theorem readValue_write_record {members : List (Text × Text)}
    (distinct : (members.map Prod.fst).Nodup) (unjoined : AreUnjoined members) {fuel : Nat}
    (enough : members.length < fuel) (depth : Nat) :
    readValue (fuel + 1) (depth + 1) (write (.object (textMembers members))) =
      .ok (.object (textMembers members), []) := by
  have notQuote : CodePoint.ofChar '\x7b' ≠ CodePoint.ofChar '"' := by decide
  have notBracket : CodePoint.ofChar '\x7b' ≠ CodePoint.ofChar '[' := by decide
  rw [write_record, readValue.eq_def]
  simp only [if_neg notQuote, if_neg notBracket, if_true]
  cases members with
  | nil => rfl
  | cons member others =>
      have names : Register.keys (textMembers (member :: others)) =
          (member :: others).map Prod.fst := by simp [Register.keys, textMembers]
      have filled : (writeMembers true (textMembers (member :: others)) ++
          [CodePoint.ofChar '\x7d']).head? ≠ some (CodePoint.ofChar '\x7d') := by
        rw [writeMembers_true_cons, writeText_eq_cons]
        simp only [List.cons_append, List.head?_cons]
        decide
      rw [skipSpacing_writeMembers, if_neg filled,
        readMembers_writeMembers (by simp) unjoined enough]
      simp only [Register.ofPairs_of_nodup (names ▸ distinct)]

/-- A record whose names differ is read as it was written. -/
theorem read_write_record {members : List (Text × Text)}
    (distinct : (members.map Prod.fst).Nodup) (unjoined : AreUnjoined members) :
    read (write (.object (textMembers members))) = .ok (.object (textMembers members)) := by
  have noMark : CodePoint.ofChar '\x7b' ≠ CodePoint.ofNat 0xFEFF := by decide
  have enough : members.length < 2 * (write (.object (textMembers members))).length + 1 := by
    have long := length_le_length_writeMembers members true
    rw [write_record, List.length_cons, List.length_append]
    omega
  have begins : skipSpacing (write (.object (textMembers members))) =
      write (.object (textMembers members)) := by
    rw [write_record]
    exact skipSpacing_mark '\x7b' (by decide) _
  obtain ⟨depth, allowed⟩ : ∃ depth, deepestNesting = depth + 1 := ⟨989, rfl⟩
  have whole := readValue_write_record distinct unjoined enough depth
  rw [Json.read, if_neg (by rw [write_record]; simp [noMark]), begins, allowed, whole]
  rfl

end Json

end AuditTrail
