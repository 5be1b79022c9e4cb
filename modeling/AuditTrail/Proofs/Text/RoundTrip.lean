import AuditTrail.Proofs.Text.Writable
import AuditTrail.Text.Blank
import AuditTrail.Text.Line

/-!
# Reading back what was written

The octets of a text without surrogates are read as that text again: `read_encode`. The reader
checks more than the writer promises, so each form of a code point, from one octet to four, is
followed through the reader once. A file is read in chunks, which may end inside a code point;
`readChunks_encode` says that it does not matter where. A text without white space is then one
line, and nothing is trimmed from it.
-/

namespace AuditTrail

namespace Utf8

/-- The number of an octet. -/
theorem toNat_ofNat {n : Nat} (small : n < 0x100) : (UInt8.ofNat n).toNat = n :=
  UInt8.toNat_ofNat_of_lt' small

/-! ## Sequences -/

/-- Octets that carry a sequence on to its end, where it spells a number. -/
inductive Sequence.Ends : Sequence -> Bytes -> Nat -> Prop where
  | last {s : Sequence} {b : Byte} (admitted : s.admits b = true) (one : s.missing ≤ 1) :
      Sequence.Ends s [b] (s.bitsWith b)
  | more {s : Sequence} {b : Byte} {rest : Bytes} {n : Nat} (admitted : s.admits b = true)
      (several : 1 < s.missing) (later : Sequence.Ends (s.extend b) rest n) :
      Sequence.Ends s (b :: rest) n

/-- A sequence that ends is read as the code point with its number. -/
theorem Sequence.Ends.items_append {s : Sequence} {octets : Bytes} {n : Nat}
    (ends : s.Ends octets n) (rest : Bytes) :
    items (some s) (octets ++ rest) = .codePoint (CodePoint.ofNat n) :: items none rest := by
  induction ends with
  | last admitted one => simp [items, admitted, one]
  | more admitted several later inductionHypothesis =>
      simpa [items, admitted, Nat.not_le.mpr several] using inductionHypothesis

/-- A sequence that is cut off before it ends is read as a fault at the end. -/
theorem Sequence.Ends.items_cut {s : Sequence} {octets missing : Bytes} {n : Nat}
    (ends : s.Ends (octets ++ missing) n) (cut : missing ≠ []) :
    items (some s) octets = [.fault .unexpectedEnd (s.taken ++ octets)] := by
  induction octets generalizing s with
  | nil => simp [items]
  | cons b rest inductionHypothesis =>
      generalize whole : b :: rest ++ missing = octets at ends
      cases ends with
      | last => simp [cut] at whole
      | more admitted several later =>
          obtain ⟨rfl, rfl⟩ := List.cons.inj whole
          have behind := inductionHypothesis later
          simpa [items, admitted, Nat.not_le.mpr several, Sequence.extend] using behind

/-- The number of a sequence with one more octet. -/
theorem bitsWith_ofNat (s : Sequence) {n : Nat} (small : n < 0x40) :
    s.bitsWith (UInt8.ofNat (0x80 + n)) = s.bits * 0x40 + n := by
  have octet := toNat_ofNat (show 0x80 + n < 0x100 by omega)
  unfold Sequence.bitsWith
  rw [octet]
  omega

/-- An octet in the range of a sequence is admitted. -/
theorem admits_ofNat {s : Sequence} {n : Nat} (low : s.low ≤ n) (high : n ≤ s.high)
    (small : n < 0x100) : s.admits (UInt8.ofNat n) = true := by
  simp [Sequence.admits, toNat_ofNat small, low, high]

/-- An octet that ends a sequence, and the number that it then spells. -/
theorem Sequence.ends_single {s : Sequence} {n : Nat} (low : s.low ≤ 0x80)
    (high : 0xBF ≤ s.high) (one : s.missing = 1) (small : n < 0x40) :
    s.Ends [UInt8.ofNat (0x80 + n)] (s.bits * 0x40 + n) := by
  rw [← bitsWith_ofNat s small]
  exact .last (admits_ofNat (by omega) (by omega) (by omega)) (Nat.le_of_eq one)

/-- An octet that continues a sequence, which goes on as if it began there. -/
theorem Sequence.ends_cons {s : Sequence} {n number : Nat} {rest : Bytes}
    (low : s.low ≤ 0x80 + n) (high : 0x80 + n ≤ s.high) (several : 1 < s.missing)
    (small : n < 0x40) (later : ∀ taken,
      Sequence.Ends ⟨taken, s.bits * 0x40 + n, s.missing - 1, 0x80, 0xBF⟩ rest number) :
    s.Ends (UInt8.ofNat (0x80 + n) :: rest) number := by
  refine .more (admits_ofNat low high (by omega)) several ?_
  rw [Sequence.extend, bitsWith_ofNat s small]
  exact later _

/-! ## Code points -/

/-- Octets of which the first starts a sequence that the others carry on to a number. -/
def IsSequenceOf (n : Nat) (octets : Bytes) : Prop :=
  ∃ b rest s, octets = b :: rest ∧ start b = .sequence s ∧ s.taken = [b] ∧ s.Ends rest n

/-- Two octets are a sequence. -/
theorem isSequenceOf_two {n : Nat} (least : 0x80 ≤ n) (most : n < 0x800) :
    IsSequenceOf n [UInt8.ofNat (0xC0 + n / 0x40), UInt8.ofNat (0x80 + n % 0x40)] := by
  have lead := toNat_ofNat (show 0xC0 + n / 0x40 < 0x100 by omega)
  have starts : start (UInt8.ofNat (0xC0 + n / 0x40)) =
      .sequence ⟨[UInt8.ofNat (0xC0 + n / 0x40)], n / 0x40, 1, 0x80, 0xBF⟩ := by
    simp only [start, lead, Nat.add_sub_cancel_left]
    rw [if_neg (by omega), if_neg (by omega), if_pos (by omega)]
  have second : Sequence.Ends ⟨[UInt8.ofNat (0xC0 + n / 0x40)], n / 0x40, 1, 0x80, 0xBF⟩
      [UInt8.ofNat (0x80 + n % 0x40)] (n / 0x40 * 0x40 + n % 0x40) :=
    Sequence.ends_single (by simp) (by simp) rfl (by omega)
  rw [Nat.div_add_mod'] at second
  exact ⟨_, _, _, rfl, starts, rfl, second⟩

/-- Three octets are a sequence. The range of the second one rules out surrogates. -/
theorem isSequenceOf_three {n : Nat} (least : 0x800 ≤ n) (most : n < 0x10000)
    (notSurrogate : n < 0xD800 ∨ 0xDFFF < n) :
    IsSequenceOf n [UInt8.ofNat (0xE0 + n / 0x1000), UInt8.ofNat (0x80 + n / 0x40 % 0x40),
      UInt8.ofNat (0x80 + n % 0x40)] := by
  have lead := toNat_ofNat (show 0xE0 + n / 0x1000 < 0x100 by omega)
  obtain ⟨s, starts, taken, bits, missing, low, high⟩ : ∃ s,
      start (UInt8.ofNat (0xE0 + n / 0x1000)) = .sequence s ∧
        s.taken = [UInt8.ofNat (0xE0 + n / 0x1000)] ∧ s.bits = n / 0x1000 ∧ s.missing = 2 ∧
        s.low ≤ 0x80 + n / 0x40 % 0x40 ∧ 0x80 + n / 0x40 % 0x40 ≤ s.high := by
    simp only [start, lead, Nat.add_sub_cancel_left]
    rw [if_neg (by omega), if_neg (by omega), if_neg (by omega), if_pos (by omega)]
    refine ⟨_, rfl, rfl, rfl, rfl, ?_, ?_⟩ <;> simp only <;> split <;> omega
  have number : (n / 0x1000 * 0x40 + n / 0x40 % 0x40) * 0x40 + n % 0x40 = n := by omega
  have third (taken : Bytes) :
      Sequence.Ends ⟨taken, n / 0x1000 * 0x40 + n / 0x40 % 0x40, 1, 0x80, 0xBF⟩
        [UInt8.ofNat (0x80 + n % 0x40)] n := by
    simpa only [number] using Sequence.ends_single
      (s := ⟨taken, n / 0x1000 * 0x40 + n / 0x40 % 0x40, 1, 0x80, 0xBF⟩) (Nat.le_refl _)
      (Nat.le_refl _) rfl (show n % 0x40 < 0x40 by omega)
  refine ⟨_, _, s, rfl, starts, taken, Sequence.ends_cons low high (by omega) (by omega) ?_⟩
  rw [bits, missing]
  exact third

/-- Four octets are a sequence. The range of the second one keeps it below the last. -/
theorem isSequenceOf_four {n : Nat} (least : 0x10000 ≤ n) (most : n < 0x110000) :
    IsSequenceOf n [UInt8.ofNat (0xF0 + n / 0x40000), UInt8.ofNat (0x80 + n / 0x1000 % 0x40),
      UInt8.ofNat (0x80 + n / 0x40 % 0x40), UInt8.ofNat (0x80 + n % 0x40)] := by
  have lead := toNat_ofNat (show 0xF0 + n / 0x40000 < 0x100 by omega)
  obtain ⟨s, starts, taken, bits, missing, low, high⟩ : ∃ s,
      start (UInt8.ofNat (0xF0 + n / 0x40000)) = .sequence s ∧
        s.taken = [UInt8.ofNat (0xF0 + n / 0x40000)] ∧ s.bits = n / 0x40000 ∧ s.missing = 3 ∧
        s.low ≤ 0x80 + n / 0x1000 % 0x40 ∧ 0x80 + n / 0x1000 % 0x40 ≤ s.high := by
    simp only [start, lead, Nat.add_sub_cancel_left]
    rw [if_neg (by omega), if_neg (by omega), if_neg (by omega), if_neg (by omega),
      if_pos (by omega)]
    refine ⟨_, rfl, rfl, rfl, rfl, ?_, ?_⟩ <;> simp only <;> split <;> omega
  have number : ((n / 0x40000 * 0x40 + n / 0x1000 % 0x40) * 0x40 + n / 0x40 % 0x40) * 0x40
      + n % 0x40 = n := by omega
  have fourth (taken : Bytes) :
      Sequence.Ends ⟨taken, (n / 0x40000 * 0x40 + n / 0x1000 % 0x40) * 0x40 + n / 0x40 % 0x40, 1,
        0x80, 0xBF⟩ [UInt8.ofNat (0x80 + n % 0x40)] n := by
    simpa only [number] using Sequence.ends_single
      (s := ⟨taken, (n / 0x40000 * 0x40 + n / 0x1000 % 0x40) * 0x40 + n / 0x40 % 0x40, 1, 0x80,
        0xBF⟩) (Nat.le_refl _) (Nat.le_refl _) rfl (show n % 0x40 < 0x40 by omega)
  have third (taken : Bytes) :
      Sequence.Ends ⟨taken, n / 0x40000 * 0x40 + n / 0x1000 % 0x40, 2, 0x80, 0xBF⟩
        [UInt8.ofNat (0x80 + n / 0x40 % 0x40), UInt8.ofNat (0x80 + n % 0x40)] n :=
    Sequence.ends_cons (by simp) (by simp only; omega) (by simp) (by omega) fourth
  refine ⟨_, _, s, rfl, starts, taken, Sequence.ends_cons low high (by omega) (by omega) ?_⟩
  rw [bits, missing]
  exact third

/-- The octets of a code point: one for those of ASCII, and a sequence for all others. -/
theorem encodeCodePoint_cases {c : CodePoint} (writable : c.isSurrogate = false) :
    (c.val < 0x80 ∧ encodeCodePoint c = [UInt8.ofNat c.val]) ∨
      IsSequenceOf c.val (encodeCodePoint c) := by
  unfold encodeCodePoint
  simp only
  split
  next ascii => exact .inl ⟨ascii, rfl⟩
  split
  next notOne two => exact .inr (isSequenceOf_two (by omega) two)
  split
  next notTwo three =>
    have notSurrogate : c.val < 0xD800 ∨ 0xDFFF < c.val := by
      simp [CodePoint.isSurrogate] at writable
      omega
    exact .inr (isSequenceOf_three (by omega) three notSurrogate)
  next notThree => exact .inr (isSequenceOf_four (by omega) c.isLt)

/-- The octets of a code point are read as the code point. -/
theorem items_encodeCodePoint {c : CodePoint} (writable : c.isSurrogate = false) (rest : Bytes) :
    items none (encodeCodePoint c ++ rest) = .codePoint c :: items none rest := by
  have same : CodePoint.ofNat c.val = c := Fin.ofNat_val_eq_self c
  rcases encodeCodePoint_cases writable with
    ⟨ascii, single⟩ | ⟨b, others, s, octets, starts, -, ends⟩
  · have octet := toNat_ofNat (show c.val < 0x100 by omega)
    rw [single]
    simp [items, start, octet, ascii, same]
  · rw [octets, List.cons_append, items]
    simp only [starts]
    rw [ends.items_append, same]

/-- The octets of a code point that are cut off are read as a fault at the end. -/
theorem items_of_cut {c : CodePoint} (writable : c.isSurrogate = false) {octets missing : Bytes}
    (whole : encodeCodePoint c = octets ++ missing) (cut : missing ≠ []) (some : octets ≠ []) :
    items none octets = [.fault .unexpectedEnd octets] := by
  obtain ⟨first, rest, rfl⟩ := List.exists_cons_of_ne_nil some
  rcases encodeCodePoint_cases writable with
    ⟨-, single⟩ | ⟨b, others, s, sequence, starts, taken, ends⟩
  · rw [single] at whole
    simp at whole
    exact absurd whole.2.2 cut
  · rw [sequence] at whole
    obtain ⟨rfl, rfl⟩ := List.cons.inj whole
    rw [items]
    simp only [starts]
    rw [ends.items_cut cut, taken, List.singleton_append]

/-! ## Texts -/

/-- The octets of a text are read as its code points, whatever stands behind them. -/
theorem items_flatMap_encodeCodePoint {text : Text} (writable : text.IsWritable) (rest : Bytes) :
    items none (text.flatMap encodeCodePoint ++ rest) =
      text.map .codePoint ++ items none rest := by
  induction text with
  | nil => rfl
  | cons c others inductionHypothesis =>
      obtain ⟨first, later⟩ := (Text.isWritable_cons c others).mp writable
      rw [List.flatMap_cons, List.append_assoc, items_encodeCodePoint first,
        inductionHypothesis later, List.map_cons, List.cons_append]

/-- Code points alone hold no fault; one behind them is at the place where their octets end. -/
theorem untilFault_map_codePoint (position : Nat) (text : Text) (rest : List Item) :
    untilFault position (text.map .codePoint ++ rest) =
      (text ++ (untilFault (position + (text.flatMap encodeCodePoint).length) rest).1,
        (untilFault (position + (text.flatMap encodeCodePoint).length) rest).2) := by
  induction text generalizing position with
  | nil => simp
  | cons c others inductionHypothesis =>
      simp [untilFault, inductionHypothesis, Nat.add_assoc]

/-- Octets are decoded to the text that was written in them. -/
theorem decode?_encode {text : Text} (writable : text.IsWritable) :
    decode? (text.flatMap encodeCodePoint) = .ok text := by
  have read := items_flatMap_encodeCodePoint writable []
  rw [List.append_nil] at read
  rw [decode?, read, untilFault_map_codePoint]
  simp [items, untilFault]

/-! ## Chunks -/

/-- Octets at the end of a chunk that begin a code point. -/
def IsCut (octets : Bytes) : Prop :=
  octets = [] ∨ ∃ c missing, CodePoint.isSurrogate c = false ∧ missing ≠ [] ∧
    encodeCodePoint c = octets ++ missing

/-- A text of which a chunk is cut off has code points before the cut and others behind it. -/
theorem exists_cut {text : Text} (writable : text.IsWritable) {chunk rest : Bytes}
    (parts : text.flatMap encodeCodePoint = chunk ++ rest) :
    ∃ before after left, text = before ++ after ∧
      chunk = before.flatMap encodeCodePoint ++ left ∧
      after.flatMap encodeCodePoint = left ++ rest ∧ IsCut left := by
  induction text generalizing chunk with
  | nil =>
      obtain ⟨rfl, rfl⟩ := List.append_eq_nil_iff.mp parts.symm
      exact ⟨[], [], [], rfl, rfl, rfl, .inl rfl⟩
  | cons c others inductionHypothesis =>
      obtain ⟨first, later⟩ := (Text.isWritable_cons c others).mp writable
      rw [List.flatMap_cons] at parts
      rcases List.append_eq_append_iff.mp parts with
        ⟨further, rfl, behind⟩ | ⟨missing, inside, behind⟩
      · obtain ⟨before, after, left, rfl, rfl, joined, cut⟩ := inductionHypothesis later behind
        exact ⟨c :: before, after, left, rfl, by simp, joined, cut⟩
      · by_cases whole : missing = []
        · subst whole
          rw [List.append_nil] at inside
          exact ⟨[c], others, [], rfl, by simp [inside], by simpa using behind.symm, .inl rfl⟩
        · refine ⟨[], c :: others, chunk, rfl, rfl, ?_, .inr ⟨c, missing, first, whole, inside⟩⟩
          rw [List.flatMap_cons, inside, behind, List.append_assoc]

/-- A chunk is read up to the code point that its end cuts off. -/
theorem decodePart?_encode {text : Text} (writable : text.IsWritable) {left : Bytes}
    (cut : IsCut left) : decodePart? (text.flatMap encodeCodePoint ++ left) = .ok (text, left) := by
  unfold decodePart?
  rw [items_flatMap_encodeCodePoint writable, untilFault_map_codePoint]
  by_cases none : left = []
  · simp [none, items, untilFault]
  · obtain ⟨c, missing, first, some, whole⟩ := cut.resolve_left none
    rw [items_of_cut first whole some none]
    simp [untilFault]

/-- A text is read back from its chunks, wherever their ends are. -/
theorem readChunks_encode {text : Text} (writable : text.IsWritable) {pending : Bytes}
    {chunks : List Bytes} (parts : text.flatMap encodeCodePoint = pending ++ chunks.flatten) :
    readChunks pending chunks = ⟨text, none⟩ := by
  induction chunks generalizing text pending with
  | nil =>
      rw [List.flatten_nil, List.append_nil] at parts
      rw [readChunks, ← parts, decode?_encode writable]
  | cons chunk rest inductionHypothesis =>
      rw [List.flatten_cons, ← List.append_assoc] at parts
      obtain ⟨before, after, left, rfl, octets, joined, cut⟩ := exists_cut writable parts
      obtain ⟨first, later⟩ := (Text.isWritable_append before after).mp writable
      rw [readChunks, octets, decodePart?_encode first cut]
      simp only [inductionHypothesis later joined]

/-- The chunks of a file are its octets. -/
theorem flatten_chunks (octets : Bytes) : (chunks octets).flatten = octets := by
  fun_induction chunks octets with
  | case1 => rfl
  | case2 octets some inductionHypothesis =>
      rw [List.flatten_cons, inductionHypothesis, List.take_append_drop]

/-- A file reads as the text that was written to it. -/
theorem read_encode {text : Text} (writable : text.IsWritable) :
    read (text.flatMap encodeCodePoint) = ⟨text, none⟩ :=
  readChunks_encode writable (by rw [flatten_chunks, List.nil_append])

end Utf8

namespace Text

/-- A text without white space. -/
def IsSolid (t : Text) : Prop := ∀ c ∈ t, c.isBlank = false

/-- Line ends are white space. -/
theorem IsSolid.ne_lineEnd {t : Text} (solid : t.IsSolid) {c : CodePoint} (member : c ∈ t) :
    c ≠ lineFeed ∧ c ≠ carriageReturn := by
  have notBlank := solid c member
  constructor <;> rintro rfl <;> exact absurd notBlank (by decide)

/-- Nothing is trimmed from a text without white space. -/
theorem IsSolid.trim {t : Text} (solid : t.IsSolid) : t.trim = t := by
  have kept {t : Text} (solid : t.IsSolid) : t.dropWhile CodePoint.isBlank = t := by
    cases t with
    | nil => rfl
    | cons c rest => simp [solid c List.mem_cons_self]
  have reversed : IsSolid t.reverse := fun c member => solid c (List.mem_reverse.mp member)
  rw [Text.trim, trimBoth, kept solid, kept reversed, List.reverse_reverse]

/-- A text without white space has no line end to be written otherwise. -/
theorem IsSolid.unifyNewlines {t : Text} (solid : t.IsSolid) : t.unifyNewlines = t := by
  unfold Text.unifyNewlines
  induction t with
  | nil => rfl
  | cons c rest inductionHypothesis =>
      have notEnd := solid.ne_lineEnd List.mem_cons_self
      have others := inductionHypothesis fun c member => solid c (List.mem_cons_of_mem _ member)
      simp [unifyFrom, notEnd, others]

/-- A text without white space is one line. -/
theorem IsSolid.lines {t : Text} (solid : t.IsSolid) (some : t ≠ []) : t.lines = [t] := by
  have unended : endedLines t = ([], t) := by
    clear some
    induction t with
    | nil => rfl
    | cons c rest inductionHypothesis =>
        have notEnd := solid.ne_lineEnd List.mem_cons_self
        have others := inductionHypothesis fun c member => solid c (List.mem_cons_of_mem _ member)
        simp [endedLines, notEnd, others]
  simp [Text.lines, unended, some]

end Text

end AuditTrail
