import AuditTrail.Json.Spelling
import AuditTrail.Proofs.Text.Digits

/-!
# Labels of values

A value of a record is shown by its label, whatever kind of value it is. The label is empty exactly
if the value says nothing: `label_eq_nil_iff`. Values that are no texts are spelt out, and every
spelling begins with one of a few code points, so a text that begins with another one is the label
of itself only: `label_eq_cons_iff`.
-/

namespace AuditTrail

/-- The code points that the spelling of a value begins with, texts apart. -/
def CodePoint.OpensSpelling (c : CodePoint) : Prop :=
  c.isDigit = true ∨ c ∈ ("NTF-in[\x7b" : Text)

instance : DecidablePred CodePoint.OpensSpelling :=
  fun c => inferInstanceAs (Decidable (c.isDigit = true ∨ c ∈ ("NTF-in[\x7b" : Text)))

/-- A text that begins with a code point that spellings begin with. -/
def Text.IsSpelt (t : Text) : Prop := ∃ c behind, t = c :: behind ∧ c.OpensSpelling

/-! ## Numerals -/

/-- A text that begins with a digit. -/
def Text.IsNumeral (t : Text) : Prop := ∃ c behind, t = c :: behind ∧ c.isDigit = true

/-- What begins with a digit begins as spellings do. -/
theorem Text.IsNumeral.isSpelt {t : Text} (numeral : t.IsNumeral) : t.IsSpelt := by
  obtain ⟨c, behind, rfl, digit⟩ := numeral
  exact ⟨c, behind, rfl, .inl digit⟩

/-- What stands behind a numeral does not matter. -/
theorem Text.IsNumeral.append {t : Text} (numeral : t.IsNumeral) (behind : Text) :
    (t ++ behind).IsNumeral := by
  obtain ⟨c, rest, rfl, digit⟩ := numeral
  exact ⟨c, rest ++ behind, rfl, digit⟩

/-- The first code points of a numeral are one. -/
theorem Text.IsNumeral.take {t : Text} (numeral : t.IsNumeral) {count : Nat} (nonzero : 0 < count) :
    Text.IsNumeral (t.take count) := by
  obtain ⟨c, rest, rfl, digit⟩ := numeral
  obtain ⟨count, rfl⟩ := Nat.exists_eq_add_of_lt nonzero
  exact ⟨c, rest.take _, by rw [Nat.zero_add, List.take_succ_cons], digit⟩

/-- A number in decimal begins with a digit. -/
theorem Text.isNumeral_ofNat (n : Nat) : (Text.ofNat n).IsNumeral := by
  have read := digits?_ofNat n
  cases shape : ofNat n with
  | nil =>
      rw [shape] at read
      cases read
  | cons c rest => exact ⟨c, rest, rfl, isDigit_of_mem_ofNat (shape ▸ List.mem_cons_self)⟩

/-- A number with a sign is spelt. -/
theorem Text.isSpelt_ofInt (n : Int) : (Text.ofInt n).IsSpelt := by
  cases n with
  | ofNat n => exact (isNumeral_ofNat n).isSpelt
  | negSucc n => exact ⟨_, _, rfl, .inr (by decide)⟩

/-- A numeral that is laid out begins with a digit in either form. -/
theorem Binary64.isNumeral_layOut {digits : Text} (numeral : digits.IsNumeral) (places : Int) :
    (layOut digits places).IsNumeral := by
  have zero : Text.IsNumeral "0." := ⟨_, _, rfl, by decide⟩
  unfold layOut
  split
  next =>
    split
    next => exact (zero.append _).append _
    next inside =>
      simp only [List.append_assoc]
      exact (numeral.take (by omega)).append _
  next =>
    simp only [List.append_assoc]
    exact (numeral.take (by omega)).append _

/-- A fractional number is spelt. -/
theorem Binary64.isSpelt_text (x : Binary64) : x.text.IsSpelt := by
  have signed (negative : Bool) {t : Text} (numeral : t.IsNumeral) :
      Text.IsSpelt ((if negative then ("-" : Text) else []) ++ t) := by
    cases negative with
    | false => exact numeral.isSpelt
    | true => exact ⟨_, _, rfl, .inr (by decide)⟩
  cases x with
  | nan => exact ⟨_, _, rfl, .inr (by decide)⟩
  | infinite negative => cases negative <;> exact ⟨_, _, rfl, .inr (by decide)⟩
  | finite negative significand exponent =>
      have zero : Text.IsNumeral "0.0" := ⟨_, _, rfl, by decide⟩
      unfold text
      dsimp only
      split
      next => exact signed negative zero
      next => exact signed negative (isNumeral_layOut (Text.isNumeral_ofNat _) _)

namespace Json

/-! ## Spellings -/

/-- A value that is no text is spelt. -/
theorem isSpelt_spelling {value : Json} (noText : value.text? = none) : value.spelling.IsSpelt := by
  cases value with
  | text => cases noText
  | null => exact ⟨_, _, rfl, .inr (by decide)⟩
  | bool value => cases value <;> exact ⟨_, _, rfl, .inr (by decide)⟩
  | int value =>
      rw [spelling]
      exact Text.isSpelt_ofInt value
  | real value =>
      rw [spelling]
      exact value.isSpelt_text
  | array items =>
      rw [spelling]
      exact ⟨_, _, rfl, .inr (by decide)⟩
  | object members =>
      rw [spelling]
      exact ⟨_, _, rfl, .inr (by decide)⟩

/-- Values that are no texts have a spelt label, or none. -/
theorem label_of_noText {value : Json} (noText : value.text? = none)
    (speaks : value.isVacant = false) : value.label.IsSpelt := by
  have spelt := isSpelt_spelling noText
  rw [label, speaks]
  cases value with
  | text => cases noText
  | null | bool | int | real | array | object => exact spelt

/-- A text is its own label. -/
@[simp] theorem label_text (t : Text) : (Json.text t).label = t := by
  cases t <;> rfl

/-- The label is empty exactly if the value says nothing. -/
theorem label_eq_nil_iff {value : Json} : value.label = [] ↔ value.isVacant = true := by
  constructor
  · intro empty
    by_contra speaks
    cases isText : value.text? with
    | none =>
        obtain ⟨c, behind, shape, -⟩ := label_of_noText isText (by simpa using speaks)
        simp [shape] at empty
    | some t =>
        cases value with
        | text =>
            rw [label_text] at empty
            exact speaks (by simp [isVacant, empty])
        | null | bool | int | real | array | object => cases isText
  · intro vacant
    simp [label, vacant]

/-- A text that begins as no spelling does is the label of itself only. -/
theorem label_eq_cons_iff {value : Json} {c : CodePoint} {behind : Text}
    (other : ¬c.OpensSpelling) : value.label = c :: behind ↔ value = .text (c :: behind) := by
  constructor
  · intro labelled
    cases isText : value.text? with
    | none =>
        have speaks : value.isVacant = false := by
          by_contra vacant
          simp [label_eq_nil_iff.mpr (by simpa using vacant)] at labelled
        obtain ⟨first, rest, shape, opens⟩ := label_of_noText isText speaks
        rw [labelled] at shape
        cases shape
        exact absurd opens other
    | some t =>
        cases value with
        | text => rw [← labelled, label_text]
        | null | bool | int | real | array | object => cases isText
  · rintro rfl
    exact label_text _

end Json

end AuditTrail
