import AuditTrail.Text.Basic
import Mathlib.Data.List.Induction
import Mathlib.Data.Nat.Digits.Defs
import Mathlib.Tactic.Ring

/-!
# Numbers in digits

A number that is written with a fixed number of digits, zeros in front, is read back if the digits
are enough for it, and nothing else is read: `digits?_padded` and `digits?_eq_some_iff`. A number
that is written without zeros in front is read back as well: `digits?_ofNat`.
-/

namespace AuditTrail

/-- The last decimal digit of a number. -/
def CodePoint.lastDigit (n : Nat) : CodePoint := .ofNat (0x30 + n % 10)

namespace CodePoint

/-- A last digit stands for what is left of the number without its tens. -/
theorem digit?_lastDigit (n : Nat) : (lastDigit n).digit? = some (n % 10) := by
  have number : (lastDigit n).val = 0x30 + n % 10 := Nat.mod_eq_of_lt (by omega)
  rw [digit?, number, if_pos (by omega)]
  congr 1
  omega

/-- A last digit is a digit. -/
theorem isDigit_lastDigit (n : Nat) : (lastDigit n).isDigit = true := by
  rw [isDigit, digit?_lastDigit, Option.isSome_some]

/-- Every digit is the last one of a number. -/
theorem exists_lastDigit {c : CodePoint} (digit : c.isDigit = true) :
    ∃ n, n < 10 ∧ c = lastDigit n := by
  have range : 0x30 ≤ c.val ∧ c.val ≤ 0x39 := by
    by_contra outside
    simp [isDigit, digit?, outside] at digit
  refine ⟨c.val - 0x30, by omega, ?_⟩
  apply Fin.ext
  rw [lastDigit, ofNat, Fin.val_ofNat]
  omega

/-- A last digit is no other mark. -/
theorem lastDigit_ne {n : Nat} {c : CodePoint} (other : c.isDigit = false) : lastDigit n ≠ c := by
  rintro rfl
  simp [isDigit, digit?_lastDigit] at other

end CodePoint

namespace Text

/-- One more digit on the left. -/
theorem padded_succ (width n : Nat) :
    padded (width + 1) n = padded width (n / 10) ++ [CodePoint.lastDigit n] := rfl

/-- Two digits. -/
theorem padded_two (n : Nat) :
    padded 2 n = [CodePoint.lastDigit (n / 10), CodePoint.lastDigit n] := rfl

/-- Four digits. -/
theorem padded_four (n : Nat) : padded 4 n = padded 2 (n / 10 / 10) ++ padded 2 n := rfl

/-- One more digit on the right of what has been read before. -/
theorem appendDigit_lastDigit (read n : Nat) :
    appendDigit (some read) (CodePoint.lastDigit n) = some (read * 10 + n % 10) := by
  simp [appendDigit, CodePoint.digit?_lastDigit]

/-- The digits of a number are read on behind what has been read before. -/
theorem foldl_appendDigit_padded (width n read : Nat) :
    (padded width n).foldl appendDigit (some read) = some (read * 10 ^ width + n % 10 ^ width) := by
  induction width generalizing n with
  | zero => simp [padded, Nat.mod_one]
  | succ width inductionHypothesis =>
      have digits : n % 10 ^ (width + 1) = n / 10 % 10 ^ width * 10 + n % 10 := by
        rw [pow_succ, mul_comm, Nat.mod_mul]
        ring
      rw [padded_succ, List.foldl_append, inductionHypothesis, List.foldl_cons, List.foldl_nil,
        appendDigit_lastDigit, digits]
      congr 1
      ring

/-- A number is read back from enough digits. -/
theorem digits?_padded {width n : Nat} (wide : 0 < width) (enough : n < 10 ^ width) :
    digits? (padded width n) = some n := by
  have nonempty : (padded width n).isEmpty = false := by
    rw [List.isEmpty_eq_false_iff, ← List.length_pos_iff, length_padded]
    exact wide
  rw [digits?, nonempty, foldl_appendDigit_padded, Nat.mod_eq_of_lt enough]
  simp

/-- A number in fixed width is the number in front of its last digits, and these. -/
theorem padded_add (width behind n : Nat) :
    padded (width + behind) n = padded width (n / 10 ^ behind) ++ padded behind n := by
  induction behind generalizing n with
  | zero => simp [padded]
  | succ behind inductionHypothesis =>
      rw [← Nat.add_assoc, padded_succ, inductionHypothesis, Nat.div_div_eq_div_mul,
        ← Nat.pow_succ', List.append_assoc, padded_succ behind]

/-- A number in fixed width begins with a digit. -/
theorem padded_eq_cons (width n : Nat) :
    padded (width + 1) n = CodePoint.lastDigit (n / 10 ^ width) :: padded width n := by
  rw [Nat.add_comm, padded_add]
  rfl

/-- A number in fixed width is written in digits. -/
theorem isDigit_of_mem_padded {width n : Nat} {c : CodePoint} (member : c ∈ padded width n) :
    c.isDigit = true := by
  induction width generalizing n with
  | zero => cases member
  | succ width inductionHypothesis =>
      rw [padded_succ] at member
      rcases List.mem_append.mp member with ofTens | last
      · exact inductionHypothesis ofTens
      · exact List.mem_singleton.mp last ▸ CodePoint.isDigit_lastDigit n

/-- Digits are a number in fixed width. -/
theorem exists_padded {t : Text} (digits : ∀ c ∈ t, c.isDigit = true) :
    ∃ n, n < 10 ^ t.length ∧ t = padded t.length n := by
  induction t using List.reverseRecOn with
  | nil => exact ⟨0, by simp, rfl⟩
  | append_singleton front last inductionHypothesis =>
      rw [List.forall_mem_append, List.forall_mem_singleton] at digits
      obtain ⟨tens, below, front⟩ := inductionHypothesis digits.1
      obtain ⟨ones, small, rfl⟩ := CodePoint.exists_lastDigit digits.2
      refine ⟨tens * 10 + ones, ?_, ?_⟩
      · rw [List.length_append, List.length_singleton, Nat.pow_succ]
        omega
      · have whole : (tens * 10 + ones) / 10 = tens := by omega
        have same : (tens * 10 + ones) % 10 = ones % 10 := by omega
        rw [List.length_append, List.length_singleton, padded_succ, whole, ← front,
          CodePoint.lastDigit, CodePoint.lastDigit, same]

/-- What is read as a number is written in digits. -/
theorem isDigit_of_foldl_appendDigit {t : Text} {start : Option Nat} {n : Nat}
    (read : t.foldl appendDigit start = some n) : start.isSome ∧ ∀ c ∈ t, c.isDigit = true := by
  induction t generalizing start with
  | nil => exact ⟨by rw [Option.isSome_iff_exists]; exact ⟨n, read⟩, by simp⟩
  | cons c rest inductionHypothesis =>
      obtain ⟨goesOn, digits⟩ := inductionHypothesis read
      rw [List.forall_mem_cons]
      unfold appendDigit at goesOn
      split at goesOn
      next _ digit isDigit => exact ⟨rfl, by rw [CodePoint.isDigit, isDigit]; rfl, digits⟩
      next => cases goesOn

/-- The texts that are read as a number are those that write it in fixed width. -/
theorem digits?_eq_some_iff {t : Text} {n : Nat} :
    digits? t = some n ↔ 0 < t.length ∧ n < 10 ^ t.length ∧ t = padded t.length n := by
  constructor
  · intro read
    have nonempty : 0 < t.length := by
      cases t with
      | nil => cases read
      | cons => exact Nat.succ_pos _
    have folded : t.foldl appendDigit (some 0) = some n := by
      rw [digits?, if_neg (by simpa using List.length_pos_iff.mp nonempty)] at read
      exact read
    obtain ⟨m, below, written⟩ := exists_padded (isDigit_of_foldl_appendDigit folded).2
    have readBack := digits?_padded nonempty below
    rw [← written, read, Option.some.injEq] at readBack
    exact ⟨nonempty, readBack ▸ below, readBack ▸ written⟩
  · rintro ⟨nonempty, below, written⟩
    rw [written]
    exact digits?_padded nonempty below

/-- The digits of a number are those of its tens and its last digit. -/
theorem ofNat_eq (n : Nat) :
    ofNat n =
      if n < 10 then [CodePoint.lastDigit n] else ofNat (n / 10) ++ [CodePoint.lastDigit n] := by
  have last : CodePoint.ofChar (n % 10).digitChar = CodePoint.lastDigit n := by
    have number := Nat.toNat_digitChar_of_lt_ten (Nat.mod_lt n (show 10 > 0 by omega))
    apply Fin.ext
    rw [CodePoint.ofChar, CodePoint.lastDigit, CodePoint.ofNat, Fin.val_ofNat]
    dsimp only
    omega
  rw [ofNat, Nat.toDigits_eq_if (by omega)]
  split
  next small => rw [← last, Nat.mod_eq_of_lt small, List.map_singleton]
  next => rw [List.map_append, List.map_singleton, last, ofNat]

/-- A number is written in digits. -/
theorem isDigit_of_mem_ofNat {n : Nat} {c : CodePoint} (member : c ∈ ofNat n) :
    c.isDigit = true := by
  rw [ofNat_eq] at member
  split at member
  next => exact List.mem_singleton.mp member ▸ CodePoint.isDigit_lastDigit n
  next =>
    rcases List.mem_append.mp member with ofTens | last
    · exact isDigit_of_mem_ofNat ofTens
    · exact List.mem_singleton.mp last ▸ CodePoint.isDigit_lastDigit n

/-- The digits of a number are read as this number. -/
theorem foldl_appendDigit_ofNat (n : Nat) : (ofNat n).foldl appendDigit (some 0) = some n := by
  rw [ofNat_eq]
  split
  next small =>
    rw [List.foldl_cons, List.foldl_nil, appendDigit_lastDigit, Nat.zero_mul, Nat.zero_add,
      Nat.mod_eq_of_lt small]
  next =>
    rw [List.foldl_append, foldl_appendDigit_ofNat (n / 10), List.foldl_cons, List.foldl_nil,
      appendDigit_lastDigit, Nat.div_add_mod']

/-- A number that is written without zeros in front is read back. -/
theorem digits?_ofNat (n : Nat) : digits? (ofNat n) = some n := by
  have nonempty : (ofNat n).isEmpty = false := by
    rw [ofNat_eq]
    split <;> simp
  rw [digits?, nonempty, foldl_appendDigit_ofNat]
  rfl

end Text

end AuditTrail
