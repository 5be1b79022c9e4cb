import AuditTrail.Text.Line
import Mathlib.Algebra.Order.BigOperators.Group.List
import Mathlib.Algebra.Order.Ring.Nat

/-!
# Joined texts

How long a text is that was joined from parts, which code points it holds, where its parts stand
in it, and into which pieces its line ends cut it.
-/

namespace AuditTrail.Text

/-- A line end is one code point. -/
theorem length_lineEnd : List.length ("\n" : Text) = 1 := rfl

/-- Joined parts hold what the parts hold, and the separator. -/
theorem mem_join {c : CodePoint} {separator : Text} {parts : List Text} (other : c ∉ separator) :
    c ∈ join separator parts ↔ ∃ part ∈ parts, c ∈ part := by
  unfold join
  induction parts with
  | nil => simp
  | cons part rest inductionHypothesis =>
      cases rest with
      | nil => simp
      | cons next others =>
          rw [List.intercalate_cons_cons]
          simp only [List.mem_append, inductionHypothesis, List.mem_cons, other]
          simp

/-- The length of joined parts. -/
theorem length_join (separator : Text) (parts : List Text) :
    (join separator parts).length =
      (parts.map List.length).sum + separator.length * (parts.length - 1) := by
  unfold join
  induction parts with
  | nil => rfl
  | cons part rest inductionHypothesis =>
      cases rest with
      | nil => simp
      | cons next others =>
          rw [List.intercalate_cons_cons]
          simp only [List.length_append, inductionHypothesis]
          simp [Nat.mul_add]
          omega

/-- How often a code point stands in joined parts. -/
theorem count_join (c : CodePoint) (separator : Text) (parts : List Text) :
    (join separator parts).count c =
      (parts.map (List.count c)).sum + separator.count c * (parts.length - 1) := by
  unfold join
  induction parts with
  | nil => rfl
  | cons part rest inductionHypothesis =>
      cases rest with
      | nil => simp
      | cons next others =>
          rw [List.intercalate_cons_cons]
          simp only [List.count_append, inductionHypothesis]
          simp [Nat.mul_add]
          omega

/-- Where a part begins in the text that parts are joined to. -/
def partStart (separator : Text) (parts : List Text) (index : Nat) : Nat :=
  ((parts.take index).map List.length).sum + separator.length * index

/-- From the beginning of a part on, joined parts are this part and the later ones joined. -/
theorem drop_partStart_join {separator : Text} {parts : List Text} {index : Nat}
    (inside : index < parts.length) :
    (join separator parts).drop (partStart separator parts index) =
      join separator (parts.drop index) := by
  induction parts generalizing index with
  | nil => simp at inside
  | cons part rest inductionHypothesis =>
      cases index with
      | zero => simp [partStart]
      | succ index =>
          have within : index < rest.length := by simpa using inside
          obtain ⟨next, others, shape⟩ : ∃ next others, rest = next :: others :=
            List.exists_cons_of_length_pos (Nat.zero_lt_of_lt within)
          have opened : join separator (part :: rest) =
              (part ++ separator) ++ join separator rest := by
            rw [shape]
            exact List.intercalate_cons_cons
          have start : partStart separator (part :: rest) (index + 1) =
              (part ++ separator).length + partStart separator rest index := by
            simp only [partStart, List.take_succ_cons, List.map_cons, List.sum_cons,
              List.length_append, Nat.mul_add]
            omega
          rw [opened, start, List.drop_length_add_append, inductionHypothesis within]
          rfl

/-- Each part stands in the joined text where it begins. -/
theorem take_partStart_join {separator : Text} {parts : List Text} {index : Nat}
    (inside : index < parts.length) :
    ((join separator parts).drop (partStart separator parts index)).take parts[index].length =
      parts[index] := by
  rw [drop_partStart_join inside, List.drop_eq_getElem_cons inside]
  generalize parts.drop (index + 1) = later
  cases later with
  | nil => simp [join]
  | cons next others => simp [join, List.intercalate_cons_cons]

/-- Behind each part but the last stands the separator. -/
theorem take_behind_part_join {separator : Text} {parts : List Text} {index : Nat}
    (inside : index + 1 < parts.length) :
    ((join separator parts).drop (partStart separator parts index + parts[index].length)).take
        separator.length = separator := by
  rw [← List.drop_drop, drop_partStart_join (Nat.lt_of_succ_lt inside),
    List.drop_eq_getElem_cons (Nat.lt_of_succ_lt inside), List.drop_eq_getElem_cons inside]
  generalize parts.drop (index + 1 + 1) = later
  simp [join, List.intercalate_cons_cons, List.append_assoc]

/-- A text has one piece more than code points at which it is cut. -/
theorem length_splitOn (c : CodePoint) (text : Text) :
    (text.splitOn c).length = text.count c + 1 := by
  induction text with
  | nil => rfl
  | cons first rest inductionHypothesis =>
      rw [List.splitOn_cons_eq_if_modifyHead, List.count_cons]
      split <;> simp [inductionHypothesis]

/-- No piece of a text is longer than the text. -/
theorem length_le_of_mem_splitOn {c : CodePoint} {text piece : Text}
    (member : piece ∈ text.splitOn c) : piece.length ≤ text.length := by
  have rejoined : join [c] (text.splitOn c) = text := List.intercalate_splitOn c
  calc piece.length
      ≤ ((text.splitOn c).map List.length).sum :=
        List.le_sum_of_mem (List.mem_map_of_mem member)
    _ ≤ (join [c] (text.splitOn c)).length := by rw [length_join]; exact Nat.le_add_right _ _
    _ = text.length := by rw [rejoined]

/-- A piece between the line ends of joined lines lies in one of the lines. -/
theorem mem_splitOn_join {lines : List Text} (some : lines ≠ []) {piece : Text}
    (member : piece ∈ (join "\n" lines).splitOn lineFeed) :
    ∃ line ∈ lines, piece ∈ line.splitOn lineFeed := by
  induction lines with
  | nil => exact absurd rfl some
  | cons line rest inductionHypothesis =>
      cases rest with
      | nil => exact ⟨line, by simp, by simpa [join] using member⟩
      | cons next others =>
          have opened : join "\n" (line :: next :: others) =
              line ++ lineFeed :: join "\n" (next :: others) := by
            unfold join
            rw [List.intercalate_cons_cons, List.append_assoc]
            rfl
          rw [opened, List.splitOn_append_cons_self] at member
          rcases List.mem_append.mp member with here | later
          · exact ⟨line, by simp, here⟩
          · obtain ⟨line', among, inside⟩ := inductionHypothesis (by simp) later
            exact ⟨line', List.mem_cons_of_mem _ among, inside⟩

end AuditTrail.Text
