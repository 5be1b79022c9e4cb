import AuditTrail.Text.Line

/-!
# The lines of a text and its line ends

The lines of a text that is ended by a line feed are told apart from whatever follows it:
`lines_append`. There are as many of them as line ends, where a carriage return and a line feed
together are one (`length_lines`), and it makes no difference which of the line ends a text uses
as long as it uses the same throughout (`unifyNewlines_withLineEnds`).
-/

namespace AuditTrail.Text

/-- How many lines end in a text, a carriage return with a line feed behind it ending one. -/
def lineEndCount : Text -> Nat
  | [] => 0
  | c :: rest =>
    lineEndCount rest +
      if c = lineFeed ∨ (c = carriageReturn ∧ rest.head? ≠ some lineFeed) then 1 else 0

/-- A text whose last line is ended by a line feed. -/
def IsEnded (t : Text) : Prop := ∃ body, t = body ++ [lineFeed]

/-- A text with another line end in the place of every line feed. -/
def withLineEnds (t lineEnd : Text) : Text :=
  t.flatMap fun c => if c = lineFeed then lineEnd else [c]

/-- The two line ends differ. -/
theorem lineFeed_ne_carriageReturn : lineFeed ≠ carriageReturn := by decide

/-! ## Counting -/

/-- As many lines are ended as there are line feeds. -/
theorem length_endedLines (t : Text) : (endedLines t).1.length = t.count lineFeed := by
  fun_induction endedLines t with
  | case1 => rfl
  | case2 rest lines tail found inductionHypothesis =>
      simpa [found, List.count_cons] using inductionHypothesis
  | case3 c rest tail found other inductionHypothesis =>
      simpa [found, List.count_cons, other] using inductionHypothesis
  | case4 c rest tail other line more found inductionHypothesis =>
      simpa [found, List.count_cons, other] using inductionHypothesis

/-- Unifying line ends keeps their number; a line feed that belongs to the carriage return before
the text is not counted. -/
theorem count_unifyFrom (afterReturn : Bool) (t : Text) :
    (unifyFrom afterReturn t).count lineFeed +
      (if afterReturn = true ∧ t.head? = some lineFeed then 1 else 0) = lineEndCount t := by
  fun_induction unifyFrom afterReturn t with
  | case1 => simp [lineEndCount]
  | case2 afterReturn rest inductionHypothesis =>
      have other : carriageReturn ≠ lineFeed := lineFeed_ne_carriageReturn.symm
      by_cases pair : rest.head? = some lineFeed <;>
        simp [lineEndCount, pair, other] at inductionHypothesis ⊢ <;> omega
  | case3 afterReturn c rest notReturn pair inductionHypothesis =>
      simp [lineEndCount, pair] at inductionHypothesis ⊢
      omega
  | case4 afterReturn c rest notReturn unpaired inductionHypothesis =>
      have single : ¬(afterReturn = true ∧ c = lineFeed) := unpaired ∘ And.symm
      simp [lineEndCount, notReturn, single, List.count_cons] at inductionHypothesis ⊢
      omega

/-- As many lines of a text are ended as it has line ends. -/
theorem length_endedLines_unifyNewlines (t : Text) :
    (endedLines t.unifyNewlines).1.length = lineEndCount t := by
  have counted := count_unifyFrom false t
  rw [length_endedLines, unifyNewlines]
  simpa using counted

/-- A text that is ended has a line end. -/
theorem IsEnded.lineEndCount_pos {t : Text} (ended : t.IsEnded) : 0 < t.lineEndCount := by
  obtain ⟨body, rfl⟩ := ended
  induction body with
  | nil => simp [lineEndCount]
  | cons c rest inductionHypothesis =>
      rw [List.cons_append, lineEndCount]
      omega

/-! ## What follows -/

/-- Behind the line feed that ends a text the line ends are unified afresh. -/
theorem unifyFrom_append (afterReturn : Bool) (body rest : Text) :
    unifyFrom afterReturn (body ++ lineFeed :: rest) =
      unifyFrom afterReturn (body ++ [lineFeed]) ++ unifyFrom false rest := by
  induction body generalizing afterReturn with
  | nil => cases afterReturn <;> simp [unifyFrom, lineFeed_ne_carriageReturn]
  | cons c body inductionHypothesis =>
      simp only [List.cons_append, unifyFrom]
      split
      · simp [inductionHypothesis]
      split
      · exact inductionHypothesis false
      · simp [inductionHypothesis]

/-- Nothing stands behind the last line of a text that is ended, unless all that it holds is the
line feed of a pair. -/
theorem tail_endedLines_unifyFrom (afterReturn : Bool) (body : Text) :
    (endedLines (unifyFrom afterReturn (body ++ [lineFeed]))).2 = [] := by
  induction body generalizing afterReturn with
  | nil => cases afterReturn <;> simp [unifyFrom, lineFeed_ne_carriageReturn, endedLines]
  | cons c body inductionHypothesis =>
      simp only [List.cons_append, unifyFrom]
      split
      · simpa [endedLines] using inductionHypothesis true
      split
      · exact inductionHypothesis false
      · have none := inductionHypothesis false
        have some : 0 < (endedLines (unifyNewlines (body ++ [lineFeed]))).1.length := by
          rw [length_endedLines_unifyNewlines]
          exact IsEnded.lineEndCount_pos ⟨body, rfl⟩
        unfold unifyNewlines at some
        simp only [endedLines]
        split
        · exact none
        · cases lines : (endedLines (unifyFrom false (body ++ [lineFeed]))).1 with
          | nil => simp [lines] at some
          | cons line more => simpa using none

/-- Nothing stands behind the last line of a text that is ended. -/
theorem IsEnded.tail_endedLines {t : Text} (ended : t.IsEnded) :
    (endedLines t.unifyNewlines).2 = [] := by
  obtain ⟨body, rfl⟩ := ended
  exact tail_endedLines_unifyFrom false body

/-- Lines of which the last is ended are told apart from those behind them. -/
theorem endedLines_append {left : Text} (ended : (endedLines left).2 = []) (right : Text) :
    endedLines (left ++ right) =
      ((endedLines left).1 ++ (endedLines right).1, (endedLines right).2) := by
  fun_induction endedLines left with
  | case1 => rfl
  | case2 rest lines tail found inductionHypothesis =>
      simp only [found] at inductionHypothesis ended
      simp [endedLines, inductionHypothesis ended]
  | case3 => simp at ended
  | case4 c rest tail other line more found inductionHypothesis =>
      simp only [found] at inductionHypothesis ended
      simp [endedLines, inductionHypothesis ended, other]

/-- The lines of a text that is ended are those before the lines of what follows it. -/
theorem lines_append {front : Text} (ended : front.IsEnded) (back : Text) :
    lines (unifyNewlines (front ++ back)) =
      lines front.unifyNewlines ++ lines back.unifyNewlines := by
  have parts : unifyNewlines (front ++ back) = front.unifyNewlines ++ back.unifyNewlines := by
    obtain ⟨body, rfl⟩ := ended
    rw [List.append_assoc]
    exact unifyFrom_append false body back
  rw [parts, lines, endedLines_append ended.tail_endedLines, lines, lines]
  simp only [ended.tail_endedLines]
  split <;> simp

/-- A text that is ended has as many lines as line ends. -/
theorem length_lines {t : Text} (ended : t.IsEnded) :
    (lines t.unifyNewlines).length = lineEndCount t := by
  rw [← length_endedLines_unifyNewlines, lines]
  simp [ended.tail_endedLines]

/-! ## Other line ends -/

/-- A text without carriage returns has its line ends unified. -/
theorem unifyNewlines_of_noReturn {t : Text} (noReturn : carriageReturn ∉ t) :
    t.unifyNewlines = t := by
  unfold unifyNewlines
  induction t with
  | nil => rfl
  | cons c rest inductionHypothesis =>
      obtain ⟨first, others⟩ := not_or.mp (mt List.mem_cons.mpr noReturn)
      simp [unifyFrom, Ne.symm first, inductionHypothesis others]

/-- Lines that end with a carriage return, or with a carriage return and a line feed, are the lines
that end with a line feed. -/
theorem unifyNewlines_withLineEnds {t lineEnd : Text} (noReturn : carriageReturn ∉ t)
    (known : lineEnd = [carriageReturn, lineFeed] ∨ lineEnd = [carriageReturn]) :
    (withLineEnds t lineEnd).unifyNewlines = t := by
  have unified (afterReturn : Bool) : unifyFrom afterReturn (withLineEnds t lineEnd) = t := by
    induction t generalizing afterReturn with
    | nil => rfl
    | cons c rest inductionHypothesis =>
        obtain ⟨first, others⟩ := not_or.mp (mt List.mem_cons.mpr noReturn)
        have later := inductionHypothesis others
        simp only [withLineEnds] at later
        by_cases ends : c = lineFeed
        · subst ends
          rcases known with rfl | rfl <;>
            simp [withLineEnds, unifyFrom, later, lineFeed_ne_carriageReturn]
        · simp [withLineEnds, unifyFrom, later, ends, Ne.symm first]
  exact unified false

end AuditTrail.Text
