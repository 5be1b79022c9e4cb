import AuditTrail.Pager.LineBudget

/-!
# The first lines of octets

What a bounded output takes does not depend on how it was divided into writes, provided that
each write ends a line. After any number of them it is given by all octets that were offered:
it has taken their first lines, and it has as many lines left as did not end within them.
`write_budgetAfter` is the one step of this account, whether the budget is spent or not.
-/

namespace AuditTrail

/-- The first lines of octets with their line ends, or everything if no so many lines end. -/
def firstLines (lines : Nat) : Bytes -> Bytes
  | [] => []
  | octet :: rest =>
    if lines = 0 then []
    else octet :: firstLines (if octet = lineEnd then lines - 1 else lines) rest

/-- Octets whose last line is ended. -/
def EndsLine (octets : Bytes) : Prop := ∃ body, octets = body ++ [lineEnd]

theorem endedLineCount_cons (octet : Byte) (rest : Bytes) :
    endedLineCount (octet :: rest) =
      endedLineCount rest + if octet = lineEnd then 1 else 0 := by
  simp [endedLineCount, List.count_cons]

@[simp] theorem firstLines_zero (octets : Bytes) : firstLines 0 octets = [] := by
  cases octets <;> simp [firstLines]

@[simp] theorem firstLines_nil (lines : Nat) : firstLines lines [] = [] := rfl

/-- First lines are as many as are wanted, or all. -/
@[simp] theorem endedLineCount_firstLines (lines : Nat) (octets : Bytes) :
    endedLineCount (firstLines lines octets) = min lines (endedLineCount octets) := by
  fun_induction firstLines lines octets with
  | case1 => simp [endedLineCount]
  | case2 => simp [endedLineCount]
  | case3 lines octet rest some inductionHypothesis =>
      rw [endedLineCount_cons, inductionHypothesis, endedLineCount_cons]
      split <;> omega

/-- First lines of two parts: the second counts from where the first ends. -/
theorem firstLines_append (lines : Nat) (left right : Bytes) :
    firstLines lines (left ++ right) =
      firstLines lines left ++ firstLines (lines - endedLineCount left) right := by
  fun_induction firstLines lines left with
  | case1 => simp [endedLineCount]
  | case2 => simp
  | case3 lines octet rest some inductionHypothesis =>
      rw [List.cons_append, firstLines, if_neg some, inductionHypothesis, endedLineCount_cons]
      congr 2
      split <;> congr 1; omega

/-- Fewer lines than are wanted are kept with everything behind them. -/
theorem firstLines_of_lt {lines : Nat} {octets : Bytes} (fewer : endedLineCount octets < lines) :
    firstLines lines octets = octets := by
  fun_induction firstLines lines octets with
  | case1 => rfl
  | case2 => omega
  | case3 lines octet rest some inductionHypothesis =>
      rw [endedLineCount_cons] at fewer
      have fewerLater : endedLineCount rest < if octet = lineEnd then lines - 1 else lines := by
        by_cases last : octet = lineEnd <;> simp [last] at fewer ⊢ <;> omega
      rw [inductionHypothesis fewerLater]

/-- As many lines as are wanted are kept if the last of them is ended. -/
theorem EndsLine.firstLines_of_le {lines : Nat} {octets : Bytes} (ends : EndsLine octets)
    (few : endedLineCount octets ≤ lines) : firstLines lines octets = octets := by
  obtain ⟨body, rfl⟩ := ends
  have counted : endedLineCount (body ++ [lineEnd]) = endedLineCount body + 1 := by
    simp [endedLineCount]
  rw [firstLines_append, firstLines_of_lt (by omega)]
  simp [firstLines, show lines - endedLineCount body ≠ 0 by omega]

/-- There is always a part between line ends. -/
theorem betweenLineEnds_ne_nil (octets : Bytes) : betweenLineEnds octets ≠ [] := by
  intro none
  have counted := length_betweenLineEnds octets
  simp [none] at counted

/-- Joining the parts between line ends again, a number of them, gives so many first lines. -/
theorem intercalate_take_betweenLineEnds {lines : Nat} {octets : Bytes} (some : 0 < lines)
    (more : lines ≤ endedLineCount octets) :
    [lineEnd].intercalate ((betweenLineEnds octets).take lines) ++ [lineEnd] =
      firstLines lines octets := by
  fun_induction betweenLineEnds octets generalizing lines with
  | case1 => simp [endedLineCount] at more; omega
  | case2 rest inductionHypothesis =>
      obtain ⟨lines, rfl⟩ := Nat.exists_eq_succ_of_ne_zero (Nat.ne_of_gt some)
      rw [endedLineCount_cons, if_pos rfl] at more
      rw [firstLines, if_neg (by omega), if_pos rfl, List.take_succ_cons]
      cases lines with
      | zero => simp
      | succ lines =>
          have later := inductionHypothesis (Nat.succ_pos lines) (by omega)
          cases parts : betweenLineEnds rest with
          | nil => exact absurd parts (betweenLineEnds_ne_nil rest)
          | cons part others =>
              rw [parts] at later
              simpa [List.intercalate_cons_cons] using later
  | case3 octet rest other none inductionHypothesis =>
      exact absurd none (betweenLineEnds_ne_nil rest)
  | case4 octet rest other first others parts inductionHypothesis =>
      rw [endedLineCount_cons, if_neg other] at more
      have later := inductionHypothesis some more
      obtain ⟨lines, rfl⟩ := Nat.exists_eq_succ_of_ne_zero (Nat.ne_of_gt some)
      rw [parts, List.take_succ_cons] at later
      rw [firstLines, if_neg (by omega), if_neg other, ← later, List.take_succ_cons]
      cases others.take lines <;> simp [List.intercalate_cons_cons]

namespace LineBudget

/-- Octets are cut off behind their first lines. -/
theorem cut_eq_firstLines {lines : Nat} {octets : Bytes} (some : 0 < lines)
    (ends : EndsLine octets) : cut lines octets = firstLines lines octets := by
  unfold cut
  split
  next more =>
    have kept : kept lines (betweenLineEnds octets) = (betweenLineEnds octets).take lines := by
      simp [LineBudget.kept]
    rw [kept]
    exact intercalate_take_betweenLineEnds some (by omega)
  next few => exact (ends.firstLines_of_le (by omega)).symm

/-- The budget of so many lines after octets were offered to it. -/
def budgetAfter (output : Output) (lines : Nat) (offered : Bytes) : LineBudget where
  output := { output with taken := output.taken ++ firstLines lines offered }
  linesLeft := (lines - endedLineCount offered : Nat)

/-- Before anything is offered the budget is whole. -/
theorem budgetAfter_nil (output : Output) (lines : Nat) :
    budgetAfter output lines [] = ofOutput output lines := by
  simp [budgetAfter, ofOutput, endedLineCount]

/-- What is offered to a spent budget leaves no trace. -/
theorem budgetAfter_of_spent (output : Output) {lines : Nat} {offered : Bytes}
    (spent : lines ≤ endedLineCount offered) (more : Bytes) :
    budgetAfter output lines (offered ++ more) = budgetAfter output lines offered := by
  have both : lines - (endedLineCount offered + endedLineCount more) = 0 := by omega
  simp [budgetAfter, firstLines_append, Nat.sub_eq_zero_of_le spent, both]

/-- What octets add behind others. -/
def addedBehind (lines : Nat) (offered octets : Bytes) : Bytes :=
  firstLines (lines - endedLineCount offered) octets

/-- What is said of a write behind others. -/
def resultBehind (lines : Nat) (offered octets : Bytes) : WriteResult :=
  if endedLineCount (offered ++ octets) < lines then
    .written (addedBehind lines offered octets).length
  else .exhausted (addedBehind lines offered octets).length

/-- A write that ends its lines adds those of them that are still wanted. It succeeds unless
all lines are spent by then, and the budget is as if all octets had been offered at once. -/
theorem write_budgetAfter {output : Output} (open' : output.refusal = none) (lines : Nat)
    (offered : Bytes) {octets : Bytes} (ends : EndsLine octets) :
    write octets (budgetAfter output lines offered) =
      (resultBehind lines offered octets, budgetAfter output lines (offered ++ octets)) := by
  by_cases left : endedLineCount offered < lines
  · have some : 0 < lines - endedLineCount offered := Nat.sub_pos_of_lt left
    have unspent : (budgetAfter output lines offered).isSpent = false := by
      simpa [budgetAfter, isSpent] using Nat.ne_of_gt some
    have shortened := cut_eq_firstLines some ends
    have spends : ((lines - endedLineCount offered : Nat) : Int) -
        (min (lines - endedLineCount offered) (endedLineCount octets) : Nat) =
        (lines - (endedLineCount offered + endedLineCount octets) : Nat) := by omega
    rw [write, if_neg (by simp [unspent])]
    simp only [budgetAfter, resultBehind, addedBehind, open', shortened,
      endedLineCount_firstLines, spends,
      firstLines_append, endedLineCount_append, List.append_assoc]
    by_cases fewer : endedLineCount offered + endedLineCount octets < lines
    · have some : lines - (endedLineCount offered + endedLineCount octets) ≠ 0 := by omega
      simp [fewer, some]
    · have none : lines - (endedLineCount offered + endedLineCount octets) = 0 := by omega
      simp [fewer, none]
  · have none : lines - endedLineCount offered = 0 := by omega
    have spent : (budgetAfter output lines offered).isSpent = true := by
      simp [budgetAfter, isSpent, none]
    have reached : lines ≤ endedLineCount offered + endedLineCount octets := by omega
    rw [write, if_pos spent, budgetAfter_of_spent output (Nat.le_of_not_lt left)]
    simp [resultBehind, addedBehind, none, reached]

end LineBudget

end AuditTrail
