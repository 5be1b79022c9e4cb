import AuditTrail.Proofs.Pager.FirstLines

/-!
# Writes one after another

What a bounded output holds, has left and answers after any number of writes, of which those
behind its last line fail. `write_budgetAfter` is one write, `writeEach_budgetAfter` any number
of them by induction, and `offering_accounts` says the same in terms of the rows that were
offered. How the rows were divided into writes shows in the answers only.
-/

namespace AuditTrail

/-- Writes one after another, whatever the writes before came to. -/
def Sink.writeEach {State : Type} (sink : Sink State) :
    List Bytes -> State -> List WriteResult × State
  | [], state => ([], state)
  | octets :: later, state =>
    let (result, state) := sink.write octets state
    let (results, state) := sink.writeEach later state
    (result :: results, state)

/-! ## Rows -/

/-- Rows with a line end behind each. -/
def endedRows (rows : List Bytes) : Bytes := rows.flatMap (· ++ [lineEnd])

/-- Octets between two line ends. -/
def IsRow (octets : Bytes) : Prop := lineEnd ∉ octets

theorem endedRows_append (left right : List Bytes) :
    endedRows (left ++ right) = endedRows left ++ endedRows right :=
  List.flatMap_append

/-- Octets whose last line is ended are rows. -/
theorem EndsLine.exists_rows {octets : Bytes} (ends : EndsLine octets) :
    ∃ rows, (∀ row ∈ rows, IsRow row) ∧ octets = endedRows rows := by
  obtain ⟨body, rfl⟩ := ends
  induction body with
  | nil => exact ⟨[[]], by simp [IsRow], rfl⟩
  | cons octet rest inductionHypothesis =>
      obtain ⟨rows, areRows, given⟩ := inductionHypothesis
      by_cases last : octet = lineEnd
      · subst last
        refine ⟨[] :: rows, by simpa [IsRow] using areRows, ?_⟩
        rw [List.cons_append, given]
        rfl
      · cases rows with
        | nil => simp [endedRows] at given
        | cons row others =>
            refine ⟨(octet :: row) :: others, ?_, by rw [List.cons_append, given]; rfl⟩
            have other : lineEnd ≠ octet := fun same => last same.symm
            simpa [IsRow, other] using areRows

/-- Writes that end their lines offer rows. -/
theorem exists_rows_flatten {offers : List Bytes} (ended : ∀ octets ∈ offers, EndsLine octets) :
    ∃ rows, (∀ row ∈ rows, IsRow row) ∧ offers.flatten = endedRows rows := by
  induction offers with
  | nil => exact ⟨[], by simp, rfl⟩
  | cons octets later inductionHypothesis =>
      rw [List.forall_mem_cons] at ended
      obtain ⟨first, firstRows, given⟩ := ended.1.exists_rows
      obtain ⟨rows, areRows, givenLater⟩ := inductionHypothesis ended.2
      refine ⟨first ++ rows, ?_, by rw [List.flatten_cons, given, givenLater, endedRows_append]⟩
      simpa [or_imp, forall_and] using ⟨firstRows, areRows⟩

/-- The first lines of rows are the first rows. -/
theorem firstLines_endedRows (lines : Nat) {rows : List Bytes} (areRows : ∀ row ∈ rows, IsRow row) :
    firstLines lines (endedRows rows) = endedRows (rows.take lines) := by
  induction rows generalizing lines with
  | nil => simp [endedRows]
  | cons row rest inductionHypothesis =>
      rw [List.forall_mem_cons] at areRows
      have one : endedLineCount (row ++ [lineEnd]) = 1 := by
        simp [endedLineCount, List.count_eq_zero.mpr areRows.1]
      cases lines with
      | zero => simp [endedRows]
      | succ lines =>
          have ends : EndsLine (row ++ [lineEnd]) := ⟨row, rfl⟩
          have later := inductionHypothesis lines areRows.2
          rw [endedRows, List.flatMap_cons, firstLines_append, ends.firstLines_of_le (by omega),
            one, Nat.add_sub_cancel, List.take_succ_cons]
          exact congrArg _ later

namespace LineBudget

/-! ## The account of a run -/

/-- What is said of writes behind others, one after another. -/
def resultsBehind (lines : Nat) : Bytes -> List Bytes -> List WriteResult
  | _, [] => []
  | offered, octets :: later =>
    resultBehind lines offered octets :: resultsBehind lines (offered ++ octets) later

theorem getElem?_resultsBehind (lines : Nat) (offered : Bytes) (earlier later : List Bytes)
    (octets : Bytes) :
    (resultsBehind lines offered (earlier ++ octets :: later))[earlier.length]? =
      some (resultBehind lines (offered ++ earlier.flatten) octets) := by
  induction earlier generalizing offered with
  | nil => simp [resultsBehind]
  | cons first earlier inductionHypothesis =>
      simpa [resultsBehind] using inductionHypothesis (offered ++ first)

section

variable {output : Output} (isOpen : output.refusal = none) (lines : Nat)
include isOpen

/-- After any number of writes the budget is as if all octets had been offered at once. -/
theorem writeEach_budgetAfter (offered : Bytes) {offers : List Bytes}
    (ended : ∀ octets ∈ offers, EndsLine octets) :
    sink.writeEach offers (budgetAfter output lines offered) =
      (resultsBehind lines offered offers,
        budgetAfter output lines (offered ++ offers.flatten)) := by
  induction offers generalizing offered with
  | nil => simp [Sink.writeEach, resultsBehind]
  | cons octets later inductionHypothesis =>
      rw [List.forall_mem_cons] at ended
      have first : sink.write octets (budgetAfter output lines offered) = _ :=
        write_budgetAfter isOpen lines offered ended.1
      simp only [Sink.writeEach, first, inductionHypothesis (offered ++ octets) ended.2,
        resultsBehind, List.flatten_cons, List.append_assoc]

end

/-- Writes one after another at an output that takes a number of lines. -/
def offering (output : Output) (lines : Nat) (offers : List Bytes) :
    List WriteResult × LineBudget :=
  sink.writeEach offers (ofOutput output lines)

theorem offering_eq {output : Output} (isOpen : output.refusal = none) (lines : Nat)
    {offers : List Bytes} (ended : ∀ octets ∈ offers, EndsLine octets) :
    offering output lines offers =
      (resultsBehind lines [] offers, budgetAfter output lines offers.flatten) := by
  rw [offering, ← budgetAfter_nil, writeEach_budgetAfter isOpen lines [] ended, List.nil_append]

/-- What writes come to at an output that takes a number of lines. -/
structure Accounts (output : Output) (lines : Nat) (offers : List Bytes) : Prop where
  /-- The output holds the first of the rows that were offered, and nothing else is done to it. -/
  held : ∃ rows, (∀ row ∈ rows, IsRow row) ∧ offers.flatten = endedRows rows ∧
    (offering output lines offers).2.output =
      { output with taken := output.taken ++ endedRows (rows.take lines) }
  /-- Every line that was offered is one less, as long as there are any. -/
  linesLeft : (offering output lines offers).2.linesLeft =
    max 0 ((lines : Int) - endedLineCount offers.flatten)
  /-- The sink is closed when no line is left, and to ask does nothing to it. -/
  isClosed : sink.isClosed (offering output lines offers).2 =
    (decide ((offering output lines offers).2.linesLeft = 0), (offering output lines offers).2)
  /-- Every write is answered by how much it added, and it fails if the lines are spent by then. -/
  answers : ∀ earlier octets later, offers = earlier ++ octets :: later →
    ∃ added,
      (offering output lines (earlier ++ [octets])).2.output.taken =
        (offering output lines earlier).2.output.taken ++ added ∧
      (offering output lines offers).1[earlier.length]? =
        some (if lines ≤ endedLineCount (earlier ++ [octets]).flatten then .exhausted added.length
          else .written added.length)
  /-- As many octets in other writes leave the same behind. -/
  divided : ∀ others, (∀ octets ∈ others, EndsLine octets) → others.flatten = offers.flatten →
    (offering output lines others).2 = (offering output lines offers).2

/-- Whatever is offered in lines to an output that takes everything, its first lines are held,
and a write fails from the one on that spends the last. -/
theorem offering_accounts {output : Output} (isOpen : output.refusal = none) (lines : Nat)
    {offers : List Bytes} (ended : ∀ octets ∈ offers, EndsLine octets) :
    Accounts output lines offers where
  held := by
    obtain ⟨rows, areRows, given⟩ := exists_rows_flatten ended
    refine ⟨rows, areRows, given, ?_⟩
    rw [offering_eq isOpen lines ended, given, budgetAfter, firstLines_endedRows lines areRows]
  linesLeft := by
    rw [offering_eq isOpen lines ended]
    simp only [budgetAfter]
    omega
  isClosed := rfl
  answers := by
    intro earlier octets later split
    subst split
    obtain ⟨endedEarlier, endedFromHere⟩ := List.forall_mem_append.mp ended
    have ends : EndsLine octets := (List.forall_mem_cons.mp endedFromHere).1
    have endedSoFar : ∀ offer ∈ earlier ++ [octets], EndsLine offer :=
      List.forall_mem_append.mpr ⟨endedEarlier, List.forall_mem_singleton.mpr ends⟩
    refine ⟨addedBehind lines earlier.flatten octets, ?_, ?_⟩
    · rw [offering_eq isOpen lines endedEarlier, offering_eq isOpen lines endedSoFar]
      simp [budgetAfter, firstLines_append, addedBehind]
    · rw [offering_eq isOpen lines ended, getElem?_resultsBehind, List.nil_append, resultBehind,
        List.flatten_append, List.flatten_singleton]
      by_cases within : endedLineCount (earlier.flatten ++ octets) < lines
      · rw [if_pos within, if_neg (Nat.not_le.mpr within)]
      · rw [if_neg within, if_pos (Nat.le_of_not_lt within)]
  divided := by
    intro others endedOthers same
    rw [offering_eq isOpen lines ended, offering_eq isOpen lines endedOthers, same]

/-- Two lines are taken of three; the second write crosses the budget, the third adds nothing. -/
theorem offering_accounts_crossing :
    let offers : List Bytes := [[97, 10], [98, 10, 99, 10], [100, 10]]
    (∀ octets ∈ offers, EndsLine octets) ∧ Accounts .fresh 2 offers ∧
      offering .fresh 2 offers =
        ([.written 2, .exhausted 2, .exhausted 0], ⟨⟨[97, 10, 98, 10], none, 0⟩, 0⟩) := by
  have ended : ∀ octets ∈ ([[97, 10], [98, 10, 99, 10], [100, 10]] : List Bytes),
      EndsLine octets := by
    intro octets offered
    simp only [List.mem_cons, List.not_mem_nil, or_false] at offered
    rcases offered with rfl | rfl | rfl
    · exact ⟨[97], rfl⟩
    · exact ⟨[98, 10, 99], rfl⟩
    · exact ⟨[100], rfl⟩
  exact ⟨ended, offering_accounts rfl 2 ended, by decide⟩

end LineBudget

end AuditTrail
