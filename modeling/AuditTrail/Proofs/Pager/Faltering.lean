import AuditTrail.Proofs.Pager.FirstLines
import AuditTrail.Proofs.Pager.Transcript

/-!
# Outputs that refuse writes

A bounded output spends the lines of a write before its output has taken them, so a refused write
spends them too: `write_refused`. An output need not refuse all writes or none, so `faltering` has
one that may refuse any of them. How many lines are left, and with it whether the sink is closed,
then depends on what was offered and on nothing else; `IsAccounted` is the invariant that says so.
-/

namespace AuditTrail

/-- What holds of the states of a sink, whatever is done to it. -/
structure Sink.Preserves {State : Type} (sink : Sink State) (holds : State -> Prop) : Prop where
  write : ∀ {state}, holds state -> ∀ octets, holds (sink.write octets state).2
  isClosed : ∀ {state}, holds state -> holds (sink.isClosed state).2
  close : ∀ {state}, holds state -> holds (sink.close state)

namespace LineBudget

/-! ## One write -/

/-- What is kept of octets ends as many lines as there are, unless fewer are allowed. -/
theorem endedLineCount_cut {lines : Nat} (some : 0 < lines) (octets : Bytes) :
    endedLineCount (cut lines octets) = min lines (endedLineCount octets) := by
  unfold cut
  split
  next more =>
    have kept : kept lines (betweenLineEnds octets) = (betweenLineEnds octets).take lines := by
      simp [LineBudget.kept]
    rw [kept, intercalate_take_betweenLineEnds some (by omega), endedLineCount_firstLines]
  next few => omega

/-- A write that is refused adds nothing and spends its lines all the same. -/
theorem write_refused {budget : LineBudget} {reason : Text}
    (refuses : budget.output.refusal = some reason) (left : 0 < budget.linesLeft)
    (octets : Bytes) :
    budget.write octets = (.failed (.outputRefused reason),
      { budget with linesLeft := max 0 (budget.linesLeft - endedLineCount octets) }) := by
  obtain ⟨output, linesLeft⟩ := budget
  obtain ⟨lines, rfl⟩ := Int.eq_ofNat_of_zero_le (Int.le_of_lt left)
  have some : 0 < lines := Int.natCast_pos.mp left
  have rest : (lines : Int) - endedLineCount (cut lines octets) =
      max 0 ((lines : Int) - endedLineCount octets) := by
    rw [endedLineCount_cut some]
    omega
  simp only at refuses
  simp [write, isSpent, refuses, rest, Nat.ne_of_gt some]

/-- A write that is refused leaves as many lines as there were exactly when it ends none, and it
leaves the sink open exactly when it ends fewer than there were. -/
theorem exists_write_refused {budget : LineBudget} {reason : Text}
    (refuses : budget.output.refusal = some reason) (left : 0 < budget.linesLeft)
    (octets : Bytes) :
    ∃ after, budget.write octets = (.failed (.outputRefused reason), after) ∧
      after.output = budget.output ∧
      (after.linesLeft = budget.linesLeft ↔ endedLineCount octets = 0) ∧
      (after.isSpent = budget.isSpent ↔ endedLineCount octets < budget.linesLeft) := by
  have unspent : budget.isSpent = false := by simp [isSpent, Int.ne_of_gt left]
  have counted : (0 : Int) ≤ endedLineCount octets := Int.natCast_nonneg _
  refine ⟨_, write_refused refuses left octets, rfl, ?_, ?_⟩
  · simp only
    omega
  · rw [unspent]
    simp only [isSpent, decide_eq_false_iff_not]
    omega

/-- Whatever a write comes to, its lines are spent. -/
theorem linesLeft_write {budget : LineBudget} {lines : Nat} (counted : budget.linesLeft = lines)
    (octets : Bytes) :
    (budget.write octets).2.linesLeft = (lines - endedLineCount octets : Nat) := by
  rcases Nat.eq_zero_or_pos lines with rfl | some
  · have spent : budget.isSpent = true := by simp [isSpent, counted]
    rw [write, if_pos spent, counted, Nat.zero_sub]
  · have unspent : budget.isSpent = false := by simp [isSpent, counted, Nat.ne_of_gt some]
    have rest : (lines : Int) - endedLineCount (cut lines octets) =
        (lines - endedLineCount octets : Nat) := by
      rw [endedLineCount_cut some]
      omega
    cases refusal : budget.output.refusal <;> simp [write, unspent, refusal, counted, rest]

/-- A write does not change why the output refuses. -/
theorem refusal_write (budget : LineBudget) (octets : Bytes) :
    (budget.write octets).2.output.refusal = budget.output.refusal := by
  unfold write
  split
  · rfl
  · cases refusal : budget.output.refusal <;> simp [refusal]

/-! ## Writes of which any may be refused -/

/-- A budget whose output refuses for a reason, or takes all. -/
def refusing (refusal : Option Text) (budget : LineBudget) : LineBudget :=
  { budget with output := { budget.output with refusal } }

theorem refusing_eq_self {budget : LineBudget} {refusal : Option Text}
    (same : budget.output.refusal = refusal) : budget.refusing refusal = budget := by
  subst same
  rfl

/-- A bounded output that may refuse any write. The writes are counted, and `refusals` says why
each is refused, if it is. -/
def faltering (refusals : Nat -> Option Text) : Sink (LineBudget × Nat) where
  write octets state :=
    let answer := write octets (state.1.refusing (refusals state.2))
    (answer.1, answer.2, state.2 + 1)
  isClosed state := (state.1.isSpent, state)
  close state := (state.1.close, state.2)

/-- What a bounded output answers behind what was done to it before. It is closed when its lines
were offered to it, and before that a write fails if it is refused. -/
def Answers (lines : Nat) (refusals : Nat -> Option Text) (before : History) : Act -> Prop
  | .poll closed => closed = decide (lines ≤ endedLineCount before.offered.flatten)
  | .write _ result =>
    ∀ reason, refusals before.offered.length = some reason ->
      endedLineCount before.offered.flatten < lines -> result = .failed (.outputRefused reason)
  | .pull _ | .close => True

/-- The state of a faltering output and its transcript, if it had `lines` at the beginning. -/
structure IsAccounted (lines : Nat) (refusals : Nat -> Option Text)
    (state : (LineBudget × Nat) × History) : Prop where
  left : state.1.1.linesLeft = (lines - endedLineCount state.2.offered.flatten : Nat)
  counted : state.1.2 = state.2.offered.length
  answers : state.2.Each (Answers lines refusals)

/-- A faltering output keeps its account. -/
theorem faltering_preserves (lines : Nat) (refusals : Nat -> Option Text) :
    (faltering refusals).recorded.Preserves (IsAccounted lines refusals) where
  write := by
    rintro ⟨⟨budget, count⟩, history⟩ ⟨left, counted, answers⟩ octets
    simp only at left counted
    have kept : (budget.refusing (refusals count)).linesLeft =
        (lines - endedLineCount history.offered.flatten : Nat) := left
    refine ⟨?_, ?_, answers.concat ?_⟩
    · have spends := linesLeft_write kept octets
      simpa [Sink.recorded, faltering, Nat.sub_sub] using spends
    · simp [Sink.recorded, faltering, counted]
    · intro reason refused unspent
      have some : 0 < (budget.refusing (refusals count)).linesLeft := by
        rw [kept]
        exact Int.natCast_pos.mpr (Nat.sub_pos_of_lt unspent)
      have refuses : (budget.refusing (refusals count)).output.refusal = .some reason := by
        rw [counted]
        exact refused
      exact congrArg Prod.fst (write_refused refuses some octets)
  isClosed := by
    rintro ⟨⟨budget, count⟩, history⟩ ⟨left, counted, answers⟩
    simp only at left counted
    refine ⟨by simpa [Sink.recorded, faltering] using left,
      by simpa [Sink.recorded, faltering] using counted, answers.concat ?_⟩
    simp [Answers, faltering, isSpent, left]
    omega
  close := by
    rintro ⟨⟨budget, count⟩, history⟩ ⟨left, counted, answers⟩
    exact ⟨by simpa [Sink.recorded, faltering, close] using left,
      by simpa [Sink.recorded, faltering] using counted, answers.concat trivial⟩

/-- Before anything is offered the account is in order. -/
theorem isAccounted_ofOutput (output : Output) (lines : Nat) (refusals : Nat -> Option Text) :
    IsAccounted lines refusals ((ofOutput output lines, 0), []) where
  left := rfl
  counted := rfl
  answers := by
    intro before act after parts
    simp at parts

end LineBudget

end AuditTrail
