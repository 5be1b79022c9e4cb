import AuditTrail.Pager.Sink

/-!
# A bounded output

Without a pager, only so many lines reach the output. The write that spends the last of them
is cut off there and says so, as does every later one. A write that the output refuses has
spent its lines all the same.
-/

namespace AuditTrail

/-- What takes the octets in the end. -/
structure Output where
  /-- What was taken. -/
  taken : Bytes
  /-- The reason for which it takes no more, if it does not. -/
  refusal : Option Text
  /-- How often it was flushed. -/
  flushes : Nat
deriving DecidableEq, Repr

/-- An output that has taken nothing and takes all. -/
def Output.fresh : Output := ⟨[], none, 0⟩

/-- An output that takes a number of lines. The number is negative only if it was so from the
beginning, and then there is no last line. -/
structure LineBudget where
  output : Output
  linesLeft : Int
deriving DecidableEq, Repr

/-- The octet that ends a line. -/
def lineEnd : Byte := 10

/-- How many lines end within octets. -/
def endedLineCount (octets : Bytes) : Nat := octets.count lineEnd

@[simp] theorem endedLineCount_append (left right : Bytes) :
    endedLineCount (left ++ right) = endedLineCount left + endedLineCount right :=
  List.count_append

/-- The octets between line ends. -/
def betweenLineEnds : Bytes -> List Bytes
  | [] => [[]]
  | octet :: rest =>
    if octet = lineEnd then [] :: betweenLineEnds rest
    else
      match betweenLineEnds rest with
      | [] => [[octet]]
      | first :: others => (octet :: first) :: others

/-- There is one part more than there are line ends. -/
@[simp] theorem length_betweenLineEnds (octets : Bytes) :
    (betweenLineEnds octets).length = endedLineCount octets + 1 := by
  fun_induction betweenLineEnds octets with
  | case1 => rfl
  | case2 rest ih => simp [endedLineCount] at ih ⊢; omega
  | case3 octet rest other none ih => simp [none] at ih
  | case4 octet rest other first others some ih =>
    simp only [some, List.length_cons, endedLineCount] at ih ⊢
    simpa [List.count_cons, other] using ih

namespace LineBudget

/-- The lines that a run without a pager shows at most. -/
def usual : Nat := 100

/-- A budget of lines for an output. -/
def ofOutput (output : Output) (lines : Int) : LineBudget := ⟨output, lines⟩

/-- The parts that are kept of more than a number of lines: that many, or, if the number is
negative, all but that many at the end. -/
def kept (lines : Int) (parts : List Bytes) : List Bytes :=
  if 0 ≤ lines then parts.take lines.toNat else parts.take (parts.length - lines.natAbs)

/-- Octets cut off behind a number of lines. -/
def cut (lines : Int) (octets : Bytes) : Bytes :=
  if lines < endedLineCount octets then
    [lineEnd].intercalate (kept lines (betweenLineEnds octets)) ++ [lineEnd]
  else octets

/-- Whether the lines are spent. -/
def isSpent (budget : LineBudget) : Bool := budget.linesLeft = 0

/-- Writes what the budget still allows. -/
def write (octets : Bytes) (budget : LineBudget) : WriteResult × LineBudget :=
  if budget.isSpent then (.exhausted 0, budget)
  else
    let octets := cut budget.linesLeft octets
    let linesLeft := budget.linesLeft - endedLineCount octets
    match budget.output.refusal with
    | some reason => (.failed (.outputRefused reason), { budget with linesLeft })
    | none =>
      let output := { budget.output with taken := budget.output.taken ++ octets }
      (if linesLeft = 0 then .exhausted octets.length else .written octets.length,
        ⟨output, linesLeft⟩)

/-- Flushes the output. -/
def close (budget : LineBudget) : LineBudget :=
  { budget with output := { budget.output with flushes := budget.output.flushes + 1 } }

/-- A budget as a sink; it is closed when it is spent. -/
def sink : Sink LineBudget where
  write := write
  isClosed budget := (budget.isSpent, budget)
  close := close

end LineBudget

end AuditTrail
