import AuditTrail.Table.Column

/-!
# Widths of columns

The width of a terminal is shared among columns in rounds. What is left after the gaps between
them goes in equal shares to the columns that wait for it. A round walks the columns from left
to right and holds each waiting one whose limit is below its share; it then waits no longer,
and the others share what it leaves. This ends with a round that holds none. When no column
waits any more, what is still left is spread equally over all of them. What a division leaves
over is dropped.
-/

namespace AuditTrail.Layout

/-- The blanks between two columns. -/
def gap : Nat := 2

/-- What is still to be shared, and how many columns wait for it. -/
structure Pool where
  width : Int
  waiting : Nat
deriving DecidableEq, Repr

/-- The equal share of a waiting column. -/
def Pool.share (pool : Pool) : Int := pool.width / pool.waiting

/-- The pool when a column has been held at a width. -/
def Pool.without (width : Int) (pool : Pool) : Pool := ⟨pool.width - width, pool.waiting - 1⟩

/-- A column and the width it is held at, none while it waits. -/
abbrev Slot := Column × Option Int

/-- The width at which a column is held when it could have a share. A limit of zero is none. -/
def heldAt? (share : Int) (column : Column) : Option Int :=
  column.limit.filter fun limit => limit ≠ 0 ∧ limit < share

/-- One round: holds the waiting columns whose limits are below the share. The share stays as
it was at the beginning of the round. -/
def holdRound (share : Int) : List Slot -> Pool -> List Slot × Pool
  | [], pool => ([], pool)
  | (column, some width) :: rest, pool =>
    let next := holdRound share rest pool
    ((column, some width) :: next.1, next.2)
  | (column, none) :: rest, pool =>
    match heldAt? share column with
    | none =>
      let next := holdRound share rest pool
      ((column, none) :: next.1, next.2)
    | some width =>
      let next := holdRound share rest (pool.without width)
      ((column, some width) :: next.1, next.2)

/-- Spreads what is left of a pool equally over all columns. -/
def spread (pool : Pool) (slots : List Slot) : List Slot :=
  slots.map fun slot => (slot.1, slot.2.map (· + pool.width / slots.length))

/-- Rounds until one holds no further column; the slots, and the last share. -/
def holdAll (share : Int) (slots : List Slot) (pool : Pool) : List Slot × Int :=
  let round := holdRound share slots pool
  if round.2.waiting = 0 then (spread round.2 round.1, share)
  else if round.2.waiting < pool.waiting then holdAll round.2.share round.1 round.2
  else (round.1, round.2.share)
termination_by pool.waiting

/-- The width of a slot in the end: at least one unless the column is held at another. -/
def Slot.width (share : Int) (slot : Slot) : Int :=
  let width := slot.2.getD 0
  if width = 0 then max share 1 else width

/-- The room for the cells of columns in a table. -/
def room (tableWidth : Int) (columns : List Column) : Int :=
  tableWidth - gap * (columns.length - 1)

/-- The widths of columns in a table, in their order. -/
def widths (tableWidth : Int) (columns : List Column) : List Int :=
  let pool : Pool := ⟨room tableWidth columns, columns.length⟩
  let shared := holdAll pool.share (columns.map fun column => (column, none)) pool
  shared.1.map (Slot.width shared.2)

/-- A round keeps the columns and their order. -/
@[simp] theorem columns_holdRound (share : Int) (slots : List Slot) (pool : Pool) :
    (holdRound share slots pool).1.map Prod.fst = slots.map Prod.fst := by
  fun_induction holdRound share slots pool with
  | case1 => rfl
  | case2 column width rest pool next ih => simpa [next] using ih
  | case3 column rest pool waits next ih => simpa [next] using ih
  | case4 column rest pool width held next ih => simpa [next] using ih

/-- All rounds keep the columns and their order. -/
theorem columns_holdAll (share : Int) (slots : List Slot) (pool : Pool) :
    (holdAll share slots pool).1.map Prod.fst = slots.map Prod.fst := by
  fun_induction holdAll share slots pool with
  | case1 share slots pool round spent => simp [spread, Function.comp_def, round]
  | case2 share slots pool round waiting fewer ih => simpa [round] using ih
  | case3 share slots pool round waiting settled => simp [round]

/-- Every column has one width. -/
@[simp] theorem length_widths (tableWidth : Int) (columns : List Column) :
    (widths tableWidth columns).length = columns.length := by
  have kept := congrArg List.length
    (columns_holdAll (Pool.share ⟨room tableWidth columns, columns.length⟩)
      (columns.map fun column => (column, none)) ⟨room tableWidth columns, columns.length⟩)
  simpa [widths] using kept

end AuditTrail.Layout
