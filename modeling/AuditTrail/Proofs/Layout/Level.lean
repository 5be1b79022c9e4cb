import AuditTrail.Layout.Widths
import Mathlib.Algebra.Order.BigOperators.Group.List
import Mathlib.Tactic.Linarith
import Mathlib.Tactic.Ring

/-!
# The level of the columns

The rounds in which columns are held come to one level. Below it every column with a limit is
held at its limit, and all others stand at the level itself. No round lowers the level and no
level costs more than the room, so the rounds end with a division that is known in advance:
either what the held columns leave is shared by the waiting ones at exactly that level, or all
columns are held and what is left is spread over them.

`widths_levelling` says so of the widths of every list of columns; what else is proved of the
widths of one table follows from it and looks into no round.
-/

namespace AuditTrail

/-- A limit that is none or a number of code points. -/
def Column.HasSoundLimit (column : Column) : Prop :=
  ∀ limit, column.limit = some limit -> 0 ≤ limit

/-- The limit of a column that has one. A limit of zero is none. -/
def Column.cap? (column : Column) : Option Int := column.limit.filter (· ≠ 0)

/-- A cap from a sound limit is one code point or more. -/
theorem Column.HasSoundLimit.one_le_cap {column : Column} {cap : Int}
    (sound : column.HasSoundLimit) (capped : column.cap? = some cap) : 1 ≤ cap := by
  obtain ⟨limit, nonzero⟩ := Option.filter_eq_some_iff.mp capped
  have bound := sound cap limit
  simp only [decide_eq_true_eq] at nonzero
  omega

namespace Layout

/-! ## Columns at a level -/

/-- Columns that are some are one or more. -/
theorem columnCount_pos {columns : List Column} (some : columns ≠ []) :
    (0 : Int) < columns.length :=
  Int.natCast_pos.mpr (List.length_pos_iff.mpr some)

/-- The width of a column when the level stands at a height. -/
def fillWidth (level : Int) (column : Column) : Int := (heldAt? level column).getD level

/-- The caps of the columns that have one. -/
def caps (columns : List Column) : List Int := columns.filterMap Column.cap?

/-- What the columns take together that are held at a level. -/
def heldWidth (level : Int) (columns : List Column) : Int :=
  (columns.filterMap (heldAt? level)).sum

/-- How many columns are not held at a level. -/
def waitingCount (level : Int) (columns : List Column) : Nat :=
  columns.countP fun column => (heldAt? level column).isNone

/-- A column is held exactly at a limit that is not zero and below the level. -/
theorem heldAt?_eq_some_iff {level width : Int} {column : Column} :
    heldAt? level column = some width ↔
      column.limit = some width ∧ width ≠ 0 ∧ width < level := by
  simp [heldAt?, Option.filter_eq_some_iff]

/-- A column is held exactly at a cap below the level. -/
theorem heldAt?_eq_filter_cap? (level : Int) (column : Column) :
    heldAt? level column = column.cap?.filter (· < level) := by
  simp [heldAt?, Column.cap?, Option.filter_filter]

/-- A column that is held stays held when the level rises. -/
theorem heldAt?_mono {low high width : Int} {column : Column} (rises : low ≤ high)
    (held : heldAt? low column = some width) : heldAt? high column = some width := by
  rw [heldAt?_eq_some_iff] at held ⊢
  exact ⟨held.1, held.2.1, lt_of_lt_of_le held.2.2 rises⟩

/-- With the waiting columns at a height above the level, no column stands above the height. -/
theorem getD_heldAt?_le {level height : Int} (above : level ≤ height) (column : Column) :
    (heldAt? level column).getD height ≤ height := by
  cases held : heldAt? level column with
  | none => exact le_rfl
  | some width => exact (heldAt?_eq_some_iff.mp held).2.2.le.trans above

/-- No column stands above the level. -/
theorem fillWidth_le (level : Int) (column : Column) : fillWidth level column ≤ level :=
  getD_heldAt?_le le_rfl column

/-- With the waiting columns at one height, no column grows when more of them are held. -/
theorem getD_heldAt?_anti {low high height : Int} (rises : low ≤ high) (above : high ≤ height)
    (column : Column) :
    (heldAt? high column).getD height ≤ (heldAt? low column).getD height := by
  cases held : heldAt? low column with
  | none => exact getD_heldAt?_le above column
  | some width => rw [heldAt?_mono rises held]

/-- Where no column waits, every column is held. -/
theorem exists_heldAt? {level : Int} {columns : List Column}
    (spent : waitingCount level columns = 0) {column : Column} (member : column ∈ columns) :
    ∃ width, heldAt? level column = some width := by
  have held := List.countP_eq_zero.mp spent column member
  exact Option.ne_none_iff_exists'.mp fun waits => held (by simp [waits])

/-- Where no column waits, every column is held at its cap. -/
theorem heldAt?_of_spent {level : Int} {columns : List Column}
    (spent : waitingCount level columns = 0) {column : Column} (member : column ∈ columns) :
    heldAt? level column = column.cap? := by
  obtain ⟨width, held⟩ := exists_heldAt? spent member
  rw [heldAt?_eq_filter_cap?] at held ⊢
  rw [held, (Option.filter_eq_some_iff.mp held).1]

/-- Where no column waits, the columns take their caps. -/
theorem heldWidth_of_spent {level : Int} {columns : List Column}
    (spent : waitingCount level columns = 0) :
    heldWidth level columns = (caps columns).sum := by
  rw [heldWidth, List.filterMap_congr fun column member => heldAt?_of_spent spent member, caps]

/-- The columns together take what the held ones take and the height of each other one. -/
theorem sum_getD_heldAt? (level height : Int) (columns : List Column) :
    (columns.map fun column => (heldAt? level column).getD height).sum =
      heldWidth level columns + waitingCount level columns * height := by
  induction columns with
  | nil => simp [heldWidth, waitingCount]
  | cons column rest inductionHypothesis =>
    simp only [heldWidth, waitingCount] at inductionHypothesis ⊢
    rw [List.map_cons, List.sum_cons, inductionHypothesis]
    cases held : heldAt? level column with
    | none =>
        simp [held]
        ring
    | some width =>
        simp [held]
        ring

/-- The columns together take what the held ones take and the level for each other one. -/
theorem sum_fillWidth (level : Int) (columns : List Column) :
    (columns.map (fillWidth level)).sum =
      heldWidth level columns + waitingCount level columns * level :=
  sum_getD_heldAt? level level columns

/-- With the waiting columns at one height, the columns together take no more when more of them
are held. -/
theorem heldWidth_add_le {low high height : Int} (rises : low ≤ high) (above : high ≤ height)
    (columns : List Column) :
    heldWidth high columns + waitingCount high columns * height ≤
      heldWidth low columns + waitingCount low columns * height := by
  rw [← sum_getD_heldAt?, ← sum_getD_heldAt?]
  exact List.sum_le_sum fun column _ => getD_heldAt?_anti rises above column

/-! ## One round -/

/-- What the held columns take together. -/
def heldSum (slots : List Slot) : Int := (slots.filterMap Prod.snd).sum

/-- How many columns wait. -/
def waitingIn (slots : List Slot) : Nat := slots.countP fun slot => slot.2.isNone

/-- The slots when exactly the columns below a level are held. -/
def slotsAt (level : Int) (columns : List Column) : List Slot :=
  columns.map fun column => (column, heldAt? level column)

/-- The pool that the columns held at a level leave of a room. -/
def poolAt (room level : Int) (columns : List Column) : Pool :=
  ⟨room - heldWidth level columns, waitingCount level columns⟩

@[simp] theorem heldSum_slotsAt (level : Int) (columns : List Column) :
    heldSum (slotsAt level columns) = heldWidth level columns := by
  simp [heldSum, slotsAt, heldWidth, List.filterMap_map]

@[simp] theorem waitingIn_slotsAt (level : Int) (columns : List Column) :
    waitingIn (slotsAt level columns) = waitingCount level columns := by
  simp [waitingIn, slotsAt, waitingCount, List.countP_map, Function.comp_def]

/-- A round gives to the slots what it takes from the pool. -/
theorem width_holdRound (share : Int) (slots : List Slot) (pool : Pool) :
    (holdRound share slots pool).2.width + heldSum (holdRound share slots pool).1 =
      pool.width + heldSum slots := by
  fun_induction holdRound share slots pool with
  | case1 => rfl
  | case2 column width rest pool next inductionHypothesis =>
      simp only [heldSum] at inductionHypothesis ⊢
      simp [next]
      omega
  | case3 column rest pool waits next inductionHypothesis =>
      simpa [next, heldSum] using inductionHypothesis
  | case4 column rest pool width held next inductionHypothesis =>
      simp only [heldSum, Pool.without] at inductionHypothesis ⊢
      simp [next, Pool.without]
      omega

/-- A round takes a column out of the pool's count exactly when it holds it. -/
theorem waiting_holdRound (share : Int) (slots : List Slot) (pool : Pool)
    (counted : waitingIn slots ≤ pool.waiting) :
    (holdRound share slots pool).2.waiting + waitingIn slots =
      pool.waiting + waitingIn (holdRound share slots pool).1 := by
  fun_induction holdRound share slots pool with
  | case1 => rfl
  | case2 column width rest pool next inductionHypothesis =>
      simp only [waitingIn] at counted inductionHypothesis ⊢
      simp [next] at counted ⊢
      omega
  | case3 column rest pool waits next inductionHypothesis =>
      simp only [waitingIn] at counted inductionHypothesis ⊢
      simp [next] at counted ⊢
      omega
  | case4 column rest pool width held next inductionHypothesis =>
      simp only [waitingIn, Pool.without] at counted inductionHypothesis ⊢
      simp [next, Pool.without] at counted ⊢
      omega

/-- A round at a level holds exactly the columns below it, if those held before are among
them. -/
theorem slots_holdRound (level : Int) (slots : List Slot) (pool : Pool)
    (below : ∀ slot ∈ slots, slot.2 = none ∨ slot.2 = heldAt? level slot.1) :
    (holdRound level slots pool).1 = slotsAt level (slots.map Prod.fst) := by
  fun_induction holdRound level slots pool with
  | case1 => rfl
  | case2 column width rest pool next inductionHypothesis =>
      have held : some width = heldAt? level column := by
        simpa using below (column, some width) List.mem_cons_self
      have later := inductionHypothesis fun slot member =>
        below slot (List.mem_cons_of_mem _ member)
      simpa [slotsAt, next, held] using later
  | case3 column rest pool waits next inductionHypothesis =>
      have later := inductionHypothesis fun slot member =>
        below slot (List.mem_cons_of_mem _ member)
      simpa [slotsAt, next, waits] using later
  | case4 column rest pool width held next inductionHypothesis =>
      have later := inductionHypothesis fun slot member =>
        below slot (List.mem_cons_of_mem _ member)
      simpa [slotsAt, next, held] using later

/-- No round adds to the columns that wait. -/
theorem waiting_holdRound_le (share : Int) (slots : List Slot) (pool : Pool) :
    (holdRound share slots pool).2.waiting ≤ pool.waiting := by
  fun_induction holdRound share slots pool with
  | case1 => exact le_rfl
  | case2 column width rest pool next inductionHypothesis => exact inductionHypothesis
  | case3 column rest pool waits next inductionHypothesis => exact inductionHypothesis
  | case4 column rest pool width held next inductionHypothesis =>
      exact le_trans inductionHypothesis (Nat.sub_le _ _)

/-- A round that takes no column out of the count has changed nothing. -/
theorem holdRound_of_settled (share : Int) (slots : List Slot) (pool : Pool)
    (counted : waitingIn slots ≤ pool.waiting)
    (settled : pool.waiting ≤ (holdRound share slots pool).2.waiting) :
    holdRound share slots pool = (slots, pool) := by
  fun_induction holdRound share slots pool with
  | case1 => rfl
  | case2 column width rest pool next inductionHypothesis =>
      have same := inductionHypothesis (by simpa [waitingIn] using counted) settled
      simp [next, same]
  | case3 column rest pool waits next inductionHypothesis =>
      have same := inductionHypothesis
        (by simp [waitingIn] at counted ⊢; omega) settled
      simp [next, same]
  | case4 column rest pool width held next inductionHypothesis =>
      -- Holding the column has lowered the count, and no later step raises it again.
      have lowered := waiting_holdRound_le share rest (pool.without width)
      simp [waitingIn, next, Pool.without] at counted settled lowered
      omega

/-! ## All rounds -/

/-- A level at which a room is shared: no round goes below the equal share, and the columns
find room at the level. -/
structure IsLevel (room : Int) (columns : List Column) (level : Int) : Prop where
  lowest : room / columns.length ≤ level
  fits : (columns.map (fillWidth level)).sum ≤ room

/-- Slots and pool before a round: the columns that are held are so at the level, and slots and
pool together account for the room and for all columns. -/
structure Ready (room : Int) (columns : List Column) (level : Int) (slots : List Slot)
    (pool : Pool) : Prop where
  isLevel : IsLevel room columns level
  columns : slots.map Prod.fst = columns
  below : ∀ slot ∈ slots, slot.2 = none ∨ slot.2 = heldAt? level slot.1
  width : pool.width + heldSum slots = room
  waiting : waitingIn slots = pool.waiting
  share : pool.share = level

/-- At the beginning every column waits, and the level is the equal share. -/
theorem ready_initial (room : Int) {columns : List Column} (some : columns ≠ []) :
    Ready room columns (Pool.share ⟨room, columns.length⟩)
      (columns.map fun column => (column, none)) ⟨room, columns.length⟩ where
  isLevel := by
    refine ⟨le_rfl, ?_⟩
    have positive := columnCount_pos some
    have bound := (columns.map (fillWidth (Pool.share ⟨room, columns.length⟩))).sum_le_card_nsmul
      (room / columns.length) (by simp [fillWidth_le, Pool.share])
    calc (columns.map (fillWidth (Pool.share ⟨room, columns.length⟩))).sum
        ≤ columns.length * (room / columns.length) := by simpa using bound
      _ ≤ room := Int.mul_ediv_self_le positive.ne'
  columns := by simp [Function.comp_def]
  below := by simp
  width := by simp [heldSum, List.filterMap_map, List.filterMap_none]
  waiting := by simp [waitingIn, List.countP_map, Function.comp_def]
  share := rfl

/-- A round at a level leaves the slots and the pool of that level. -/
theorem Ready.holdRound {room level : Int} {columns : List Column} {slots : List Slot}
    {pool : Pool} (ready : Ready room columns level slots pool) :
    holdRound level slots pool = (slotsAt level columns, poolAt room level columns) := by
  have held := slots_holdRound level slots pool ready.below
  have width := width_holdRound level slots pool
  have waiting := waiting_holdRound level slots pool ready.waiting.le
  rw [ready.columns] at held
  rw [held, heldSum_slotsAt, ready.width] at width
  rw [held, waitingIn_slotsAt, ready.waiting] at waiting
  apply Prod.ext held
  cases reached : (Layout.holdRound level slots pool).2 with
  | mk left count =>
      rw [reached] at width waiting
      simp only [poolAt, Pool.mk.injEq]
      simp only at width waiting
      omega

/-- The share after a round is a level again, and no lower one. -/
theorem IsLevel.next {room level : Int} {columns : List Column}
    (isLevel : IsLevel room columns level) (waiting : waitingCount level columns ≠ 0) :
    level ≤ (poolAt room level columns).share ∧
      IsLevel room columns (poolAt room level columns).share := by
  have positive : (0 : Int) < waitingCount level columns := by omega
  have rises : level ≤ (poolAt room level columns).share := by
    have fits := isLevel.fits
    rw [sum_fillWidth] at fits
    rw [Pool.share, poolAt, Int.le_ediv_iff_mul_le positive]
    linarith
  refine ⟨rises, le_trans isLevel.lowest rises, ?_⟩
  have cost : waitingCount level columns * (poolAt room level columns).share ≤
      room - heldWidth level columns := Int.mul_ediv_self_le positive.ne'
  rw [sum_fillWidth]
  linarith [heldWidth_add_le rises le_rfl columns]

/-- After a round that leaves columns waiting, the next round can begin. -/
theorem IsLevel.ready {room level : Int} {columns : List Column}
    (isLevel : IsLevel room columns level) (waiting : waitingCount level columns ≠ 0) :
    Ready room columns (poolAt room level columns).share (slotsAt level columns)
      (poolAt room level columns) where
  isLevel := (isLevel.next waiting).2
  columns := by simp [slotsAt, Function.comp_def]
  below := by
    intro slot member
    obtain ⟨column, -, rfl⟩ := List.mem_map.mp member
    cases held : heldAt? level column with
    | none => exact .inl rfl
    | some width => exact .inr (heldAt?_mono (isLevel.next waiting).1 held).symm
  width := by simp [poolAt]
  waiting := by simp [poolAt]
  share := rfl

/-- The two ways in which the rounds end. -/
inductive Settled (room : Int) (columns : List Column) : List Slot × Int -> Prop where
  /-- Some columns still wait, and have the level as their share. -/
  | shared {level : Int} (isLevel : IsLevel room columns level)
      (waiting : waitingCount level columns ≠ 0)
      (balanced : (poolAt room level columns).share = level) :
      Settled room columns (slotsAt level columns, level)
  /-- All columns are held below the level, and what is left is spread over them. -/
  | spent {level : Int} (isLevel : IsLevel room columns level)
      (spent : waitingCount level columns = 0) :
      Settled room columns
        (spread (poolAt room level columns) (slotsAt level columns), level)

/-- The rounds end in one of the two ways. -/
theorem Ready.settled {room level : Int} {columns : List Column} {slots : List Slot}
    {pool : Pool} (ready : Ready room columns level slots pool) :
    Settled room columns (holdAll level slots pool) := by
  fun_induction holdAll level slots pool with
  | case1 level slots pool round spent =>
      simp only [round, ready.holdRound] at spent ⊢
      exact .spent ready.isLevel spent
  | case2 level slots pool round waiting fewer inductionHypothesis =>
      simp only [round, ready.holdRound] at waiting inductionHypothesis ⊢
      exact inductionHypothesis (ready.isLevel.ready waiting)
  | case3 level slots pool round waiting same =>
      -- The round has held none, so its share was the level of the slots before it.
      have unchanged := holdRound_of_settled level slots pool ready.waiting.le
        (Nat.le_of_not_lt same)
      have reached := ready.holdRound
      have stands : (poolAt room level columns).share = level :=
        (congrArg (fun round => round.2.share) (reached.symm.trans unchanged)).trans ready.share
      simp only [round, reached] at waiting ⊢
      rw [stands]
      exact .shared ready.isLevel waiting stands

/-! ## Widths -/

/-- What every column gets on top of its limit when all columns are held at a level. -/
def extraWidth (room level : Int) (columns : List Column) : Int :=
  (room - heldWidth level columns) / columns.length

/-- Widths that share a room, in one of the two ways in which the rounds end. -/
inductive Levelling (room : Int) (columns : List Column) : List Int -> Prop where
  | shared {level : Int} (isLevel : IsLevel room columns level)
      (waiting : waitingCount level columns ≠ 0)
      (balanced : (poolAt room level columns).share = level) :
      Levelling room columns
        (columns.map fun column => (heldAt? level column).getD (max level 1))
  | spent {level : Int} (isLevel : IsLevel room columns level)
      (spent : waitingCount level columns = 0) :
      Levelling room columns
        (columns.map fun column =>
          Slot.width level
            (column, (heldAt? level column).map (· + extraWidth room level columns)))

/-- The width of a slot that is not spread: a held column has its limit. -/
theorem width_slot (level : Int) (column : Column) :
    Slot.width level (column, heldAt? level column) =
      (heldAt? level column).getD (max level 1) := by
  cases held : heldAt? level column with
  | none => simp [Slot.width]
  | some width => simp [Slot.width, (heldAt?_eq_some_iff.mp held).2.1]

/-- The widths of columns share the room of their table. -/
theorem widths_levelling (tableWidth : Int) {columns : List Column} (some : columns ≠ []) :
    Levelling (room tableWidth columns) columns (widths tableWidth columns) := by
  have settled := (ready_initial (room tableWidth columns) some).settled
  simp only [widths]
  generalize holdAll _ _ _ = shared at settled ⊢
  cases settled with
  | shared isLevel waiting balanced =>
      simpa [slotsAt, Function.comp_def, width_slot] using
        Levelling.shared isLevel waiting balanced
  | spent isLevel spent =>
      simpa [slotsAt, spread, Function.comp_def, poolAt, extraWidth] using
        Levelling.spent isLevel spent

end Layout

end AuditTrail
