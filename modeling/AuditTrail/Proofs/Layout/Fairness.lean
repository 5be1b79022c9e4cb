import AuditTrail.Proofs.Layout.Fit
import AuditTrail.Proofs.Table.Row

/-!
# Fair widths

Widths are fair when the columns differ only where their limits make them: either all are cut
off at one level, which is the equal share of what the lower limits leave, or all have reached
their limits and get the same on top. What a division leaves over is less than one unit for each
column, and nothing else of the room is left unused. A table that has no room for one code point
in each column gives one to each nevertheless.

`widths_isFair` says so of all columns with sound limits and of every table width. It follows
from the two ways in which the rounds end.
-/

namespace AuditTrail

namespace Layout

/-! ## What is fair -/

/-- Widths cut off at a level: a column has its cap below the level and the level elsewhere,
and the level is the equal share of what the caps below it leave of the room. -/
structure IsCutOff (room : Int) (columns : List Column) (level : Int) (widths : List Int) :
    Prop where
  one_le : 1 ≤ level
  widths_eq : widths = columns.map fun column => column.cap?.elim level (min · level)
  reached : ∃ column ∈ columns, ∀ cap ∈ column.cap?, level ≤ cap
  level_eq : level = (room - ((caps columns).filter (· < level)).sum) /
    (columns.length - ((caps columns).filter (· < level)).length)

/-- Widths spread over the caps: every column has a cap, the caps find room together, and what
they leave of it is shared equally on top of them. -/
structure IsSpread (room : Int) (columns : List Column) (widths : List Int) : Prop where
  capped : ∀ column ∈ columns, ∃ cap, column.cap? = some cap
  fits : (caps columns).sum ≤ room
  widths_eq : widths =
    (caps columns).map (· + (room - (caps columns).sum) / columns.length)

/-- Widths that share a room fairly and use it up to what divisions leave over. -/
structure IsFair (room : Int) (columns : List Column) (widths : List Int) : Prop where
  length_eq : widths.length = columns.length
  one_le : ∀ width ∈ widths, 1 ≤ width
  cramped : room < columns.length -> ∀ width ∈ widths, width = 1
  sum_le : columns.length ≤ room -> widths.sum ≤ room
  lt_sum : columns.length ≤ room -> room - columns.length < widths.sum
  shared : columns.length ≤ room ->
    (∃ level, IsCutOff room columns level widths) ∨ IsSpread room columns widths

/-! ## Caps and levels -/

/-- The columns held at a level are held at the caps below it. -/
theorem filterMap_heldAt? (level : Int) (columns : List Column) :
    columns.filterMap (heldAt? level) = (caps columns).filter (· < level) := by
  rw [caps, List.filter_filterMap]
  exact List.filterMap_congr fun column _ => heldAt?_eq_filter_cap? level column

/-- The columns that wait are those without a cap below the level. -/
theorem waitingCount_add (level : Int) (columns : List Column) :
    waitingCount level columns + ((caps columns).filter (· < level)).length = columns.length := by
  have split := List.length_eq_countP_add_countP (l := columns)
    fun column => (heldAt? level column).isNone
  rw [← filterMap_heldAt?, List.length_filterMap_eq_countP, waitingCount, split]
  refine congrArg _ (List.countP_congr fun column _ => ?_)
  cases heldAt? level column <;> simp

/-- A column takes the lower one of its cap and the level. -/
theorem fillWidth_eq (level : Int) (column : Column) :
    fillWidth level column = column.cap?.elim level (min · level) := by
  rw [fillWidth, heldAt?_eq_filter_cap?]
  cases column.cap? with
  | none => rfl
  | some cap =>
      rw [Option.filter_some]
      by_cases below : cap < level
      · simp [below, below.le]
      · simp [below, not_lt.mp below]

/-- From a level of one on, every column with a sound limit has a code point. -/
theorem one_le_fillWidth {level : Int} {column : Column} (sound : column.HasSoundLimit)
    (reaches : 1 ≤ level) : 1 ≤ fillWidth level column := by
  unfold fillWidth
  cases held : heldAt? level column with
  | none => exact reaches
  | some width => exact one_le_of_heldAt? sound held

/-- Where not every column finds room for a code point, the level is below one. -/
theorem IsLevel.lt_one {room level : Int} {columns : List Column}
    (isLevel : IsLevel room columns level) (sound : ∀ column ∈ columns, column.HasSoundLimit)
    (cramped : room < columns.length) : level < 1 := by
  by_contra reaches
  have least := (columns.map (fillWidth level)).card_nsmul_le_sum 1
    (by simpa using fun column member => one_le_fillWidth (sound column member) (by omega))
  have fits := isLevel.fits
  simp at least
  omega

/-- Where no column waits, the caps are what the columns take. -/
theorem caps_of_spent {level : Int} {columns : List Column}
    (spent : waitingCount level columns = 0) : caps columns = columns.map (fillWidth level) := by
  rw [← List.filterMap_eq_map]
  refine List.filterMap_congr fun column inside => ?_
  obtain ⟨cap, held⟩ := exists_heldAt? spent inside
  rw [← heldAt?_of_spent spent inside, held]
  simp [fillWidth, held]

/-! ## The widths of a table's columns -/

/-- In a room without a code point for each column, every column has exactly one. -/
theorem Levelling.eq_one {room : Int} {columns : List Column} {widths : List Int}
    (levelling : Levelling room columns widths)
    (sound : ∀ column ∈ columns, column.HasSoundLimit) (cramped : room < columns.length)
    {width : Int} (member : width ∈ widths) : width = 1 := by
  -- No cap lies below a level below one, so no column is held.
  have free {level : Int} (low : level < 1) {column : Column} (inside : column ∈ columns) :
      heldAt? level column = none := by
    refine Option.eq_none_iff_forall_ne_some.mpr fun limit held => ?_
    have bound := one_le_of_heldAt? (sound column inside) held
    have below := (heldAt?_eq_some_iff.mp held).2.2
    omega
  cases levelling with
  | @shared level isLevel waiting balanced =>
      have low := isLevel.lt_one sound cramped
      obtain ⟨column, inside, rfl⟩ := List.mem_map.mp member
      simp [free low inside, low.le]
  | @spent level isLevel spent =>
      have low := isLevel.lt_one sound cramped
      obtain ⟨column, inside, rfl⟩ := List.mem_map.mp member
      obtain ⟨limit, held⟩ := exists_heldAt? spent inside
      simp [free low inside] at held

/-- Columns that wait with the level as their share are cut off at the level. -/
theorem isCutOff_of_waiting {room level : Int} {columns : List Column}
    (waiting : waitingCount level columns ≠ 0)
    (balanced : (poolAt room level columns).share = level) (reaches : 1 ≤ level) :
    IsCutOff room columns level (columns.map (fillWidth level)) where
  one_le := reaches
  widths_eq := List.map_congr_left fun column _ => fillWidth_eq level column
  reached := by
    obtain ⟨column, inside, waits⟩ := List.countP_pos_iff.mp (Nat.pos_of_ne_zero waiting)
    refine ⟨column, inside, fun cap capped => not_lt.mp fun below => ?_⟩
    rw [heldAt?_eq_filter_cap?, Option.mem_def.mp capped, Option.filter_some] at waits
    simp [below] at waits
  level_eq := by
    have counted := waitingCount_add level columns
    have others : (columns.length : Int) - ((caps columns).filter (· < level)).length =
        waitingCount level columns := by omega
    rw [others, ← filterMap_heldAt?]
    exact balanced.symm

/-- Columns that are all held are spread over their caps. -/
theorem isSpread_of_spent {room level : Int} {columns : List Column}
    (sound : ∀ column ∈ columns, column.HasSoundLimit) (isLevel : IsLevel room columns level)
    (spent : waitingCount level columns = 0) :
    IsSpread room columns (columns.map fun column => Slot.width level
      (column, (heldAt? level column).map (· + extraWidth room level columns))) where
  capped column inside := by
    obtain ⟨cap, held⟩ := exists_heldAt? spent inside
    exact ⟨cap, heldAt?_of_spent spent inside ▸ held⟩
  fits := by
    have fits := isLevel.fits
    rwa [← caps_of_spent spent] at fits
  widths_eq := by
    have extra : extraWidth room level columns = (room - (caps columns).sum) / columns.length := by
      rw [extraWidth, heldWidth_of_spent spent]
    rw [← extra, caps_of_spent spent, List.map_map]
    exact List.map_congr_left fun column inside => (width_spent sound isLevel spent inside).1

/-- Where every column finds room for a code point, the widths are cut off at a level or spread
over the caps. -/
theorem Levelling.shape {room : Int} {columns : List Column} {widths : List Int}
    (levelling : Levelling room columns widths)
    (sound : ∀ column ∈ columns, column.HasSoundLimit) (some : columns ≠ [])
    (enough : columns.length ≤ room) :
    (∃ level, IsCutOff room columns level widths) ∨ IsSpread room columns widths := by
  cases levelling with
  | @shared level isLevel waiting balanced =>
      have reaches := isLevel.one_le some enough
      rw [max_eq_left reaches]
      exact .inl ⟨level, isCutOff_of_waiting waiting balanced reaches⟩
  | spent isLevel spent => exact .inr (isSpread_of_spent sound isLevel spent)

/-- The widths leave less than one unit for each column of the room unused. -/
theorem Levelling.lt_sum {room : Int} {columns : List Column} {widths : List Int}
    (levelling : Levelling room columns widths)
    (sound : ∀ column ∈ columns, column.HasSoundLimit) (some : columns ≠ [])
    (enough : columns.length ≤ room) : room - columns.length < widths.sum := by
  cases levelling with
  | @shared level isLevel waiting balanced =>
      have positive : (0 : Int) < waitingCount level columns := by omega
      have few : waitingCount level columns ≤ columns.length := List.countP_le_length
      have rest := Int.lt_ediv_add_one_mul_self (room - heldWidth level columns) positive
      rw [show (room - heldWidth level columns) / waitingCount level columns = level from balanced]
        at rest
      rw [max_eq_left (isLevel.one_le some enough)]
      calc room - columns.length
          < heldWidth level columns + waitingCount level columns * level := by linarith
        _ = (columns.map (fillWidth level)).sum := (sum_fillWidth level columns).symm
  | @spent level isLevel spent =>
      have rest := Int.lt_ediv_add_one_mul_self (room - heldWidth level columns)
        (columnCount_pos some)
      rw [sum_width_spent sound isLevel spent, extraWidth]
      linarith

/-- The widths of columns are fair in every table. -/
theorem widths_isFair (tableWidth : Int) {columns : List Column}
    (sound : ∀ column ∈ columns, column.HasSoundLimit) (some : columns ≠ []) :
    IsFair (room tableWidth columns) columns (widths tableWidth columns) where
  length_eq := length_widths tableWidth columns
  one_le _ member := (widths_levelling tableWidth some).one_le sound member
  cramped short _ member := (widths_levelling tableWidth some).eq_one sound short member
  sum_le := (widths_levelling tableWidth some).sum_le sound some
  lt_sum := (widths_levelling tableWidth some).lt_sum sound some
  shared := (widths_levelling tableWidth some).shape sound some

/-- The table of a secret on a screen that is wide enough for three of its four limits: the
addresses get what the other columns leave. -/
theorem widths_isFair_secret :
    widths 120 (Table.ofTree? none (.clock .utc)).columns = [32, 22, 38, 22] ∧
      IsFair (room 120 (Table.ofTree? none (.clock .utc)).columns)
        (Table.ofTree? none (.clock .utc)).columns [32, 22, 38, 22] := by
  have shares : widths 120 (Table.ofTree? none (.clock .utc)).columns = [32, 22, 38, 22] := by
    decide +kernel
  have fair := widths_isFair 120 (Table.hasSoundLimit_ofTree? none (.clock .utc)) (by decide)
  rw [shares] at fair
  exact ⟨shares, fair⟩

end Layout

end AuditTrail
