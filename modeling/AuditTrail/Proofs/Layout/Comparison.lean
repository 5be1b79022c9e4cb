import AuditTrail.Proofs.Layout.Fit
import AuditTrail.Proofs.Layout.Rest
import AuditTrail.Proofs.Table.Row
import Mathlib.Data.Fintype.Perm
import Mathlib.Data.List.Forall2
import Mathlib.Logic.Equiv.Fin.Basic

/-!
# Widths of two tables compared

Two tables are compared through the levels at which their rounds end, never round by round:
their rounds may hold other columns and may not be equally many.

No column narrows when its table widens: `widths_mono`. If columns wait in the wider table, its
level is at rest for the narrower one too, which therefore ends no higher; if none waits, every
column of the wider table has its limit already, and what is spread on top only grows.

Columns in another order have the same widths in that order: `widths_permuted`.
-/

namespace AuditTrail

namespace Layout

/-! ## One column among others -/

/-- While columns wait, each has the level, at least one code point, unless it is held. -/
theorem widthAmong_of_waiting {tableWidth : Int} {columns : List Column}
    (waiting : waitingCount (restingLevel tableWidth columns) columns ≠ 0) (column : Column) :
    widthAmong tableWidth columns column =
      (heldAt? (restingLevel tableWidth columns) column).getD
        (max (restingLevel tableWidth columns) 1) := by
  rw [← width_slot]
  simp [widthAmong, toppingWidth, waiting]

/-- When no column waits, each has its cap and an equal part of what the caps leave. -/
theorem widthAmong_of_spent {tableWidth : Int} {columns : List Column}
    (sound : ∀ column ∈ columns, column.HasSoundLimit)
    (spent : waitingCount (restingLevel tableWidth columns) columns = 0) {column : Column}
    (member : column ∈ columns) :
    ∃ cap, column.cap? = some cap ∧ cap ≤ widthAmong tableWidth columns column ∧
      widthAmong tableWidth columns column = cap +
        (room tableWidth columns - (caps columns).sum) / columns.length := by
  have isLevel := isLevel_restingLevel tableWidth (List.ne_nil_of_mem member)
  have extra := extraWidth_nonneg isLevel spent
  obtain ⟨cap, held⟩ := exists_heldAt? spent member
  have capped : column.cap? = some cap := heldAt?_of_spent spent member ▸ held
  have width : widthAmong tableWidth columns column =
      cap + extraWidth (room tableWidth columns) (restingLevel tableWidth columns) columns := by
    have shape := (width_spent sound isLevel spent member).1
    simpa [widthAmong, toppingWidth, spent, fillWidth, held] using shape
  refine ⟨cap, capped, by omega, ?_⟩
  rw [width, extraWidth, heldWidth_of_spent spent]

/-- While columns wait, none is wider than its cap. -/
theorem getD_heldAt?_le_cap {level cap : Int} {column : Column} (sound : column.HasSoundLimit)
    (capped : column.cap? = some cap) :
    (heldAt? level column).getD (max level 1) ≤ cap := by
  have positive := sound.one_le_cap capped
  rw [heldAt?_eq_filter_cap?, capped, Option.filter_some]
  by_cases below : cap < level
  · simp [below]
  · simp [below]
    omega

/-- A waiting column does not narrow when the level rises, also where it is held then. -/
theorem getD_heldAt?_mono {low high : Int} (rises : low ≤ high) {column : Column}
    (sound : column.HasSoundLimit) :
    (heldAt? low column).getD (max low 1) ≤ (heldAt? high column).getD (max high 1) := by
  cases held : heldAt? high column with
  | some cap =>
      rw [heldAt?_eq_filter_cap?] at held
      exact getD_heldAt?_le_cap sound (Option.filter_eq_some_iff.mp held).1
  | none =>
      calc (heldAt? low column).getD (max low 1)
          ≤ max low 1 := getD_heldAt?_le (le_max_left low 1) column
        _ ≤ max high 1 := max_le_max_right 1 rises

/-! ## Tables that widen -/

/-- A wider table has more room. -/
theorem room_mono {narrow wide : Int} (widens : narrow ≤ wide) (columns : List Column) :
    room narrow columns ≤ room wide columns := by
  simp only [room]
  omega

/-- No column narrows when its table widens. -/
theorem widths_mono {columns : List Column} (sound : ∀ column ∈ columns, column.HasSoundLimit)
    {narrow wide : Int} (widens : narrow ≤ wide) :
    List.Forall₂ (· ≤ ·) (widths narrow columns) (widths wide columns) := by
  rw [widths_eq, widths_eq, List.forall₂_map_left_iff, List.forall₂_map_right_iff,
    List.forall₂_same]
  intro column member
  by_cases spent : waitingCount (restingLevel wide columns) columns = 0
  · obtain ⟨cap, capped, reached, wideWidth⟩ := widthAmong_of_spent sound spent member
    by_cases narrowSpent : waitingCount (restingLevel narrow columns) columns = 0
    · obtain ⟨narrowCap, narrowCapped, -, narrowWidth⟩ :=
        widthAmong_of_spent sound narrowSpent member
      have sameCap : narrowCap = cap := Option.some.inj (narrowCapped.symm.trans capped)
      have more := Int.ediv_le_ediv (columnCount_pos (List.ne_nil_of_mem member))
        (Int.sub_le_sub_right (room_mono widens columns) (caps columns).sum)
      rw [narrowWidth, wideWidth, sameCap]
      exact Int.add_le_add_left more cap
    · calc widthAmong narrow columns column
          ≤ cap := by
            rw [widthAmong_of_waiting narrowSpent]
            exact getD_heldAt?_le_cap (sound column member) capped
        _ ≤ widthAmong wide columns column := reached
  · have rises : restingLevel narrow columns ≤ restingLevel wide columns :=
      restingLevel_le ((isAtRest_restingLevel spent).of_le (room_mono widens columns))
    have waiting : waitingCount (restingLevel narrow columns) columns ≠ 0 := by
      have fewer := waitingCount_anti rises columns
      omega
    rw [widthAmong_of_waiting waiting, widthAmong_of_waiting spent]
    exact getD_heldAt?_mono rises (sound column member)

/-- The table of a secret on two screens: on the narrow one all columns wait, on the wide one
all have reached their limits. -/
theorem widths_mono_secret :
    widths 80 (Table.ofTree? none (.clock .utc)).columns = [18, 18, 18, 18] ∧
      widths 160 (Table.ofTree? none (.clock .utc)).columns = [40, 30, 53, 30] ∧
      List.Forall₂ (· ≤ ·) (widths 80 (Table.ofTree? none (.clock .utc)).columns)
        (widths 160 (Table.ofTree? none (.clock .utc)).columns) :=
  ⟨by decide +kernel, by decide +kernel,
    widths_mono (Table.hasSoundLimit_ofTree? none (.clock .utc)) (by decide)⟩

/-! ## Columns in another order -/

/-- Columns in another order have the same widths, in that order. -/
theorem widths_permuted (tableWidth : Int) (columns : List Column)
    (order : Equiv.Perm (Fin columns.length)) :
    widths tableWidth (List.ofFn fun place => columns[order place]) =
      List.ofFn fun place => (widths tableWidth columns)[order place] := by
  have same : (List.ofFn fun place => columns[order place]).Perm columns := by
    have moved := order.ofFn_comp_perm columns.get
    rw [List.ofFn_get] at moved
    exact moved
  calc widths tableWidth (List.ofFn fun place => columns[order place])
      = (List.ofFn fun place => columns[order place]).map (widthAmong tableWidth columns) := by
        rw [widths_eq, widthAmong_perm same]
    _ = List.ofFn fun place => (widths tableWidth columns)[order place] := by
        simp [List.map_ofFn, Function.comp_def, widths_eq]

end Layout

end AuditTrail
