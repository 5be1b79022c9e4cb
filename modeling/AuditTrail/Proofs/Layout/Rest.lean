import AuditTrail.Proofs.Layout.Level

/-!
# Where the rounds come to rest

The rounds end at one level, and the widths of the columns follow from it without a look at the
rounds: `widths_eq`. While columns wait, a level is at rest when their share does not pass it.
The rounds never pass a level at rest, `restingLevel_le`, and if columns wait in the end they end
at one, `isAtRest_restingLevel`. So it is the lowest, by whatever rounds they come to it.

A round only adds up and counts what it holds, so the order of the columns is lost on it:
`restingLevel_perm`.
-/

namespace AuditTrail

namespace Layout

/-- The level at which the rounds end. -/
def restingLevel (tableWidth : Int) (columns : List Column) : Int :=
  let pool : Pool := ⟨room tableWidth columns, columns.length⟩
  (holdAll pool.share (columns.map fun column => (column, none)) pool).2

/-- What a held column gets on top of its limit: nothing while others wait. -/
def toppingWidth (room level : Int) (columns : List Column) : Int :=
  if waitingCount level columns = 0 then extraWidth room level columns else 0

/-- The width of a column among the columns of a table. -/
def widthAmong (tableWidth : Int) (columns : List Column) (column : Column) : Int :=
  let level := restingLevel tableWidth columns
  Slot.width level
    (column,
      (heldAt? level column).map (· + toppingWidth (room tableWidth columns) level columns))

/-! ## Levels at rest -/

/-- A level at which columns wait whose share does not pass it. -/
structure IsAtRest (room : Int) (columns : List Column) (level : Int) : Prop where
  waiting : waitingCount level columns ≠ 0
  share_le : (poolAt room level columns).share ≤ level

/-- Where columns wait, there are some. -/
theorem ne_nil_of_waiting {level : Int} {columns : List Column}
    (waiting : waitingCount level columns ≠ 0) : columns ≠ [] := by
  rintro rfl
  exact waiting rfl

/-- The higher the level, the fewer columns wait. -/
theorem waitingCount_anti {low high : Int} (rises : low ≤ high) (columns : List Column) :
    waitingCount high columns ≤ waitingCount low columns := by
  apply List.countP_mono_left
  intro column _ waits
  cases held : heldAt? low column with
  | none => rfl
  | some width => simp [heldAt?_mono rises held] at waits

/-- Where columns wait, their share stays at or below a level exactly when one unit more for
each of them does not fit into the room. -/
theorem share_poolAt_le_iff {room level top : Int} {columns : List Column}
    (waiting : waitingCount level columns ≠ 0) :
    (poolAt room level columns).share ≤ top ↔
      room < heldWidth level columns + waitingCount level columns * (top + 1) := by
  have positive : (0 : Int) < waitingCount level columns := by omega
  simp only [Pool.share, poolAt]
  rw [← Int.lt_add_one_iff, Int.ediv_lt_iff_lt_mul positive, mul_comm]
  omega

/-- From below a level at rest, columns wait and their share does not pass it. -/
theorem IsAtRest.below {room level top : Int} {columns : List Column}
    (rest : IsAtRest room columns top) (below : level ≤ top) :
    waitingCount level columns ≠ 0 ∧ (poolAt room level columns).share ≤ top := by
  have fewer := waitingCount_anti below columns
  have waits := rest.waiting
  have waiting : waitingCount level columns ≠ 0 := by omega
  refine ⟨waiting, (share_poolAt_le_iff waiting).mpr ?_⟩
  -- The columns waiting at the top do not fit when raised above it, and from below more wait.
  calc room
      < heldWidth top columns + waitingCount top columns * (top + 1) :=
        (share_poolAt_le_iff rest.waiting).mp rest.share_le
    _ ≤ heldWidth level columns + waitingCount level columns * (top + 1) :=
        heldWidth_add_le below (by omega) columns

/-- The equal share of all columns does not pass a level at rest. -/
theorem IsAtRest.equalShare_le {room top : Int} {columns : List Column}
    (rest : IsAtRest room columns top) : room / columns.length ≤ top := by
  have positive := columnCount_pos (ne_nil_of_waiting rest.waiting)
  rw [← Int.lt_add_one_iff, Int.ediv_lt_iff_lt_mul positive]
  have bound := (columns.map fun column => (heldAt? top column).getD (top + 1)).sum_le_card_nsmul
    (top + 1) (by simpa using fun column _ => getD_heldAt?_le (by omega) column)
  calc room
      < heldWidth top columns + waitingCount top columns * (top + 1) :=
        (share_poolAt_le_iff rest.waiting).mp rest.share_le
    _ = (columns.map fun column => (heldAt? top column).getD (top + 1)).sum :=
        (sum_getD_heldAt? top (top + 1) columns).symm
    _ ≤ (top + 1) * columns.length := by simpa [mul_comm] using bound

/-- A level at rest is so in a smaller room. -/
theorem IsAtRest.of_le {less room level : Int} {columns : List Column}
    (rest : IsAtRest room columns level) (shrinks : less ≤ room) :
    IsAtRest less columns level where
  waiting := rest.waiting
  share_le := (share_poolAt_le_iff rest.waiting).mpr
    (shrinks.trans_lt ((share_poolAt_le_iff rest.waiting).mp rest.share_le))

/-! ## The resting level -/

/-- The rounds do not pass a level at rest that they begin below. -/
theorem Ready.level_le {room level top : Int} {columns : List Column} {slots : List Slot}
    {pool : Pool} (ready : Ready room columns level slots pool)
    (rest : IsAtRest room columns top) (below : level ≤ top) :
    (holdAll level slots pool).2 ≤ top := by
  fun_induction holdAll level slots pool with
  | case1 level slots pool round spent => exact below
  | case2 level slots pool round waiting fewer inductionHypothesis =>
      simp only [round, ready.holdRound] at waiting inductionHypothesis ⊢
      exact inductionHypothesis (ready.isLevel.ready waiting) (rest.below below).2
  | case3 level slots pool round waiting settled =>
      simp only [round, ready.holdRound]
      exact (rest.below below).2

/-- The rounds end no higher than at any level at rest. -/
theorem restingLevel_le {tableWidth top : Int} {columns : List Column}
    (rest : IsAtRest (room tableWidth columns) columns top) :
    restingLevel tableWidth columns ≤ top :=
  (ready_initial (room tableWidth columns) (ne_nil_of_waiting rest.waiting)).level_le rest
    rest.equalShare_le

/-- The rounds end at a level at which the columns find room. -/
theorem Settled.isLevel {room : Int} {columns : List Column} {shared : List Slot × Int}
    (settled : Settled room columns shared) : IsLevel room columns shared.2 := by
  cases settled with
  | shared isLevel waiting balanced => exact isLevel
  | spent isLevel spent => exact isLevel

/-- In both ways of ending, the slots are those of the last level with the topping, and what
still waits has that level as its share. -/
theorem Settled.shape {room : Int} {columns : List Column} {shared : List Slot × Int}
    (settled : Settled room columns shared) :
    shared.1 = columns.map (fun column =>
        (column, (heldAt? shared.2 column).map (· + toppingWidth room shared.2 columns))) ∧
      (waitingCount shared.2 columns ≠ 0 -> (poolAt room shared.2 columns).share = shared.2) := by
  cases settled with
  | shared isLevel waiting balanced =>
      simp [toppingWidth, waiting, slotsAt, balanced]
  | spent isLevel spent =>
      simp [toppingWidth, spent, slotsAt, spread, extraWidth, poolAt]

/-- The rounds of some columns end in one of the two ways. -/
theorem settled_holdAll (tableWidth : Int) {columns : List Column} (some : columns ≠ []) :
    Settled (room tableWidth columns) columns
      (holdAll (Pool.share ⟨room tableWidth columns, columns.length⟩)
        (columns.map fun column => (column, none))
        ⟨room tableWidth columns, columns.length⟩) :=
  (ready_initial (room tableWidth columns) some).settled

/-- The columns find room at the level at which the rounds end. -/
theorem isLevel_restingLevel (tableWidth : Int) {columns : List Column} (some : columns ≠ []) :
    IsLevel (room tableWidth columns) columns (restingLevel tableWidth columns) :=
  (settled_holdAll tableWidth some).isLevel

/-- The level at which the rounds end is at rest if columns wait at it. -/
theorem isAtRest_restingLevel {tableWidth : Int} {columns : List Column}
    (waiting : waitingCount (restingLevel tableWidth columns) columns ≠ 0) :
    IsAtRest (room tableWidth columns) columns (restingLevel tableWidth columns) where
  waiting := waiting
  share_le := ((settled_holdAll tableWidth (ne_nil_of_waiting waiting)).shape.2 waiting).le

/-- The widths of columns follow from the level at which the rounds end. -/
theorem widths_eq (tableWidth : Int) (columns : List Column) :
    widths tableWidth columns = columns.map (widthAmong tableWidth columns) := by
  by_cases some : columns = []
  · exact some ▸ List.eq_nil_of_length_eq_zero (length_widths tableWidth [])
  · have shape := (settled_holdAll tableWidth some).shape.1
    simp only [widths]
    rw [shape, List.map_map]
    rfl

/-! ## Columns in another order -/

/-- What columns hold together does not depend on their order. -/
theorem heldWidth_perm {columns others : List Column} (same : columns.Perm others)
    (level : Int) : heldWidth level columns = heldWidth level others :=
  (same.filterMap _).sum_eq

/-- How many columns wait does not depend on their order. -/
theorem waitingCount_perm {columns others : List Column} (same : columns.Perm others)
    (level : Int) : waitingCount level columns = waitingCount level others :=
  same.countP_eq _

/-- What columns leave of a room does not depend on their order. -/
theorem poolAt_perm {columns others : List Column} (same : columns.Perm others)
    (room level : Int) : poolAt room level columns = poolAt room level others := by
  rw [poolAt, poolAt, heldWidth_perm same, waitingCount_perm same]

/-- What held columns get on top does not depend on the order of the columns. -/
theorem toppingWidth_perm {columns others : List Column} (same : columns.Perm others)
    (room level : Int) : toppingWidth room level columns = toppingWidth room level others := by
  unfold toppingWidth extraWidth
  rw [heldWidth_perm same, waitingCount_perm same, same.length_eq]

/-- Columns in another order have the same room. -/
theorem room_perm {columns others : List Column} (same : columns.Perm others)
    (tableWidth : Int) : room tableWidth columns = room tableWidth others := by
  rw [room, room, same.length_eq]

/-- Rounds that begin at one level and with one pool end at one level, if the columns are the
same up to their order. -/
theorem Ready.level_perm {room level : Int} {columns others : List Column} {slots : List Slot}
    {pool : Pool} (same : columns.Perm others) (ready : Ready room columns level slots pool) :
    ∀ otherSlots, Ready room others level otherSlots pool ->
      (holdAll level slots pool).2 = (holdAll level otherSlots pool).2 := by
  fun_induction holdAll level slots pool with
  | case1 level slots pool round spent =>
      intro otherSlots otherReady
      simp only [round, ready.holdRound] at spent
      rw [holdAll]
      simp [otherReady.holdRound, ← poolAt_perm same, spent]
  | case2 level slots pool round waiting fewer inductionHypothesis =>
      intro otherSlots otherReady
      simp only [round, ready.holdRound] at waiting fewer inductionHypothesis ⊢
      -- Both rounds leave the same pool, so the next ones begin with one pool again.
      have otherWaiting : waitingCount level others ≠ 0 := by rwa [← waitingCount_perm same]
      have next := otherReady.isLevel.ready otherWaiting
      rw [← poolAt_perm same] at next
      rw [inductionHypothesis (ready.isLevel.ready waiting) _ next, holdAll.eq_def level otherSlots]
      simp [otherReady.holdRound, ← poolAt_perm same, waiting, fewer]
  | case3 level slots pool round waiting settled =>
      intro otherSlots otherReady
      simp only [round, ready.holdRound] at waiting settled ⊢
      rw [holdAll]
      simp [otherReady.holdRound, ← poolAt_perm same, waiting, settled]

/-- The rounds end at one level in whatever order the columns stand. -/
theorem restingLevel_perm {columns others : List Column} (same : columns.Perm others)
    (tableWidth : Int) : restingLevel tableWidth columns = restingLevel tableWidth others := by
  by_cases some : columns = []
  · subst some
    rw [same.nil_eq]
  · have otherSome : others ≠ [] := fun none => some (none ▸ same).eq_nil
    have otherReady := ready_initial (room tableWidth others) otherSome
    simp only [restingLevel]
    rw [← room_perm same, ← same.length_eq] at otherReady ⊢
    exact (ready_initial (room tableWidth columns) some).level_perm same _ otherReady

/-- The width of a column does not depend on the order of the columns around it. -/
theorem widthAmong_perm {columns others : List Column} (same : columns.Perm others)
    (tableWidth : Int) : widthAmong tableWidth columns = widthAmong tableWidth others := by
  funext column
  rw [widthAmong, widthAmong, restingLevel_perm same, room_perm same, toppingWidth_perm same]

end Layout

end AuditTrail
