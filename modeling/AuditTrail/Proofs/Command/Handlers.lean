import AuditTrail.Journal
import Mathlib.Data.Finset.Card

/-!
# Handlers of the log

Logging may be set up any number of times while a program runs, and error messages may go to another
stream each time. In whatever order this happens, the log has one handler for each stream that took
error messages at some time when it was set up, and none besides: `mem_handlers_after` and
`nodup_handlers_after`. A stream that took them only between two such times has no handler.
-/

namespace AuditTrail

/-- What happens to the log while a program runs. -/
inductive LogChange where
  /-- Logging is set up, for the stream that takes error messages at this time. -/
  | setsUp (debugging : Bool)
  /-- Error messages go to this stream from now on, be it a new one or one of before. -/
  | redirects (stream : Nat)
deriving DecidableEq, Repr

/-- How logging is set up, and the stream that takes error messages. -/
structure LogState where
  setup : LogSetup
  current : Nat
deriving DecidableEq, Repr

namespace LogState

/-- The state behind one change. -/
def change (state : LogState) : LogChange -> LogState
  | .setsUp debugging => { state with setup := state.setup.setUp debugging state.current }
  | .redirects stream => { state with current := stream }

/-- The state behind changes, one after another. -/
def after (state : LogState) (changes : List LogChange) : LogState := changes.foldl change state

/-- The streams that took error messages at the times when logging was set up, one for each time;
`current` is the one that takes them at first. -/
def streamsAtSetUps (current : Nat) : List LogChange -> List Nat
  | [] => []
  | .setsUp _ :: later => current :: streamsAtSetUps current later
  | .redirects stream :: later => streamsAtSetUps stream later

@[simp] theorem after_nil (state : LogState) : state.after [] = state := rfl

@[simp] theorem after_cons (state : LogState) (first : LogChange) (later : List LogChange) :
    state.after (first :: later) = (state.change first).after later := rfl

/-- The last of some changes comes behind the others. -/
theorem after_concat (state : LogState) (earlier : List LogChange) (last : LogChange) :
    state.after (earlier ++ [last]) = (state.after earlier).change last := by
  simp [after, List.foldl_append]

/-! ## One change -/

/-- Setting up gives the current stream a handler, if it has none. -/
theorem mem_handlers_setUp {setup : LogSetup} {debugging : Bool} {current stream : Nat} :
    stream ∈ (setup.setUp debugging current).handlers ↔
      stream ∈ setup.handlers ∨ stream = current := by
  rw [LogSetup.setUp]
  split
  next known =>
    have member : current ∈ setup.handlers := List.contains_iff_mem.mp known
    constructor
    · exact .inl
    · rintro (handled | rfl)
      · exact handled
      · exact member
  next => simp

/-- Setting up gives no stream a second handler. -/
theorem nodup_handlers_setUp {setup : LogSetup} (distinct : setup.handlers.Nodup)
    (debugging : Bool) (current : Nat) : (setup.setUp debugging current).handlers.Nodup := by
  rw [LogSetup.setUp]
  split
  next => exact distinct
  next unknown =>
    have absent : current ∉ setup.handlers := fun member =>
      unknown (List.contains_iff_mem.mpr member)
    rw [← List.concat_eq_append]
    exact distinct.concat absent

/-- A change gives no stream a second handler. -/
theorem nodup_handlers_change {state : LogState} (distinct : state.setup.handlers.Nodup)
    (changed : LogChange) : (state.change changed).setup.handlers.Nodup := by
  cases changed with
  | setsUp debugging => exact nodup_handlers_setUp distinct debugging state.current
  | redirects => exact distinct

/-! ## Any number of changes -/

/-- Two handlers are never for the same stream. -/
theorem nodup_handlers_after {state : LogState} (distinct : state.setup.handlers.Nodup)
    (changes : List LogChange) : (state.after changes).setup.handlers.Nodup := by
  induction changes generalizing state with
  | nil => exact distinct
  | cons first later inductionHypothesis =>
      exact inductionHypothesis (nodup_handlers_change distinct first)

/-- The streams with a handler are those that had one, and those for which logging was set up. -/
theorem mem_handlers_after {state : LogState} {changes : List LogChange} {stream : Nat} :
    stream ∈ (state.after changes).setup.handlers ↔
      stream ∈ state.setup.handlers ∨ stream ∈ streamsAtSetUps state.current changes := by
  induction changes generalizing state with
  | nil => simp [streamsAtSetUps]
  | cons first later inductionHypothesis =>
      rw [after_cons, inductionHypothesis]
      cases first with
      | setsUp debugging =>
          simp only [change, streamsAtSetUps, mem_handlers_setUp, List.mem_cons, or_assoc]
      | redirects => rfl

/-- There are as many handlers as there were different streams when logging was set up. -/
theorem length_handlers_after (current : Nat) (changes : List LogChange) :
    (after ⟨.none, current⟩ changes).setup.handlers.length =
      (streamsAtSetUps current changes).toFinset.card := by
  have distinct : (after ⟨.none, current⟩ changes).setup.handlers.Nodup :=
    nodup_handlers_after List.nodup_nil changes
  rw [← List.toFinset_card_of_nodup distinct]
  congr 1
  ext stream
  rw [List.mem_toFinset, List.mem_toFinset, mem_handlers_after]
  simp [LogSetup.none]

/-- Whenever logging has just been set up, the stream that takes error messages has one handler, no
other stream has two, there is one handler for each stream for which logging was ever set up, and
the log is kept from the level that was asked for last. -/
theorem handlers_match_streams (current : Nat) (earlier : List LogChange) (debugging : Bool) :
    let changes := earlier ++ [.setsUp debugging]
    let state := after ⟨.none, current⟩ changes
    state.setup.handlers.count state.current = 1 ∧
      state.setup.handlers.Nodup ∧
      state.setup.handlers.length = (streamsAtSetUps current changes).toFinset.card ∧
      state.setup.threshold = some (if debugging then .debug else .warning) := by
  intro changes state
  have distinct : state.setup.handlers.Nodup := nodup_handlers_after List.nodup_nil changes
  have last : state = (after ⟨.none, current⟩ earlier).change (.setsUp debugging) :=
    after_concat ⟨.none, current⟩ earlier (.setsUp debugging)
  have handled : state.current ∈ state.setup.handlers := by
    rw [last]
    exact mem_handlers_setUp.mpr (.inr rfl)
  refine ⟨List.count_eq_one_of_mem distinct handled, distinct,
    length_handlers_after current changes, ?_⟩
  rw [last]
  rfl

/-- A stream that comes back keeps the handler that it has, and one that is gone by the time when
logging is set up gets none. -/
example : (after ⟨.none, 0⟩ [.setsUp false, .redirects 1, .redirects 2, .setsUp true, .redirects 0,
    .setsUp false]).setup = ⟨[0, 2], some .warning⟩ := by
  decide

end LogState

end AuditTrail
