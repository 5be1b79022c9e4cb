import AuditTrail.Event
import AuditTrail.Pager.Sink

/-!
# Histories of a run

A run pulls events and deals with one sink. A history lists both in the order in which they
happened, together with what the sink answered; a transcript is what a sink itself can tell of
it. `Sink.recorded` keeps the transcript of any sink without changing one of its answers, so
what is shown of recorded sinks holds of sinks whose answers depend in any way on what was
done to them before.
-/

namespace AuditTrail

/-- One thing that a run does. -/
inductive Act where
  /-- It pulls an event. -/
  | pull (event : Event)
  /-- It writes to the sink. -/
  | write (octets : Bytes) (result : WriteResult)
  /-- It asks whether the sink is closed. -/
  | poll (closed : Bool)
  /-- It closes the sink. -/
  | close
deriving DecidableEq

/-- What a run did, in order. -/
abbrev History := List Act

namespace Act

/-- The octets of a write that succeeded. -/
def taken? : Act -> Option Bytes
  | .write octets (.written _) => some octets
  | .write _ (.exhausted _) | .write _ (.failed _) | .write _ .afterClose => none
  | .pull _ | .poll _ | .close => none

/-- The octets of a write, successful or not. -/
def offered? : Act -> Option Bytes
  | .write octets _ => some octets
  | .pull _ | .poll _ | .close => none

/-- The event that was pulled. -/
def pulled? : Act -> Option Event
  | .pull event => some event
  | .write _ _ | .poll _ | .close => none

/-- Whether the sink took part in it. -/
def isAtSink : Act -> Bool
  | .pull _ => false
  | .write _ _ | .poll _ | .close => true

end Act

namespace History

/-- The octets of the writes that succeeded. -/
def taken (history : History) : List Bytes := history.filterMap Act.taken?

/-- The octets of all writes. -/
def offered (history : History) : List Bytes := history.filterMap Act.offered?

/-- The events that were pulled. -/
def pulled (history : History) : List Event := history.filterMap Act.pulled?

/-- The part of a history that the sink took part in. -/
def atSink (history : History) : History := history.filter Act.isAtSink

@[simp] theorem taken_nil : taken [] = [] := rfl

@[simp] theorem offered_nil : offered [] = [] := rfl

@[simp] theorem pulled_nil : pulled [] = [] := rfl

@[simp] theorem atSink_nil : atSink [] = [] := rfl

theorem taken_cons (act : Act) (rest : History) :
    taken (act :: rest) = act.taken?.toList ++ taken rest := by
  cases found : act.taken? <;> simp [taken, found]

theorem offered_cons (act : Act) (rest : History) :
    offered (act :: rest) = act.offered?.toList ++ offered rest := by
  cases found : act.offered? <;> simp [offered, found]

theorem pulled_cons (act : Act) (rest : History) :
    pulled (act :: rest) = act.pulled?.toList ++ pulled rest := by
  cases found : act.pulled? <;> simp [pulled, found]

theorem atSink_cons (act : Act) (rest : History) :
    atSink (act :: rest) = if act.isAtSink then act :: atSink rest else atSink rest :=
  List.filter_cons

@[simp] theorem taken_append (left right : History) :
    taken (left ++ right) = taken left ++ taken right :=
  List.filterMap_append

@[simp] theorem offered_append (left right : History) :
    offered (left ++ right) = offered left ++ offered right :=
  List.filterMap_append

@[simp] theorem pulled_append (left right : History) :
    pulled (left ++ right) = pulled left ++ pulled right :=
  List.filterMap_append

@[simp] theorem atSink_append (left right : History) :
    atSink (left ++ right) = atSink left ++ atSink right :=
  List.filter_append ..

attribute [simp] Act.taken? Act.offered? Act.pulled? Act.isAtSink
attribute [simp] taken_cons offered_cons pulled_cons atSink_cons

/-- What a sink took is told by its transcript. -/
@[simp] theorem taken_atSink (history : History) : history.atSink.taken = history.taken := by
  induction history with
  | nil => rfl
  | cons act rest inductionHypothesis => cases act <;> simp [inductionHypothesis]

/-- What a sink was offered is told by its transcript. -/
@[simp] theorem offered_atSink (history : History) :
    history.atSink.offered = history.offered := by
  induction history with
  | nil => rfl
  | cons act rest inductionHypothesis => cases act <;> simp [inductionHypothesis]

/-- Where the sink's part of a history is cut, the history can be cut. -/
theorem exists_cut {history before after : History} {act : Act}
    (parts : history.atSink = before ++ act :: after) :
    ∃ earlier later : History, history = earlier ++ act :: later ∧ earlier.atSink = before ∧
      later.atSink = after := by
  obtain ⟨first, others, rfl, rfl, rest⟩ := List.filter_eq_append_iff.mp parts
  obtain ⟨between, later, rfl, pulls, -, rfl⟩ := List.filter_eq_cons_iff.mp rest
  refine ⟨first ++ between, later, by simp, ?_, rfl⟩
  have none : between.filter Act.isAtSink = [] := List.filter_eq_nil_iff.mpr pulls
  simp [atSink, none]

/-- Every act of a history stands in some relation to the acts before it. -/
def Each (fits : History -> Act -> Prop) (history : History) : Prop :=
  ∀ before act after, history = before ++ act :: after -> fits before act

/-- A history goes on by an act that fits. -/
theorem Each.concat {fits : History -> Act -> Prop} {history : History} {act : Act}
    (each : history.Each fits) (next : fits history act) : Each fits (history ++ [act]) := by
  intro before act' after parts
  rcases List.eq_nil_or_concat after with rfl | ⟨others, last, rfl⟩
  · obtain ⟨rfl, same⟩ := List.append_inj' parts rfl
    cases same
    exact next
  · rw [List.concat_eq_append, ← List.cons_append, ← List.append_assoc] at parts
    exact each before act' others (List.append_inj' parts rfl).1

end History

namespace Sink

variable {State : Type}

/-- A sink that also keeps its transcript. -/
def recorded (sink : Sink State) : Sink (State × History) where
  write octets state :=
    let answer := sink.write octets state.1
    (answer.1, answer.2, state.2 ++ [.write octets answer.1])
  isClosed state :=
    let answer := sink.isClosed state.1
    (answer.1, answer.2, state.2 ++ [.poll answer.1])
  close state := (sink.close state.1, state.2 ++ [.close])

end Sink

end AuditTrail
