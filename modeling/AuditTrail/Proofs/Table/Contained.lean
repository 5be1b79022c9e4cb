import AuditTrail.FaultKind
import AuditTrail.Proofs.Calendar.Shown
import AuditTrail.Proofs.Table.Row

/-!
# Events without a row

An event without a row should be refused with a fault of the mapping, which tells what it lacks or
that its subject is not in the tree. There is one exception: an event that lacks nothing, whose time
is out of the calendar on the clock that is to show it. `row_contained_iff` says that there is no
other one, and so none at all where times are shown as ages.
-/

namespace AuditTrail

/-! ## Faults of the labels -/

/-- A fault of the mapping, which may be that the subject is not in the tree. -/
def RowFault.IsOfMapping (fault : RowFault) : Prop :=
  fault.kind = .mapping ∨ fault.kind = .resolution

/-- An event without an actor to show is refused with a fault of the mapping. -/
theorem Event.kind_of_actorLabel {event : Event} {fault : RowFault}
    (refused : event.actorLabel = .error fault) : fault.kind = .mapping := by
  unfold actorLabel at refused
  repeat' split at refused
  all_goals cases refused
  all_goals rfl

/-- A path that is not found is a fault of the mapping. -/
theorem Subject.isOfMapping_of_found {subject : Subject} {path : Option Text} {fault : RowFault}
    (refused : subject.found path = .error fault) : fault.IsOfMapping := by
  cases path with
  | none =>
      cases refused
      exact .inr rfl
  | some path => cases refused

/-- A subject without a label is refused with a fault of the mapping. -/
theorem Subject.isOfMapping_of_label {tree : Tree} {subject : Subject} {fault : RowFault}
    (refused : subject.label tree = .error fault) : fault.IsOfMapping := by
  unfold label at refused
  repeat' split at refused
  all_goals first
    | exact isOfMapping_of_found refused
    | cases refused
  all_goals exact .inl rfl

/-- An event without a subject to show is refused with a fault of the mapping. -/
theorem Event.isOfMapping_of_subjectLabel {tree : Tree} {event : Event} {fault : RowFault}
    (refused : event.subjectLabel tree = .error fault) : fault.IsOfMapping := by
  unfold subjectLabel at refused
  split at refused
  next =>
    cases refused
    exact .inl rfl
  next subject _ => exact subject.isOfMapping_of_label refused

namespace Table

/-- The cells in the middle of the shown tables are refused with a fault of the mapping. -/
theorem isOfMapping_of_middle {tree : Option Tree} {format : Calendar.TimeFormat} {event : Event}
    {fault : RowFault} (refused : (ofTree? tree format).middle event = .error fault) :
    fault.IsOfMapping := by
  cases tree with
  | none => cases refused
  | some tree => exact event.isOfMapping_of_subjectLabel (middle_eq_error_iff.mp refused)

/-- In a style there is no date if the event has no time, or has one that cannot be shown. -/
theorem dateLabel_eq_error_iff {style : Calendar.TimeStyle} {event : Event} {fault : RowFault} :
    dateLabel style event = .error fault ↔
      (event.time = none ∧ fault = .noTime event.title) ∨
      ∃ time, event.time = some time ∧ ¬style.CanShow time ∧ fault = .unshownTime .outOfRange := by
  unfold dateLabel
  cases event.time with
  | none => simp [eq_comm]
  | some time =>
      cases shown : style.text time with
      | ok text =>
          have canShow : style.CanShow time := Calendar.TimeStyle.exists_text_iff.mp ⟨text, shown⟩
          simp [shown, Except.mapError, canShow]
      | error other =>
          obtain ⟨rfl, cannot⟩ := Calendar.TimeStyle.text_eq_error_iff.mp shown
          simp [shown, Except.mapError, cannot, eq_comm]

/-- What keeps an event from having a row: the first of its labels that is missing. -/
theorem row_eq_error_iff {table : Table} {event : Event} {fault : RowFault} :
    table.row event = .error fault ↔
      event.actorLabel = .error fault ∨
      ∃ actor, event.actorLabel = .ok actor ∧
        (table.middle event = .error fault ∨
        ∃ middle, table.middle event = .ok middle ∧
          dateLabel table.timeFormat event = .error fault) := by
  unfold row
  cases event.actorLabel with
  | error other => simp [bind, Except.bind]
  | ok actor =>
      cases table.middle event with
      | error other => simp [bind, Except.bind]
      | ok middle =>
          cases dateLabel table.timeFormat event <;>
            simp [bind, Except.bind, pure, Except.pure]

/-- What should become of an event: a cell for each column, or a fault of the mapping. -/
def IsContained (table : Table) : Except RowFault (List Text) -> Prop
  | .ok cells => cells.length = table.columns.length
  | .error fault => fault.IsOfMapping

/-- The event has an actor, a cell in the middle if there is to be one, and a time, but the time
cannot be shown in a style. -/
def LosesTime (table : Table) (style : Calendar.TimeStyle) (event : Event) : Prop :=
  ∃ actor middle time, event.actorLabel = .ok actor ∧ table.middle event = .ok middle ∧
    event.time = some time ∧ ¬style.CanShow time

/-- An event that lacks nothing but a time that can be shown is refused as out of range. -/
theorem LosesTime.row_eq {tree : Option Tree} {style : Calendar.TimeStyle} {event : Event}
    (loses : (ofTree? tree style).LosesTime style event) :
    (ofTree? tree style).row event = .error (.unshownTime .outOfRange) := by
  obtain ⟨actor, middle, time, hasActor, hasMiddle, hasTime, cannot⟩ := loses
  refine row_eq_error_iff.mpr (.inr ⟨actor, hasActor, .inr ⟨middle, hasMiddle, ?_⟩⟩)
  rw [timeFormat_ofTree?]
  exact dateLabel_eq_error_iff.mpr (.inr ⟨time, hasTime, cannot, rfl⟩)

/-- A shown table refuses an event with a fault of the mapping, or because its time is lost. -/
theorem isOfMapping_or_losesTime {tree : Option Tree} {style : Calendar.TimeStyle} {event : Event}
    {fault : RowFault} (refused : (ofTree? tree style).row event = .error fault) :
    fault.IsOfMapping ∨ (ofTree? tree style).LosesTime style event := by
  rcases row_eq_error_iff.mp refused with
    noActor | ⟨actor, hasActor, noMiddle | ⟨middle, hasMiddle, noDate⟩⟩
  · exact .inl (.inl (event.kind_of_actorLabel noActor))
  · exact .inl (isOfMapping_of_middle noMiddle)
  · rw [timeFormat_ofTree?] at noDate
    rcases dateLabel_eq_error_iff.mp noDate with ⟨-, rfl⟩ | ⟨time, hasTime, cannot, -⟩
    · exact .inl (.inl rfl)
    · exact .inr ⟨actor, middle, time, hasActor, hasMiddle, hasTime, cannot⟩

/-- That a time is out of range is no fault of the mapping. -/
theorem not_isOfMapping_outOfRange : ¬(RowFault.unshownTime .outOfRange).IsOfMapping := by
  rintro (ofMapping | ofResolution)
  · cases ofMapping
  · cases ofResolution

/-- The record of an event is mapped to a cell for each column, or refused with a fault of the
mapping, unless its time is out of the range of the clock; then this is the fault. -/
theorem row_contained_iff (tree : Option Tree) (style : Calendar.TimeStyle)
    (members : Register Json) :
    let table := ofTree? tree style
    let event := Event.ofMembers members
    (table.IsContained (table.row event) ↔ ¬table.LosesTime style event) ∧
      (table.row event = .error (.unshownTime .outOfRange) ↔ table.LosesTime style event) ∧
      (RowFault.unshownTime .outOfRange).kind = .overflow := by
  intro table event
  refine ⟨⟨fun contained loses => ?_, fun keeps => ?_⟩, ⟨fun refused => ?_, LosesTime.row_eq⟩, rfl⟩
  · rw [loses.row_eq] at contained
    exact not_isOfMapping_outOfRange contained
  · cases mapped : table.row event with
    | ok cells => exact length_row mapped
    | error fault => exact (isOfMapping_or_losesTime mapped).resolve_right keeps
  · exact (isOfMapping_or_losesTime refused).resolve_left not_isOfMapping_outOfRange

/-- The first moment of the year 1 on a clock that is ahead of universal time, which was then still
in the year before. -/
theorem row_lost_before_calendar :
    let members : Register Json :=
      [("event_id", .text "1"), ("action", .text "read"), ("ip_address", .text "10.0.0.1"),
        ("logged_at", .text "0001-01-01T00:00:00+01:00"),
        ("actor", .object [("type", .text "user"), ("username", .text "alice")])]
    let table := ofSecret (.clock .utc)
    table.row (Event.ofMembers members) = .error (.unshownTime .outOfRange) ∧
      ¬table.IsContained (table.row (Event.ofMembers members)) := by
  intro members table
  have lost : table.row (Event.ofMembers members) = .error (.unshownTime .outOfRange) := by rfl
  refine ⟨lost, ?_⟩
  rw [lost]
  exact not_isOfMapping_outOfRange

end Table

end AuditTrail
