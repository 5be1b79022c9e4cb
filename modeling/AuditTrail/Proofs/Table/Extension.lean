import AuditTrail.Proofs.Json.Labels
import AuditTrail.Proofs.Table.Contained
import Mathlib.Data.List.InsertIdx

/-!
# The table of a repository and the table of a secret

The table of a repository has the rows of the table of a secret with one cell more, and it has one
for exactly those events whose subject can be shown besides: `repository_extends_secret`. With ages
for dates it is told from the record alone whether there is a row: it takes an account with a name
and a timestamp that can be read, and nothing else in the record can do harm.
-/

namespace AuditTrail

/-! ## Accounts in a record -/

/-- A value names an account: a user with a name, or a service with an id, which may be of any kind
as long as it says something. -/
def Json.NamesAccount (value : Json) : Prop :=
  ∃ members, value = .object members ∧
    ((Json.member "type" members = .text "user" ∧
        (Json.member "username" members).isVacant = false) ∨
      (Json.member "type" members = .text "service" ∧
        (Json.member "service_id" members).isVacant = false))

/-- A label that is a word of the format is the word itself in the record. -/
theorem Json.label_eq_kind_iff {value : Json} :
    (value.label = "user" ↔ value = .text "user") ∧
      (value.label = "service" ↔ value = .text "service") := by
  have user : ¬(CodePoint.ofChar 'u').OpensSpelling := by decide
  have service : ¬(CodePoint.ofChar 's').OpensSpelling := by decide
  exact ⟨label_eq_cons_iff user, label_eq_cons_iff service⟩

/-- A label that shows something comes from a value that says something. -/
theorem Json.label_ne_nil_iff {value : Json} : value.label ≠ [] ↔ value.isVacant = false := by
  rw [ne_eq, label_eq_nil_iff, Bool.not_eq_true]

/-- An event has an actor to show exactly if it has a user with a name or a service with an id. -/
theorem Event.exists_actorLabel_iff {event : Event} :
    (∃ label, event.actorLabel = .ok label) ↔
      ∃ actor, event.actor = some actor ∧
        ((actor.kind = "user" ∧ actor.username ≠ []) ∨
          (actor.kind = "service" ∧ actor.serviceId ≠ [])) := by
  unfold actorLabel
  cases event.actor with
  | none => simp
  | some actor =>
      simp only [Option.some.injEq, exists_eq_left']
      split
      next isUser => simp [isUser]
      next notUser =>
        split
        next isService => simp [isService]
        next notService => simp [notUser, notService]

/-- The event of a record has an actor to show exactly if the record names an account. -/
theorem Event.exists_actorLabel_ofMembers_iff {members : Register Json} :
    (∃ label, (Event.ofMembers members).actorLabel = .ok label) ↔
      (Json.member "actor" members).NamesAccount := by
  rw [exists_actorLabel_iff]
  simp only [ofMembers, Json.NamesAccount]
  cases Json.member "actor" members with
  | object parts =>
      simp only [Json.members?, Option.map_some, Option.some.injEq, exists_eq_left',
        Json.object.injEq, Actor.ofMembers, Json.labelOf, Json.label_eq_kind_iff,
        Json.label_ne_nil_iff]
  | null | bool | int | real | text | array => simp [Json.members?]

/-- The event of a record has a time exactly if a text in the record spells one. -/
theorem Event.exists_time_iff {members : Register Json} :
    (∃ time, (Event.ofMembers members).time = some time) ↔
      ∃ t time, Json.member "logged_at" members = .text t ∧
        Calendar.Iso8601.timestamp? t = some time := by
  simp only [ofMembers, timeOf?]
  cases Json.member "logged_at" members <;> simp [Json.text?]

namespace Table

/-! ## Rows -/

/-- In a style there is a date exactly if there is a time that can be shown. -/
theorem exists_dateLabel_iff {style : Calendar.TimeStyle} {event : Event} :
    (∃ date, dateLabel style event = .ok date) ↔
      ∃ time, event.time = some time ∧ style.CanShow time := by
  unfold dateLabel
  cases event.time with
  | none => simp
  | some time =>
      simp only [Option.some.injEq, exists_eq_left', Calendar.TimeFormat.text_ofStyle]
      rw [← Calendar.TimeStyle.exists_text_iff]
      cases style.text time <;> simp [Except.mapError]

/-- The parts of a row in the table of a secret. -/
theorem row_ofSecret_eq_ok_iff {format : Calendar.TimeFormat} {event : Event}
    {cells : List Text} :
    (ofSecret format).row event = .ok cells ↔
      ∃ actor date, event.actorLabel = .ok actor ∧ dateLabel format event = .ok date ∧
        cells = [actor, event.actionLabel, event.address, date] := by
  rw [row_eq_ok]
  simp [ofSecret, middle]

/-- A row in the table of a repository is a row in the table of a secret with the label of the
subject in its middle. -/
theorem row_ofRepository_eq_ok_iff {tree : Tree} {format : Calendar.TimeFormat} {event : Event}
    {cells : List Text} :
    (ofRepository tree format).row event = .ok cells ↔
      ∃ others label, (ofSecret format).row event = .ok others ∧
        event.subjectLabel tree = .ok label ∧ cells = others.insertIdx 2 label := by
  rw [row_eq_ok]
  simp only [row_ofSecret_eq_ok_iff]
  constructor
  · rintro ⟨actor, middle, date, hasActor, hasMiddle, hasDate, rfl⟩
    obtain ⟨label, hasLabel, rfl⟩ := middle_eq_ok_iff.mp hasMiddle
    exact ⟨_, label, ⟨actor, date, hasActor, hasDate, rfl⟩, hasLabel, rfl⟩
  · rintro ⟨_, label, ⟨actor, date, hasActor, hasDate, rfl⟩, hasLabel, rfl⟩
    have hasMiddle : (ofRepository tree format).middle event = .ok [label] :=
      middle_eq_ok_iff.mpr ⟨label, hasLabel, rfl⟩
    exact ⟨actor, [label], date, hasActor, hasMiddle, hasDate, rfl⟩

/-- The record has what a row of the table of a secret takes: an account and a time. -/
def IsShowable (members : Register Json) : Prop :=
  (Json.member "actor" members).NamesAccount ∧
    ∃ t time, Json.member "logged_at" members = .text t ∧ Calendar.Iso8601.timestamp? t = some time

/-- With ages, the table of a secret has a row exactly for the records that name an account and a
time. -/
theorem exists_row_ofSecret_iff {now : Calendar.Present} {members : Register Json} :
    (∃ cells, (ofSecret (.ages now)).row (Event.ofMembers members) = .ok cells) ↔
      IsShowable members := by
  have dated : (∃ date, dateLabel (.ages now) (Event.ofMembers members) = .ok date) ↔
      ∃ time, (Event.ofMembers members).time = some time := by
    have inStyle : (∃ date, dateLabel (.ages now) (Event.ofMembers members) = .ok date) ↔
        ∃ time, (Event.ofMembers members).time = some time ∧
          (Calendar.TimeStyle.age (now.time 0)).CanShow time := exists_dateLabel_iff
    simpa [Calendar.TimeStyle.CanShow] using inStyle
  rw [IsShowable, ← Event.exists_actorLabel_ofMembers_iff, ← Event.exists_time_iff, ← dated]
  simp only [row_ofSecret_eq_ok_iff]
  constructor
  · rintro ⟨cells, actor, date, hasActor, hasDate, -⟩
    exact ⟨⟨actor, hasActor⟩, ⟨date, hasDate⟩⟩
  · rintro ⟨⟨actor, hasActor⟩, ⟨date, hasDate⟩⟩
    exact ⟨_, actor, date, hasActor, hasDate, rfl⟩

/-- With ages, the table of a secret refuses events with a fault of the mapping only. -/
theorem kind_of_row_ofSecret {now : Calendar.Present} {event : Event} {fault : RowFault}
    (refused : (ofSecret (.ages now)).row event = .error fault) : fault.kind = .mapping := by
  rcases row_eq_error_iff.mp refused with
    noActor | ⟨actor, -, noMiddle | ⟨middle, -, noDate⟩⟩
  · exact event.kind_of_actorLabel noActor
  · cases noMiddle
  · have inStyle : dateLabel (Calendar.TimeStyle.age (now.time 0)) event = .error fault := noDate
    rcases dateLabel_eq_error_iff.mp inStyle with ⟨-, rfl⟩ | ⟨time, -, cannot, -⟩
    · rfl
    · exact absurd trivial cannot

/-- In every format of times, the table of a repository has the rows, the columns and the names of
the table of a secret with one more in the middle; a row for every event that has one there and
whose subject has a label. With ages, the table of a secret has a row exactly for the records that
name an account and a time, and refuses every other record with a fault of the mapping. -/
theorem repository_extends_secret (tree : Tree) (members : Register Json) :
    let event := Event.ofMembers members
    (∀ format cells, (ofRepository tree format).row event = .ok cells ↔
      ∃ others label, (ofSecret format).row event = .ok others ∧
        event.subjectLabel tree = .ok label ∧ cells = others.insertIdx 2 label) ∧
    (∀ format,
      (ofRepository tree format).columns = (ofSecret format).columns.insertIdx 2 .subject ∧
      (ofRepository tree format).header =
        (ofSecret format).header.insertIdx 2 Column.subject.name) ∧
    ∀ now, match (ofSecret (.ages now)).row event with
      | .ok _ => IsShowable members
      | .error fault => ¬IsShowable members ∧ fault.kind = .mapping := by
  intro event
  refine ⟨fun format cells => row_ofRepository_eq_ok_iff, fun format => ⟨rfl, rfl⟩, fun now => ?_⟩
  cases mapped : (ofSecret (.ages now)).row event with
  | ok cells => exact exists_row_ofSecret_iff.mp ⟨cells, mapped⟩
  | error fault =>
      refine ⟨fun showable => ?_, kind_of_row_ofSecret mapped⟩
      obtain ⟨cells, other⟩ := exists_row_ofSecret_iff.mpr showable
      rw [mapped] at other
      cases other

end Table

end AuditTrail
