import AuditTrail.Event
import AuditTrail.Proofs.Calendar.Reading

/-!
# Timestamps are read back

A timestamp that is written to the second is read as the timestamp of the same clock at the
beginning of this second, if the offset of the clock is a whole number of seconds:
`timestamp?_textToSecond`. A time that is shown on such a clock is therefore known to the second
from what is shown. An offset with a fraction of a second is written in full and not looked at here.
-/

namespace AuditTrail.Calendar

/-- The offset is a whole number of seconds. -/
def Offset.IsWhole (offset : Offset) : Prop := offset.ahead % second = 0

namespace Iso8601

open Text (padded)

/-! ## Offsets -/

/-- The sign of an offset. -/
def sign (offset : Offset) : CodePoint := if offset.ahead < 0 then .ofChar '-' else .ofChar '+'

/-- An offset as a time of day. -/
def clockOf (offset : Offset) : Clock :=
  ⟨offset.ahead.natAbs / hour, offset.ahead.natAbs / minute % 60,
    offset.ahead.natAbs / second % 60, 0⟩

/-- The parts of an offset of whole seconds are all of it. -/
theorem total_clockOf {offset : Offset} (whole : offset.IsWhole) :
    (clockOf offset).total = offset.ahead.natAbs := by
  simp only [Offset.IsWhole, clockOf, Clock.total, hour, minute, second] at *
  omega

/-- An offset of whole seconds is written as its sign and a time. The seconds are left out if there
are none. -/
theorem exists_text_eq {offset : Offset} (whole : offset.IsWhole) :
    ∃ time, offset.text = sign offset :: time ∧ IsClock time (clockOf offset) := by
  have micros : offset.ahead.natAbs % second = 0 := by
    simp only [Offset.IsWhole, second] at *
    omega
  have hours : offset.ahead.natAbs / hour < 100 := by
    have within := offset.withinDay
    simp only [day, hour, minute, second] at *
    omega
  have signed : (if offset.ahead < 0 then ("-" : Text) else "+") = [sign offset] := by
    unfold sign
    split <;> rfl
  have minutes : offset.ahead.natAbs / minute % 60 < 100 := by omega
  have seconds : offset.ahead.natAbs / second % 60 < 100 := by omega
  unfold Offset.text clockOf
  simp only [micros, and_true, if_true, signed]
  by_cases none : offset.ahead.natAbs / second % 60 = 0
  · rw [none]
    refine ⟨_, ?_, .minutes true hours minutes⟩
    simp [Text.ofString, optional]
  · refine ⟨_, ?_, .seconds true hours minutes seconds⟩
    simp [none, Text.ofString, optional]

/-- What is written of an offset of whole seconds spells it. -/
theorem isOffset_text {offset : Offset} (whole : offset.IsWhole) :
    IsOffset offset.text offset.ahead := by
  obtain ⟨time, written, spelt⟩ := exists_text_eq whole
  have total := total_clockOf whole
  have short : (clockOf offset).total < day := total.trans_lt offset.withinDay
  have counted : fromSecondOn (clockOf offset).total = offset.ahead.natAbs := by
    rw [total]
    simp only [fromSecondOn, Offset.IsWhole, second] at *
    omega
  rw [written]
  unfold sign
  by_cases behind : offset.ahead < 0
  · have spelling := IsOffset.behind spelt short
    rw [if_pos behind]
    rwa [counted, show -(offset.ahead.natAbs : Int) = offset.ahead by omega] at spelling
  · have spelling := IsOffset.ahead spelt short
    rw [if_neg behind]
    rwa [counted, show (offset.ahead.natAbs : Int) = offset.ahead by omega] at spelling

/-! ## Timestamps -/

/-- The parts of a reading are all of it but what is less than a second. -/
theorem total_reading (wall : Nat) :
    wall / day * day +
        (Clock.mk (wall % day / hour) (wall / minute % 60) (wall / second % 60) 0).total =
      wall / second * second := by
  simp only [Clock.total, day, hour, minute, second]
  omega

/-- What is written of a timestamp: the date, a `T`, the time and the offset. -/
theorem textToSecond_eq (t : Timestamp) :
    t.textToSecond =
      (padded 4 t.date.year ++ (optional '-' true ++
        (padded 2 t.date.month ++ (optional '-' true ++ padded 2 t.date.day)))) ++
      CodePoint.ofChar 'T' ::
      ((padded 2 (t.wall % day / hour) ++ (optional ':' true ++
        (padded 2 (t.wall / minute % 60) ++ (optional ':' true ++
          padded 2 (t.wall / second % 60))))) ++ t.offset.text) := by
  simp [Timestamp.textToSecond, Timestamp.readingText, Text.ofString, optional]

/-- What is written of a timestamp spells the beginning of its second. -/
theorem spells_textToSecond {t : Timestamp} (whole : t.offset.IsWhole) :
    Spells t.textToSecond (t.wall / second * second) t.offset.ahead := by
  have within : t.wall / day < daySpan := (Nat.div_lt_iff_lt_mul (by decide)).mpr t.wall_lt
  have valid : t.date.isValid = true := Date.isValid_ofDayNumber within
  have hours : t.wall % day / hour < 24 := by
    simp only [day, hour, minute, second]
    omega
  have timed := IsClock.seconds true (show t.wall % day / hour < 100 by omega)
    (show t.wall / minute % 60 < 100 by omega) (show t.wall / second % 60 < 100 by omega)
  have ofDay : (Clock.mk (t.wall % day / hour) (t.wall / minute % 60) (t.wall / second % 60)
      0).isTimeOfDay = true := by
    simp [Clock.isTimeOfDay, hours, Nat.mod_lt]
  have date : t.date.dayNumber = t.wall / day := Date.dayNumber_ofDayNumber _
  rw [textToSecond_eq, ← total_reading, ← date]
  exact .dateAndTime (.monthAndDay t.date valid) (fun _ byWeek => by cases byWeek) timed ofDay
    (isOffset_text whole)

/-- A timestamp that is written to the second is read as the one at the beginning of the second. -/
theorem timestamp?_textToSecond {t : Timestamp} (whole : t.offset.IsWhole) :
    ∃ read, timestamp? t.textToSecond = some read ∧ read.offset = t.offset ∧
      read.wall = t.wall / second * second := by
  have low : t.wall / second * second < span :=
    (Nat.div_mul_le_self t.wall second).trans_lt t.wall_lt
  exact ⟨⟨t.wall / second * second, t.offset, low⟩,
    timestamp?_eq_some_iff.mpr (spells_textToSecond whole), rfl, rfl⟩

end Iso8601

/-- What is shown of a time on a clock of whole seconds is read as a time of this clock, and as the
instant that was shown, rounded down to a whole second. -/
theorem TimeStyle.text_readBack {zone : Offset} {t : Timestamp} {shown : Text}
    (whole : zone.IsWhole) (shows : (TimeStyle.clock zone).text t = .ok shown) :
    ∃ read, Event.timeOf? (.text shown) = some read ∧ read.offset = zone ∧
      read.instant = t.instant / second * second := by
  obtain ⟨reading, inZone, rfl⟩ := TimeStyle.clock_text_eq_ok_iff.mp shows
  obtain ⟨-, wall, rfl⟩ := Timestamp.inZone_eq_ok_iff.mp inZone
  obtain ⟨read, isRead, offset, toSecond⟩ := Iso8601.timestamp?_textToSecond whole
  refine ⟨read, by rw [Event.timeOf?, Json.text?, Option.bind_some, isRead], offset, ?_⟩
  -- A clock of whole seconds begins its seconds when universal time does.
  have instant : t.instant = reading.wall - reading.offset.ahead := by omega
  rw [Timestamp.instant, offset, toSecond, instant]
  simp only [Offset.IsWhole, second] at *
  omega

/-- A quarter of a second after half past eleven in the evening of a leap day, on a clock that is in
March already and whose offset has seconds. -/
theorem TimeStyle.text_readBack_leapDay :
    let zone : Offset := ⟨5 * hour + 30 * minute + 7 * second, by decide⟩
    let t : Timestamp := ⟨738944 * day + 23 * hour + 30 * minute + 250000, .utc, by decide⟩
    t.text = "2024-02-29T23:30:00.250000+00:00" ∧
      (TimeStyle.clock zone).text t = .ok "2024-03-01T05:00:07+05:30:07" ∧
      ∃ read, Event.timeOf? (.text "2024-03-01T05:00:07+05:30:07") = some read ∧
        read.offset = zone ∧ read.instant = t.instant / second * second := by
  intro zone t
  have shows : (TimeStyle.clock zone).text t = .ok "2024-03-01T05:00:07+05:30:07" := by
    decide +kernel
  have whole : zone.IsWhole := by
    unfold Offset.IsWhole
    decide
  exact ⟨by decide +kernel, shows, TimeStyle.text_readBack whole shows⟩

end AuditTrail.Calendar
