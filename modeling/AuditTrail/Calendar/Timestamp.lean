import AuditTrail.Calendar.Date
import AuditTrail.Text.Basic

/-!
# Timestamps

A timestamp is a wall clock reading to the microsecond together with the offset of that
clock from universal time. Its instant is the reading less the offset. A reading lies in
the years 1 to 9999 and an offset is shorter than a day.
-/

namespace AuditTrail.Calendar

/-- Microseconds of a second. -/
def second : Nat := 1000000

/-- Microseconds of a minute. -/
def minute : Nat := 60 * second

/-- Microseconds of an hour. -/
def hour : Nat := 60 * minute

/-- Microseconds of a day. -/
def day : Nat := 24 * hour

/-- Microseconds that the calendar covers. -/
def span : Nat := daySpan * day

/-- How far a wall clock is ahead of universal time, in microseconds. -/
structure Offset where
  ahead : Int
  withinDay : ahead.natAbs < day
deriving DecidableEq

/-- A wall clock reading, in microseconds after the beginning of the year 1, and the offset
of the clock. -/
structure Timestamp where
  wall : Nat
  offset : Offset
  wall_lt : wall < span
deriving DecidableEq

/-- Why a timestamp cannot be shown. -/
inductive Fault where
  /-- A wall clock reading outside the years 1 to 9999. -/
  | outOfRange
  /-- An infinite number of seconds. -/
  | infinite
  /-- A number of seconds that is no number. -/
  | notANumber
  /-- A whole number of seconds that no fraction can come near. -/
  | tooLarge
  /-- A format of one's own refuses, and says why. -/
  | refused (reason : Text)
deriving DecidableEq, Repr

/-- What is said of the fault. -/
def Fault.message : Fault -> Text
  | .outOfRange => "date value out of range"
  | .infinite => "cannot convert float infinity to integer"
  | .notANumber => "cannot convert float NaN to integer"
  | .tooLarge => "integer division result too large for a float"
  | .refused reason => reason

namespace Offset

/-- The offset of universal time. -/
def utc : Offset := ⟨0, by decide⟩

/-- The offset of a number of microseconds, if it is shorter than a day. -/
def ofMicroseconds? (ahead : Int) : Option Offset :=
  if within : ahead.natAbs < day then some ⟨ahead, within⟩ else none

/-- Hours, minutes and, where they are not zero, seconds and microseconds. -/
def text (offset : Offset) : Text :=
  let magnitude := offset.ahead.natAbs
  let seconds := magnitude / second % 60
  let micros := magnitude % second
  (if offset.ahead < 0 then ("-" : Text) else "+")
    ++ Text.padded 2 (magnitude / hour) ++ ":" ++ Text.padded 2 (magnitude / minute % 60)
    ++ (if seconds = 0 ∧ micros = 0 then ([] : Text) else ":" ++ Text.padded 2 seconds)
    ++ (if micros = 0 then ([] : Text) else "." ++ Text.padded 6 micros)

end Offset

namespace Timestamp

/-- A wall clock reading, if it lies in the years 1 to 9999. -/
def ofWall? (wall : Int) (offset : Offset) : Option Timestamp :=
  if within : 0 ≤ wall ∧ wall.toNat < span then some ⟨wall.toNat, offset, within.2⟩ else none

/-- The moment that is meant, in microseconds of universal time. -/
def instant (t : Timestamp) : Int := t.wall - t.offset.ahead

/-- The same instant on a clock with another offset. Universal time must be within the
calendar as well. -/
def inZone (zone : Offset) (t : Timestamp) : Except Fault Timestamp :=
  match ofWall? t.instant Offset.utc with
  | none => .error .outOfRange
  | some universal =>
    match ofWall? (universal.wall + zone.ahead) zone with
    | none => .error .outOfRange
    | some local' => .ok local'

/-- The date of the reading. -/
def date (t : Timestamp) : Date := Date.ofDayNumber (t.wall / day)

/-- Date and time to the second, with a `T` between them. -/
def readingText (t : Timestamp) : Text :=
  Text.padded 4 t.date.year ++ "-" ++ Text.padded 2 t.date.month ++ "-"
    ++ Text.padded 2 t.date.day ++ "T" ++ Text.padded 2 (t.wall % day / hour) ++ ":"
    ++ Text.padded 2 (t.wall / minute % 60) ++ ":" ++ Text.padded 2 (t.wall / second % 60)

/-- The timestamp to the second. -/
def textToSecond (t : Timestamp) : Text := t.readingText ++ t.offset.text

/-- The timestamp in full; microseconds are left out when there are none. -/
def text (t : Timestamp) : Text :=
  t.readingText
    ++ (if t.wall % second = 0 then ([] : Text) else "." ++ Text.padded 6 (t.wall % second))
    ++ t.offset.text

end Timestamp

end AuditTrail.Calendar
