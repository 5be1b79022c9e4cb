import AuditTrail.Calendar.Timestamp
import AuditTrail.Number.Binary64

/-!
# Ages

How long ago something happened, in words that name one unit. Seconds and minutes are cut
off, hours are rounded, and days, weeks, months of thirty days and years of 365 days are
cut off from the hours.

Times may be shown in other ways than as ages. A format says of every time how it is shown, and
may say something else when it is asked again, as ages do while time passes.
-/

namespace AuditTrail.Calendar

/-- A number of seconds, whole or with a fraction. -/
inductive Duration where
  | whole (seconds : Int)
  | fractional (seconds : Binary64)
deriving DecidableEq, Repr

/-- A duration in each of the units that the words are chosen by. -/
structure Age where
  seconds : Nat
  minutes : Nat
  hours : Nat
deriving DecidableEq, Repr

namespace Duration

/-- The whole part of a number that is not negative. -/
def wholePart (seconds : Binary64) : Except Fault Nat :=
  match seconds with
  | .nan => .error .notANumber
  | .infinite _ => .error .infinite
  | finite => .ok (finite.truncated?.getD 0).toNat

/-- The age of a number of seconds that is not negative. -/
def ageOfFraction (seconds : Binary64) : Except Fault Age := do
  let whole ← wholePart seconds
  let minutes ← wholePart (seconds.dividedBy 60)
  let hours ← wholePart (seconds.dividedBy 3600).plusHalf
  return ⟨whole, minutes, hours⟩

/-- The age of a whole number of seconds. -/
def ageOfWhole (seconds : Nat) : Except Fault Age :=
  match Binary64.ofRatio false seconds 60 with
  | .infinite _ => .error .tooLarge
  | inMinutes => do
    let minutes ← wholePart inMinutes
    let hours ← wholePart (Binary64.ofRatio false seconds 3600).plusHalf
    return ⟨seconds, minutes, hours⟩

/-- The age that a duration amounts to; a negative duration counts as none. -/
def age : Duration -> Except Fault Age
  | .whole seconds => ageOfWhole seconds.toNat
  | .fractional seconds => if seconds.isNegative then ageOfWhole 0 else ageOfFraction seconds

end Duration

namespace Age

/-- A count with its unit. -/
def counted (count : Nat) (unit : Text) : Text := Text.ofNat count ++ " " ++ unit

/-- The words for an age. -/
def words (age : Age) : Text :=
  if age.seconds < 1 then "Less than a second"
  else if age.seconds = 1 then "1 second"
  else if age.seconds < 60 then counted age.seconds "seconds"
  else if age.minutes = 1 then "About a minute"
  else if age.minutes < 60 then counted age.minutes "minutes"
  else if age.hours = 1 then "About an hour"
  else if age.hours < 48 then counted age.hours "hours"
  else if age.hours < 24 * 7 * 2 then counted (age.hours / 24) "days"
  else if age.hours < 24 * 30 * 2 then counted (age.hours / 24 / 7) "weeks"
  else if age.hours < 24 * 365 * 2 then counted (age.hours / 24 / 30) "months"
  else counted (age.hours / 24 / 365) "years"

end Age

/-- The words for a duration. -/
def Duration.words (duration : Duration) : Except Fault Text := duration.age.map Age.words

/-- The seconds from one instant to another, both in microseconds. -/
def secondsBetween (earlier later : Int) : Duration :=
  let micros := later - earlier
  .fractional (Binary64.ofRatio (micros < 0) micros.natAbs second)

/-- How the time of an event is shown. -/
inductive TimeStyle where
  /-- As a timestamp to the second on a clock with this offset. -/
  | clock (zone : Offset)
  /-- As an age at this time. -/
  | age (now : Timestamp)
deriving DecidableEq

/-- The text of a time in a style. -/
def TimeStyle.text (style : TimeStyle) (t : Timestamp) : Except Fault Text :=
  match style with
  | .clock zone => (t.inZone zone).map Timestamp.textToSecond
  | .age now => (secondsBetween t.instant now.instant).words.map (· ++ " ago")

/-- A zone: the offset of its clock at every moment, which may change in the course of a year. -/
structure Zone where
  offset : Timestamp -> Offset

instance : Coe Offset Zone := ⟨fun offset => ⟨fun _ => offset⟩⟩

/-- The present: the time at which it is asked for, for each time that it is. -/
structure Present where
  time : (asked : Nat) -> Timestamp

instance : Coe Timestamp Present := ⟨fun now => ⟨fun _ => now⟩⟩

/-- A format of times: what it shows for a time after it has been asked so often before. -/
structure TimeFormat where
  text : (asked : Nat) -> Timestamp -> Except Fault Text

namespace TimeFormat

/-- The format as it goes on when it has been asked so often. -/
def behind (asked : Nat) (format : TimeFormat) : TimeFormat :=
  ⟨fun others => format.text (others + asked)⟩

/-- The format of a style, which shows every time alike however often it is asked. -/
def ofStyle (style : TimeStyle) : TimeFormat := ⟨fun _ => style.text⟩

@[simp] theorem text_ofStyle (style : TimeStyle) (asked : Nat) (t : Timestamp) :
    (ofStyle style).text asked t = style.text t := rfl

/-- Timestamps to the second on a clock with this offset. -/
def clock (zone : Offset) : TimeFormat := ofStyle (.clock zone)

@[simp] theorem behind_clock (asked : Nat) (zone : Offset) :
    (clock zone).behind asked = clock zone := rfl

/-- Timestamps to the second on the clock of a zone. -/
def inZone (zone : Zone) : TimeFormat := ⟨fun _ t => (TimeStyle.clock (zone.offset t)).text t⟩

/-- Ages at the present at which each of them is asked for. -/
def ages (now : Present) : TimeFormat := ⟨fun asked => (TimeStyle.age (now.time asked)).text⟩

instance : Coe TimeStyle TimeFormat := ⟨ofStyle⟩

end TimeFormat

end AuditTrail.Calendar
