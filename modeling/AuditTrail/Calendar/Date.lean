/-!
# Dates

Days of the Gregorian calendar from the year 1 to the year 9999, as a year, a month and a
day, as a count of days, and as a day of a week of a year. The first day of the year 1 is
day 0, a Monday.
-/

namespace AuditTrail.Calendar

/-- Whether the year has a twenty-ninth of February. -/
def isLeap (year : Nat) : Bool := year % 4 = 0 && (year % 100 != 0 || year % 400 = 0)

/-- The lengths of the months of a year. -/
def monthLengths (year : Nat) : List Nat :=
  [31, if isLeap year then 29 else 28, 31, 30, 31, 30, 31, 31, 30, 31, 30, 31]

/-- The number of days of a month; months outside the year have none. -/
def monthLength (year month : Nat) : Nat :=
  if month = 0 then 0 else (monthLengths year).getD (month - 1) 0

/-- The number of days before the first day of a year. -/
def daysBeforeYear (year : Nat) : Nat :=
  let past := year - 1
  past * 365 + past / 4 - past / 100 + past / 400

/-- The number of days of a year before the first day of a month. -/
def daysBeforeMonth (year month : Nat) : Nat :=
  ((monthLengths year).take (month - 1)).foldr (· + ·) 0

/-- A day by its year, month and day of the month. -/
structure Date where
  year : Nat
  month : Nat
  day : Nat
deriving DecidableEq, Repr

/-- The number of days that the calendar covers. -/
def daySpan : Nat := daysBeforeYear 10000

/-- The day of the week, Monday being 0. -/
def weekday (dayNumber : Nat) : Nat := dayNumber % 7

namespace Date

/-- Whether the calendar has the date. -/
def isValid (date : Date) : Bool :=
  1 ≤ date.year && date.year ≤ 9999 && 1 ≤ date.month && date.month ≤ 12
    && 1 ≤ date.day && date.day ≤ monthLength date.year date.month

/-- The number of days before the date. -/
def dayNumber (date : Date) : Nat :=
  daysBeforeYear date.year + daysBeforeMonth date.year date.month + date.day - 1

/-- The month and the day of the month of a day counted from the beginning of `month`,
the lengths being those of this month and the ones behind it. -/
def splitDay : List Nat -> Nat -> Nat -> Nat × Nat
  | [], month, day => (month, day)
  | length :: rest, month, day =>
    if day < length then (month, day) else splitDay rest (month + 1) (day - length)

/-- The date with a number of days before it. Four hundred years, then centuries, then
four years, then years are taken off; the last century and the last year of a group may
be a day longer. -/
def ofDayNumber (n : Nat) : Date :=
  let inEra := n % 146097
  let century := min (inEra / 36524) 3
  let inCentury := inEra - century * 36524
  let inCycle := inCentury % 1461
  let yearOfCycle := min (inCycle / 365) 3
  let year := n / 146097 * 400 + century * 100 + inCentury / 1461 * 4 + yearOfCycle + 1
  let (month, day) := splitDay (monthLengths year) 1 (inCycle - yearOfCycle * 365)
  ⟨year, month, day + 1⟩

end Date

/-- The day number of the Monday of the first week of a year, which holds its first
Thursday; counted from seven days before day 0, since that Monday may lie before it. -/
def firstMonday (year : Nat) : Nat :=
  let newYear := daysBeforeYear year + 7
  let past := weekday newYear
  if past ≤ 3 then newYear - past else newYear - past + 7

/-- Whether a year has a fifty-third week. -/
def hasLongYear (year : Nat) : Bool :=
  let newYear := weekday (daysBeforeYear year)
  newYear = 3 || (newYear = 2 && isLeap year)

/-- The day number of a day of a week; Monday is day 1. -/
def weekDayNumber? (year week day : Nat) : Option Nat :=
  if 1 ≤ year ∧ year ≤ 9999 ∧ 1 ≤ week ∧ (week ≤ 52 ∨ (week = 53 ∧ hasLongYear year))
      ∧ 1 ≤ day ∧ day ≤ 7 then
    let counted := firstMonday year + (week - 1) * 7 + (day - 1)
    if 7 ≤ counted ∧ counted - 7 < daySpan then some (counted - 7) else none
  else none

end AuditTrail.Calendar
