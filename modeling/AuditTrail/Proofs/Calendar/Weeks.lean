import AuditTrail.Proofs.Calendar.Days

/-!
# Weeks and their days

A week belongs to the year of its Thursday: the first week of a year is the one with the first
Thursday of the year, and a year has as many weeks as Thursdays. What is read as a day of a week is
this day, and nothing else is read as one: `weekDayNumber?_eq_some_iff`.
-/

namespace AuditTrail.Calendar

/-- The Thursday of the week of a day. -/
def thursdayOf (n : Nat) : Nat := n - weekday n + 3

/-- A day of a week of a year: the Thursday of its week is one of the year, and of these the one
with the number of the week. Monday is day 1. -/
structure IsDayOfWeek (year week day n : Nat) : Prop where
  ofYear : daysBeforeYear year ≤ thursdayOf n ∧ thursdayOf n < daysBeforeYear (year + 1)
  ofWeek : (thursdayOf n - daysBeforeYear year) / 7 + 1 = week
  ofDay : weekday n + 1 = day

/-- A year has fifty-three weeks at most, and a week seven days. -/
theorem IsDayOfWeek.bounds {year week day n : Nat} (first : 1 ≤ year)
    (ofWeek : IsDayOfWeek year week day n) : week ≤ 53 ∧ day ≤ 7 := by
  obtain ⟨⟨fromYear, toYear⟩, isWeek, isDay⟩ := ofWeek
  have length := yearLength_bounds year
  rw [daysBeforeYear_succ first] at toYear
  unfold weekday at isDay
  omega

/-- The first week of a year begins within three days of the first day of the year, so that its
Thursday is the first of the year. -/
theorem firstMonday_bounds (year : Nat) :
    firstMonday year % 7 = 0 ∧ daysBeforeYear year + 4 ≤ firstMonday year ∧
      firstMonday year ≤ daysBeforeYear year + 10 := by
  unfold firstMonday weekday
  dsimp only
  split <;> omega

/-- A year is long if a fifty-third Thursday is in it. -/
theorem hasLongYear_iff (year : Nat) :
    hasLongYear year = true ↔
      firstMonday year + 3 + 52 * 7 < daysBeforeYear year + 7 + yearLength year := by
  unfold hasLongYear firstMonday weekday yearLength
  generalize daysBeforeYear year = newYear
  cases isLeap year <;> simp <;> split <;> omega

/-- A day has a number by week exactly if the calendar has it and it is this day of this week. -/
theorem weekDayNumber?_eq_some_iff {year week day n : Nat} :
    weekDayNumber? year week day = some n ↔
      (1 ≤ year ∧ year ≤ 9999 ∧ n < daySpan) ∧ IsDayOfWeek year week day n := by
  have long := hasLongYear_iff year
  have bounds := firstMonday_bounds year
  have next : 1 ≤ year -> daysBeforeYear (year + 1) = daysBeforeYear year + yearLength year :=
    daysBeforeYear_succ
  have length := yearLength_bounds year
  unfold weekDayNumber?
  simp only [long]
  generalize firstMonday year = monday at *
  generalize yearLength year = days at *
  constructor
  · intro found
    split at found
    next within =>
      split at found
      next inSpan =>
        obtain rfl := Option.some.inj found
        have following := next within.1
        refine ⟨by omega, ⟨?_, ?_⟩, ?_, ?_⟩
        all_goals simp only [thursdayOf, weekday]
        all_goals omega
      next => cases found
    next => cases found
  · rintro ⟨⟨first, last, inSpan⟩, ⟨fromYear, toYear⟩, ofWeek, ofDay⟩
    have following := next first
    simp only [thursdayOf, weekday] at *
    rw [if_pos (by omega)]
    rw [if_pos (by omega)]
    congr 1
    omega

end AuditTrail.Calendar
