import AuditTrail.Calendar.Date
import Mathlib.Algebra.BigOperators.Group.List.Basic
import Mathlib.Algebra.Order.Ring.Nat

/-!
# Days and their dates

Every day of the calendar has a date, and counting the days before this date leads back to the day:
`isValid_ofDayNumber` and `dayNumber_ofDayNumber`. The years of a day are found by taking off groups
of years from the greatest to the least, of which the last century and the last year of a group may
be a day longer than the others; a year is as long as its months together, so that what is left over
always falls into one of them. No date of the calendar is outside its days: `dayNumber_lt`.
-/

namespace AuditTrail.Calendar

/-- The number of days that the calendar covers. -/
theorem daySpan_eq : daySpan = 3652059 := by decide

/-! ## Months -/

/-- The number of days of a year. -/
def yearLength (year : Nat) : Nat := if isLeap year then 366 else 365

/-- A year is as long as its months together. -/
theorem sum_monthLengths (year : Nat) : (monthLengths year).sum = yearLength year := by
  unfold monthLengths yearLength
  cases isLeap year <;> rfl

/-- A day of a year falls into one of the months: behind the ones before it, and before its end. -/
theorem Date.splitDay_eq {lengths : List Nat} (month : Nat) {day : Nat}
    (within : day < lengths.sum) :
    ∃ before length behind, lengths = before ++ length :: behind ∧
      splitDay lengths month day = (month + before.length, day - before.sum) ∧
      before.sum ≤ day ∧ day < before.sum + length := by
  induction lengths generalizing month day with
  | nil => simp at within
  | cons length rest inductionHypothesis =>
      rw [List.sum_cons] at within
      by_cases first : day < length
      · exact ⟨[], length, rest, rfl, by simp [splitDay, first], by simp, by simpa using first⟩
      · obtain ⟨before, found, behind, rfl, split, low, high⟩ :=
          inductionHypothesis (month + 1) (show day - length < rest.sum by omega)
        refine ⟨length :: before, found, behind, rfl, ?_, ?_, ?_⟩
        · rw [splitDay, if_neg first, split, List.length_cons, List.sum_cons]
          congr 1 <;> omega
        · rw [List.sum_cons]
          omega
        · rw [List.sum_cons]
          omega

/-! ## Years -/

/-- The years before a year, in groups of four hundred, a hundred, four and one. -/
theorem daysBeforeYear_eq {era century cycle yearOfCycle : Nat} (centuries : century ≤ 3)
    (cycles : cycle ≤ 24) (years : yearOfCycle ≤ 3) :
    daysBeforeYear (era * 400 + century * 100 + cycle * 4 + yearOfCycle + 1) =
      era * 146097 + century * 36524 + cycle * 1461 + yearOfCycle * 365 := by
  unfold daysBeforeYear
  dsimp only
  omega

/-- The last year of four is a leap year, unless it is the last of a hundred and not of four
hundred. -/
theorem isLeap_eq {era century cycle yearOfCycle : Nat} (centuries : century ≤ 3)
    (cycles : cycle ≤ 24) (years : yearOfCycle ≤ 3) :
    isLeap (era * 400 + century * 100 + cycle * 4 + yearOfCycle + 1) = true ↔
      yearOfCycle = 3 ∧ (cycle = 24 -> century = 3) := by
  simp only [isLeap, Bool.and_eq_true, Bool.or_eq_true, decide_eq_true_eq, bne_iff_ne, ne_eq]
  omega

/-- The groups of years before a day, and the days of the last year before it. -/
theorem exists_groups (n : Nat) :
    ∃ era century cycle yearOfCycle day, century ≤ 3 ∧ cycle ≤ 24 ∧ yearOfCycle ≤ 3 ∧
      n = era * 146097 + century * 36524 + cycle * 1461 + yearOfCycle * 365 + day ∧
      (day < 365 ∨ day = 365 ∧ yearOfCycle = 3 ∧ (cycle = 24 -> century = 3)) ∧
      Date.ofDayNumber n =
        let year := era * 400 + century * 100 + cycle * 4 + yearOfCycle + 1
        let (month, dayOfMonth) := Date.splitDay (monthLengths year) 1 day
        ⟨year, month, dayOfMonth + 1⟩ := by
  -- The groups are the ones that the date is computed from.
  refine ⟨_, _, _, _, _, ?_, ?_, ?_, ?_, ?_, rfl⟩
  all_goals omega

/-- The date of a day: its year, which the day falls into, and its month and day of the month. -/
theorem exists_year (n : Nat) :
    ∃ year day, n = daysBeforeYear year + day ∧ day < yearLength year ∧ 1 ≤ year ∧
      Date.ofDayNumber n =
        let (month, dayOfMonth) := Date.splitDay (monthLengths year) 1 day
        ⟨year, month, dayOfMonth + 1⟩ := by
  obtain ⟨era, century, cycle, yearOfCycle, day, centuries, cycles, years, counted, within, date⟩ :=
    exists_groups n
  refine ⟨_, day, by rw [daysBeforeYear_eq centuries cycles years, counted], ?_, by omega, date⟩
  unfold yearLength
  rcases within with short | ⟨rfl, last⟩
  · split <;> omega
  · rw [if_pos ((isLeap_eq centuries cycles years).mpr last)]
    omega

namespace Date

/-- What a date has before it: the years, the months of its year and the days of its month. -/
theorem exists_months (n : Nat) :
    ∃ before length behind, monthLengths (ofDayNumber n).year = before ++ length :: behind ∧
      (ofDayNumber n).month = 1 + before.length ∧ 1 ≤ (ofDayNumber n).day ∧
      (ofDayNumber n).day ≤ length ∧ 1 ≤ (ofDayNumber n).year ∧
      n + 1 = daysBeforeYear (ofDayNumber n).year + before.sum + (ofDayNumber n).day := by
  obtain ⟨year, day, counted, within, first, date⟩ := exists_year n
  obtain ⟨before, length, behind, months, split, low, high⟩ :=
    splitDay_eq 1 (within.trans_eq (sum_monthLengths year).symm)
  simp only [split] at date
  rw [date]
  refine ⟨before, length, behind, months, rfl, ?_, ?_, first, ?_⟩
  all_goals dsimp only; omega

/-- The month of a date has the length that it has in the list of the months. -/
theorem monthLength_eq {year length : Nat} {before behind : List Nat}
    (months : monthLengths year = before ++ length :: behind) :
    monthLength year (1 + before.length) = length := by
  rw [monthLength, if_neg (by omega), months]
  simp

/-- The days of a year before a month are those of the months before it. -/
theorem daysBeforeMonth_eq {year length : Nat} {before behind : List Nat}
    (months : monthLengths year = before ++ length :: behind) :
    daysBeforeMonth year (1 + before.length) = before.sum := by
  rw [daysBeforeMonth, months, List.sum_eq_foldr]
  simp

/-- The date of a day has this day's number. -/
theorem dayNumber_ofDayNumber (n : Nat) : (ofDayNumber n).dayNumber = n := by
  obtain ⟨before, length, behind, months, month, one, last, first, counted⟩ := exists_months n
  rw [dayNumber, month, daysBeforeMonth_eq months]
  omega

/-- A day of the calendar has a date of the calendar. -/
theorem isValid_ofDayNumber {n : Nat} (within : n < daySpan) : (ofDayNumber n).isValid = true := by
  obtain ⟨before, length, behind, months, month, one, last, first, counted⟩ := exists_months n
  have twelve : before.length + (behind.length + 1) = 12 := by
    simpa [monthLengths] using (congrArg List.length months).symm
  have lastYear : (ofDayNumber n).year ≤ 9999 := by
    rw [daySpan_eq] at within
    unfold daysBeforeYear at counted
    dsimp only at counted
    omega
  simp only [isValid, month, monthLength_eq months, Bool.and_eq_true, decide_eq_true_eq]
  omega

end Date

/-! ## Years -/

/-- A year is a leap year if four divides it, and four hundred if a hundred does. -/
theorem isLeap_iff (year : Nat) : isLeap year = true ↔ 4 ∣ year ∧ (100 ∣ year -> 400 ∣ year) := by
  simp only [isLeap, Bool.and_eq_true, Bool.or_eq_true, decide_eq_true_eq, bne_iff_ne, ne_eq]
  omega

/-- The next year begins when the year is over. -/
theorem daysBeforeYear_succ {year : Nat} (first : 1 ≤ year) :
    daysBeforeYear (year + 1) = daysBeforeYear year + yearLength year := by
  obtain ⟨past, rfl⟩ := Nat.exists_eq_add_of_le' first
  have centuries : past / 100 ≤ past / 4 := Nat.div_le_div_left (by omega) (by omega)
  have ofHundred : 400 ∣ past + 1 -> 100 ∣ past + 1 := Nat.dvd_trans (by decide)
  have ofFour : 100 ∣ past + 1 -> 4 ∣ past + 1 := Nat.dvd_trans (by decide)
  unfold daysBeforeYear yearLength
  simp only [Nat.add_sub_cancel, Nat.succ_div, isLeap_iff]
  generalize past / 4 = a at *
  generalize past / 100 = b at *
  generalize past / 400 = c at *
  by_cases four : 4 ∣ past + 1
  · by_cases hundred : 100 ∣ past + 1
    · by_cases fourHundred : 400 ∣ past + 1
      · simp only [four, hundred, fourHundred, if_true, and_true, imp_true_iff]
        omega
      · simp only [four, hundred, fourHundred, if_true, if_false, true_and, true_imp_iff]
        omega
    · have noEra : ¬400 ∣ past + 1 := fun era => hundred (ofHundred era)
      simp only [four, hundred, noEra, if_true, if_false, true_and, false_imp_iff]
      omega
  · have noHundred : ¬100 ∣ past + 1 := fun century => four (ofFour century)
    have noEra : ¬400 ∣ past + 1 := fun era => noHundred (ofHundred era)
    simp only [four, noHundred, noEra, if_false, false_and]
    omega

/-- A year has at most 366 days, and 365 at least. -/
theorem yearLength_bounds (year : Nat) : 365 ≤ yearLength year ∧ yearLength year ≤ 366 := by
  unfold yearLength
  split <;> simp

/-- No month is longer than thirty-one days. -/
theorem monthLength_le (year month : Nat) : monthLength year month ≤ 31 := by
  have all : ∀ length ∈ monthLengths year, length ≤ 31 := by
    unfold monthLengths
    cases isLeap year <;> decide
  unfold monthLength
  split
  next => omega
  next =>
    rw [List.getD_eq_getElem?_getD]
    cases found : (monthLengths year)[month - 1]? with
    | none => simp
    | some length => exact all length (List.mem_of_getElem? found)

/-- A month ends with its year at the latest. -/
theorem daysBeforeMonth_add_monthLength_le (year : Nat) {month : Nat} (first : 1 ≤ month)
    (last : month ≤ 12) :
    daysBeforeMonth year month + monthLength year month ≤ yearLength year := by
  have twelve : (monthLengths year).length = 12 := rfl
  have place : month - 1 < (monthLengths year).length := by omega
  have months : monthLengths year = (monthLengths year).take (month - 1) ++
      (monthLengths year)[month - 1] :: (monthLengths year).drop (month - 1 + 1) := by
    rw [← List.drop_eq_getElem_cons, List.take_append_drop]
  have past : 1 + ((monthLengths year).take (month - 1)).length = month := by
    rw [List.length_take_of_le place.le]
    omega
  have before := Date.daysBeforeMonth_eq months
  have length := Date.monthLength_eq months
  have whole := congrArg List.sum months
  rw [past] at before length
  rw [sum_monthLengths, List.sum_append, List.sum_cons] at whole
  omega

/-- A date of the calendar is one of its days. -/
theorem Date.dayNumber_lt {date : Date} (valid : date.isValid = true) :
    date.dayNumber < daySpan := by
  simp only [isValid, Bool.and_eq_true, decide_eq_true_eq] at valid
  obtain ⟨⟨⟨⟨⟨firstYear, lastYear⟩, firstMonth⟩, lastMonth⟩, firstDay⟩, lastDay⟩ := valid
  have month := daysBeforeMonth_add_monthLength_le date.year firstMonth lastMonth
  have year := daysBeforeYear_succ firstYear
  have years : daysBeforeYear (date.year + 1) ≤ daySpan := by
    rw [daySpan_eq]
    unfold daysBeforeYear
    dsimp only
    omega
  unfold dayNumber
  omega

end AuditTrail.Calendar
