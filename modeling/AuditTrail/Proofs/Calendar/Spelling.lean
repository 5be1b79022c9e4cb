import AuditTrail.Calendar.Iso8601
import AuditTrail.Proofs.Calendar.Weeks
import AuditTrail.Proofs.Text.Digits

/-!
# How timestamps are spelt

The forms of a date, a time of day and an offset, each with what it means: `IsDate`, `IsClock` and
`IsOffset`. A reader accepts exactly these forms and gives their meaning, so that a text has one
meaning at most: `dayNumber?_eq_some_iff` and `clock?_eq_some_iff`; for what begins as an offset,
`isOffset_of_read` and `IsOffset.exists_offset?`. A fraction of a second counts down to the
microsecond, and an offset counts from one second on.
-/

namespace AuditTrail.Calendar.Iso8601

open Text (padded)

/-! ## Forms and what they mean -/

/-- A mark that is there or not. -/
def optional (c : Char) (present : Bool) : Text := if present then [CodePoint.ofChar c] else []

/-- What a date names its day by. -/
inductive DateParts where
  /-- A month and a day of it. -/
  | monthAndDay
  /-- A week; its first day is meant. -/
  | week
  /-- A week and a day of it. -/
  | weekAndDay
deriving DecidableEq

/-- A text spells the date of a day of the calendar, with dashes between all parts or none. -/
inductive IsDate (dashed : Bool) : DateParts -> Text -> Nat -> Prop where
  | monthAndDay (date : Date) (valid : date.isValid = true) :
      IsDate dashed .monthAndDay
        (padded 4 date.year ++ (optional '-' dashed ++
          (padded 2 date.month ++ (optional '-' dashed ++ padded 2 date.day))))
        date.dayNumber
  | week {year week n : Nat} (inCalendar : 1 ≤ year ∧ year ≤ 9999 ∧ n < daySpan)
      (ofWeek : IsDayOfWeek year week 1 n) :
      IsDate dashed .week
        (padded 4 year ++ (optional '-' dashed ++ CodePoint.ofChar 'W' :: padded 2 week)) n
  | weekAndDay {year week day n : Nat} (inCalendar : 1 ≤ year ∧ year ≤ 9999 ∧ n < daySpan)
      (ofWeek : IsDayOfWeek year week day n) :
      IsDate dashed .weekAndDay
        (padded 4 year ++ (optional '-' dashed ++ CodePoint.ofChar 'W' ::
          (padded 2 week ++ (optional '-' dashed ++ padded 1 day)))) n

/-- A text spells hours, minutes, seconds and microseconds, with colons between all parts or none.
Later parts may be missing. -/
inductive IsClock : Text -> Clock -> Prop where
  | hours {hours : Nat} (h : hours < 100) : IsClock (padded 2 hours) ⟨hours, 0, 0, 0⟩
  | minutes (colons : Bool) {hours minutes : Nat} (h : hours < 100) (m : minutes < 100) :
      IsClock (padded 2 hours ++ (optional ':' colons ++ padded 2 minutes)) ⟨hours, minutes, 0, 0⟩
  | seconds (colons : Bool) {hours minutes seconds : Nat} (h : hours < 100) (m : minutes < 100)
      (s : seconds < 100) :
      IsClock
        (padded 2 hours ++ (optional ':' colons ++
          (padded 2 minutes ++ (optional ':' colons ++ padded 2 seconds))))
        ⟨hours, minutes, seconds, 0⟩
  | fraction (colons : Bool) {hours minutes seconds value : Nat} {mark : Char} {digits : Text}
      (h : hours < 100) (m : minutes < 100) (s : seconds < 100) (isMark : mark = '.' ∨ mark = ',')
      (written : Text.digits? digits = some value) :
      IsClock
        (padded 2 hours ++ (optional ':' colons ++
          (padded 2 minutes ++ (optional ':' colons ++
            (padded 2 seconds ++ CodePoint.ofChar mark :: digits)))))
        ⟨hours, minutes, seconds, value * 10 ^ 6 / 10 ^ digits.length⟩

/-- Microseconds of an offset, which has to be a second at least. -/
def fromSecondOn (micros : Nat) : Int := if micros < second then 0 else micros

/-- A text spells an offset from universal time, in microseconds. -/
inductive IsOffset : Text -> Int -> Prop where
  | missing : IsOffset [] 0
  | zulu : IsOffset [CodePoint.ofChar 'Z'] 0
  | ahead {t : Text} {clock : Clock} (spelt : IsClock t clock) (short : clock.total < day) :
      IsOffset (CodePoint.ofChar '+' :: t) (fromSecondOn clock.total)
  | behind {t : Text} {clock : Clock} (spelt : IsClock t clock) (short : clock.total < day) :
      IsOffset (CodePoint.ofChar '-' :: t) (-fromSecondOn clock.total)

/-! ## Parts of a text -/

/-- A number of fixed width in front of a text is read, and nothing else. -/
theorem leading?_eq_some_iff {width n : Nat} {t rest : Text} (wide : 0 < width) :
    leading? width t = some (n, rest) ↔ n < 10 ^ width ∧ t = padded width n ++ rest := by
  constructor
  · intro read
    unfold leading? at read
    split at read
    next => cases read
    next long =>
      obtain ⟨m, digits, pair⟩ := Option.map_eq_some_iff.mp read
      cases pair
      have length : (t.take width).length = width := List.length_take_of_le (by omega)
      obtain ⟨-, below, written⟩ := Text.digits?_eq_some_iff.mp digits
      rw [length] at below written
      exact ⟨below, by rw [← written, List.take_append_drop]⟩
  · rintro ⟨below, rfl⟩
    have opening : (padded width n ++ rest).take width = padded width n :=
      List.take_left' (Text.length_padded width n)
    have behind : (padded width n ++ rest).drop width = rest :=
      List.drop_left' (Text.length_padded width n)
    rw [leading?, if_neg (by simp), opening, behind, Text.digits?_padded wide below]
    rfl

/-- A number of fixed width is read in front of a text. -/
theorem leading?_padded (width : Nat) {n : Nat} (wide : 0 < width) (below : n < 10 ^ width)
    (rest : Text) : leading? width (padded width n ++ rest) = some (n, rest) :=
  (leading?_eq_some_iff wide).mpr ⟨below, rfl⟩

/-- A number of fixed width is read if it is all of a text. -/
theorem leading?_padded_last (width : Nat) {n : Nat} (wide : 0 < width) (below : n < 10 ^ width) :
    leading? width (padded width n) = some (n, []) :=
  (leading?_eq_some_iff wide).mpr ⟨below, (List.append_nil _).symm⟩

/-- A number begins with no mark. -/
theorem startsWith_padded {c : Char} (noDigit : (CodePoint.ofChar c).isDigit = false)
    {width : Nat} (wide : 0 < width) (n : Nat) (rest : Text) :
    startsWith c (padded width n ++ rest) = false := by
  obtain ⟨width, rfl⟩ := Nat.exists_eq_add_of_le' wide
  rw [Text.padded_eq_cons, List.cons_append]
  simpa [startsWith] using CodePoint.lastDigit_ne noDigit

/-- What begins with a mark is the mark and what is behind it. -/
theorem exists_of_startsWith {c : Char} {t : Text} (begins : startsWith c t = true) :
    ∃ behind, t = CodePoint.ofChar c :: behind := by
  cases t with
  | nil => simp [startsWith] at begins
  | cons first behind => exact ⟨behind, by simpa [startsWith] using begins⟩

/-- A text begins with its first code point, and with no other. -/
theorem startsWith_cons (c : Char) (first : CodePoint) (rest : Text) :
    startsWith c (first :: rest) = decide (first = CodePoint.ofChar c) := by
  simp [startsWith]

/-- A text begins with a mark in front of another text if the mark is there. -/
theorem startsWith_optional {c : Char} (present : Bool) {rest : Text}
    (free : startsWith c rest = false) : startsWith c (optional c present ++ rest) = present := by
  cases present with
  | false => exact free
  | true => simp [startsWith, optional]

/-- A mark that has to be there is read, and one that must not be there is not. -/
theorem mark?_optional {c : Char} (wanted : Bool) {rest : Text}
    (free : startsWith c rest = false) : mark? c wanted (optional c wanted ++ rest) = some rest := by
  rw [mark?, startsWith_optional wanted free, if_pos rfl]
  cases wanted <;> rfl

/-- What a mark is read from. -/
theorem eq_of_mark? {c : Char} {wanted : Bool} {t rest : Text}
    (read : mark? c wanted t = some rest) : t = optional c wanted ++ rest := by
  unfold mark? at read
  split at read
  next begins =>
    cases wanted with
    | false => simpa [optional] using read
    | true =>
        obtain ⟨behind, rfl⟩ := exists_of_startsWith begins
        simpa [optional] using read
  next => cases read

/-! ## Dates -/

/-- What is read as a date spells one. -/
theorem exists_isDate {t : Text} {n : Nat} (read : dayNumber? t = some n) :
    ∃ dashed parts, IsDate dashed parts t n := by
  simp only [dayNumber?, Option.bind_eq_bind, Option.bind_eq_some_iff, Prod.exists] at read
  obtain ⟨year, behindYear, isYear, behindDash, isDash, read⟩ := read
  generalize startsWith '-' behindYear = dashed at isDash read
  obtain ⟨-, rfl⟩ := (leading?_eq_some_iff (by omega)).mp isYear
  obtain rfl := eq_of_mark? isDash
  refine ⟨dashed, ?_⟩
  split at read
  next byWeek =>
    obtain ⟨behindLetter, rfl⟩ := exists_of_startsWith byWeek
    simp only [List.tail_cons, Option.bind_eq_some_iff, Prod.exists] at read
    obtain ⟨week, behindWeek, isWeek, read⟩ := read
    obtain ⟨-, rfl⟩ := (leading?_eq_some_iff (by omega)).mp isWeek
    split at read
    next isLast =>
      obtain rfl := List.isEmpty_iff.mp isLast
      obtain ⟨inCalendar, ofWeek⟩ := weekDayNumber?_eq_some_iff.mp read
      rw [List.append_nil]
      exact ⟨.week, .week inCalendar ofWeek⟩
    next =>
      simp only [Option.bind_eq_some_iff, Prod.exists] at read
      obtain ⟨behindSecondDash, isSecondDash, day, behindDay, isDay, read⟩ := read
      obtain rfl := eq_of_mark? isSecondDash
      obtain ⟨-, rfl⟩ := (leading?_eq_some_iff (by omega)).mp isDay
      split at read
      next isLast =>
        obtain rfl := List.isEmpty_iff.mp isLast
        obtain ⟨inCalendar, ofWeek⟩ := weekDayNumber?_eq_some_iff.mp read
        rw [List.append_nil]
        exact ⟨.weekAndDay, .weekAndDay inCalendar ofWeek⟩
      next => cases read
  next byMonth =>
    simp only [Option.bind_eq_some_iff, Prod.exists] at read
    obtain ⟨month, behindMonth, isMonth, behindSecondDash, isSecondDash, day, behindDay, isDay,
      read⟩ := read
    obtain ⟨-, rfl⟩ := (leading?_eq_some_iff (by omega)).mp isMonth
    obtain rfl := eq_of_mark? isSecondDash
    obtain ⟨-, rfl⟩ := (leading?_eq_some_iff (by omega)).mp isDay
    split at read
    next valid =>
      obtain ⟨isLast, valid⟩ := valid
      obtain rfl := List.isEmpty_iff.mp isLast
      obtain rfl := Option.some.inj read
      rw [List.append_nil]
      exact ⟨.monthAndDay, .monthAndDay ⟨year, month, day⟩ valid⟩
    next => cases read

/-- A date of the calendar has a year of four digits, and a month and a day of two. -/
theorem bounds_of_isValid {date : Date} (valid : date.isValid = true) :
    date.year < 10 ^ 4 ∧ date.month < 10 ^ 2 ∧ date.day < 10 ^ 2 := by
  have short := monthLength_le date.year date.month
  simp only [Date.isValid, Bool.and_eq_true, decide_eq_true_eq] at valid
  omega

/-- What spells a date is read as this date. -/
theorem IsDate.dayNumber?_eq {dashed : Bool} {parts : DateParts} {t : Text} {n : Nat}
    (spelt : IsDate dashed parts t n) : dayNumber? t = some n := by
  have dash (width n : Nat) (rest : Text) : startsWith '-' (padded (width + 1) n ++ rest) = false :=
    startsWith_padded (by decide) (by omega) n rest
  have lastDash (width n : Nat) : startsWith '-' (padded (width + 1) n) = false := by
    simpa using dash width n []
  have noLetter (n : Nat) (rest : Text) : startsWith 'W' (padded 2 n ++ rest) = false :=
    startsWith_padded (by decide) (by omega) n rest
  have noDash : CodePoint.ofChar 'W' ≠ CodePoint.ofChar '-' := by decide
  cases spelt with
  | monthAndDay date valid =>
      obtain ⟨year, month, day⟩ := bounds_of_isValid valid
      simp [dayNumber?, leading?_padded 4 (by omega) year, leading?_padded 2 (by omega) month,
        leading?_padded_last 2 (by omega) day, startsWith_optional, mark?_optional, dash,
        lastDash, noLetter, valid]
  | @week year week _ inCalendar ofWeek =>
      have read := weekDayNumber?_eq_some_iff.mpr ⟨inCalendar, ofWeek⟩
      have twoDigits : week < 10 ^ 2 := (ofWeek.bounds inCalendar.1).1.trans_lt (by omega)
      simp [dayNumber?, leading?_padded 4 (by omega) (Nat.lt_succ_of_le inCalendar.2.1),
        leading?_padded_last 2 (by omega) twoDigits, startsWith_optional, mark?_optional,
        startsWith_cons, noDash, read]
  | @weekAndDay year week day _ inCalendar ofWeek =>
      have read := weekDayNumber?_eq_some_iff.mpr ⟨inCalendar, ofWeek⟩
      have twoDigits : week < 10 ^ 2 := (ofWeek.bounds inCalendar.1).1.trans_lt (by omega)
      have oneDigit : day < 10 ^ 1 := (ofWeek.bounds inCalendar.1).2.trans_lt (by omega)
      have more : padded 1 day ≠ [] := by simp [Text.padded_eq_cons]
      simp [dayNumber?, leading?_padded 4 (by omega) (Nat.lt_succ_of_le inCalendar.2.1),
        leading?_padded 2 (by omega) twoDigits, leading?_padded_last 1 (by omega) oneDigit,
        startsWith_optional, mark?_optional, startsWith_cons, noDash, lastDash, read, more]

/-- Dates are read exactly from what spells them. -/
theorem dayNumber?_eq_some_iff {t : Text} {n : Nat} :
    dayNumber? t = some n ↔ ∃ dashed parts, IsDate dashed parts t n := by
  constructor
  · exact exists_isDate
  · rintro ⟨dashed, parts, spelt⟩
    exact spelt.dayNumber?_eq

/-! ## Times of day -/

/-- The digits of a fraction of a second are read down to the microsecond. -/
theorem micros?_padded {width n : Nat} (wide : 0 < width) (below : n < 10 ^ width) :
    micros? (padded width n) = some (n * 10 ^ 6 / 10 ^ width) := by
  have digits : (padded width n).all CodePoint.isDigit = true :=
    List.all_eq_true.mpr fun _ => Text.isDigit_of_mem_padded
  rw [micros?, if_pos digits]
  by_cases short : width ≤ 6
  · have whole : (padded width n).take 6 = padded width n := List.take_of_length_le (by simpa)
    have scaled : n * 10 ^ 6 / 10 ^ width = n * 10 ^ (6 - width) := by
      rw [← Nat.pow_sub_mul_pow 10 short, ← Nat.mul_assoc,
        Nat.mul_div_cancel _ (Nat.pow_pos (by omega))]
    rw [whole, Text.digits?_padded wide below, Text.length_padded, scaled]
    rfl
  · obtain ⟨more, rfl⟩ := Nat.exists_eq_add_of_le (show 6 ≤ width by omega)
    have opening : (padded (6 + more) n).take 6 = padded 6 (n / 10 ^ more) := by
      rw [Text.padded_add]
      exact List.take_left' (Text.length_padded _ _)
    have cut : n / 10 ^ more < 10 ^ 6 := by
      rwa [Nat.div_lt_iff_lt_mul (Nat.pow_pos (by omega)), ← Nat.pow_add]
    have scaled : n * 10 ^ 6 / 10 ^ (6 + more) = n / 10 ^ more := by
      rw [Nat.pow_add, Nat.mul_comm, Nat.mul_div_mul_left _ _ (by omega)]
    rw [opening, Text.digits?_padded (by omega) cut, Text.length_padded, scaled]
    simp

/-- A fraction of a second is read from digits, and it is what they are down to the microsecond. -/
theorem micros?_eq_some_iff {t : Text} {micros : Nat} :
    micros? t = some micros ↔
      ∃ value, Text.digits? t = some value ∧ micros = value * 10 ^ 6 / 10 ^ t.length := by
  constructor
  · intro read
    have parts := read
    unfold micros? at parts
    split at parts
    next digits =>
      obtain ⟨value, below, written⟩ := Text.exists_padded (List.all_eq_true.mp digits)
      have nonempty : 0 < t.length := by
        cases t with
        | nil => cases parts
        | cons => exact Nat.succ_pos _
      refine ⟨value, Text.digits?_eq_some_iff.mpr ⟨nonempty, below, written⟩, ?_⟩
      rw [written, micros?_padded nonempty below] at read
      exact (Option.some.inj read).symm
    next => cases parts
  · rintro ⟨value, read, rfl⟩
    obtain ⟨nonempty, below, written⟩ := Text.digits?_eq_some_iff.mp read
    rw [← micros?_padded nonempty below, ← written]

/-- What is read as a time spells one. -/
theorem isClock_of_read {t : Text} {clock : Clock} (read : clock? t = some clock) :
    IsClock t clock := by
  simp only [clock?, Option.bind_eq_bind, Option.bind_eq_some_iff, Prod.exists] at read
  obtain ⟨hours, behindHours, isHours, read⟩ := read
  obtain ⟨h, rfl⟩ := (leading?_eq_some_iff (by omega)).mp isHours
  split at read
  next isLast =>
    obtain rfl := List.isEmpty_iff.mp isLast
    obtain rfl := Option.some.inj read
    rw [List.append_nil]
    exact .hours h
  next =>
    generalize startsWith ':' behindHours = colons at read
    simp only [Option.bind_eq_some_iff, Prod.exists] at read
    obtain ⟨behindColon, isColon, minutes, behindMinutes, isMinutes, read⟩ := read
    obtain rfl := eq_of_mark? isColon
    obtain ⟨m, rfl⟩ := (leading?_eq_some_iff (by omega)).mp isMinutes
    split at read
    next isLast =>
      obtain rfl := List.isEmpty_iff.mp isLast
      obtain rfl := Option.some.inj read
      rw [List.append_nil]
      exact .minutes colons h m
    next =>
      rw [← apply_ite (Option.bind · _)] at read
      simp only [Option.bind_eq_some_iff, Prod.exists] at read
      obtain ⟨behindSecondColon, isSecondColon, seconds, behindSeconds, isSeconds, read⟩ := read
      have colon : behindMinutes = optional ':' colons ++ behindSecondColon := by
        cases colons with
        | false => exact Option.some.inj isSecondColon
        | true => exact eq_of_mark? isSecondColon
      subst colon
      obtain ⟨s, rfl⟩ := (leading?_eq_some_iff (by omega)).mp isSeconds
      split at read
      next isLast =>
        obtain rfl := List.isEmpty_iff.mp isLast
        obtain rfl := Option.some.inj read
        rw [List.append_nil]
        exact .seconds colons h m s
      next =>
        split at read
        next begins =>
          obtain ⟨mark, digits, isMark, rfl⟩ : ∃ (mark : Char) (digits : Text),
              (mark = '.' ∨ mark = ',') ∧ behindSeconds = CodePoint.ofChar mark :: digits := by
            rcases Bool.or_eq_true_iff.mp begins with point | comma
            · obtain ⟨digits, rfl⟩ := exists_of_startsWith point
              exact ⟨'.', digits, .inl rfl, rfl⟩
            · obtain ⟨digits, rfl⟩ := exists_of_startsWith comma
              exact ⟨',', digits, .inr rfl, rfl⟩
          obtain ⟨micros, isFraction, rfl⟩ := Option.map_eq_some_iff.mp read
          obtain ⟨value, written, rfl⟩ := micros?_eq_some_iff.mp isFraction
          exact .fraction colons h m s isMark written
        next => cases read

/-- What spells a time is read as this time. -/
theorem IsClock.clock?_eq {t : Text} {clock : Clock} (spelt : IsClock t clock) :
    clock? t = some clock := by
  have colon (width n : Nat) (rest : Text) :
      startsWith ':' (padded (width + 1) n ++ rest) = false :=
    startsWith_padded (by decide) (by omega) n rest
  have lastColon (width n : Nat) : startsWith ':' (padded (width + 1) n) = false := by
    simpa using colon width n []
  have more (width n : Nat) : padded (width + 1) n ≠ [] := by simp [Text.padded_eq_cons]
  cases spelt with
  | hours h => simp [clock?, leading?_padded_last 2 (by omega) h]
  | minutes colons h m =>
      simp [clock?, leading?_padded 2 (by omega) h, leading?_padded_last 2 (by omega) m,
        startsWith_optional, mark?_optional, lastColon, more]
  | seconds colons h m s =>
      -- The second colon is asked for only if there is a first one.
      cases colons <;>
        simp [clock?, leading?_padded 2 (by omega) h, leading?_padded 2 (by omega) m,
          leading?_padded_last 2 (by omega) s, optional, mark?, startsWith_cons, colon, more]
  | @fraction colons _ _ _ value mark digits h m s isMark written =>
      have fraction := micros?_eq_some_iff.mpr ⟨value, written, rfl⟩
      rcases isMark with rfl | rfl
      all_goals cases colons <;>
        simp [clock?, leading?_padded 2 (by omega) h, leading?_padded 2 (by omega) m,
          leading?_padded 2 (by omega) s, optional, mark?, startsWith_cons, colon, more, fraction]

/-- Times are read exactly from what spells them. -/
theorem clock?_eq_some_iff {t : Text} {clock : Clock} :
    clock? t = some clock ↔ IsClock t clock :=
  ⟨isClock_of_read, IsClock.clock?_eq⟩

/-! ## Offsets -/

/-- An offset shorter than a day is one. -/
theorem ofMicroseconds?_eq_some_iff {ahead : Int} {offset : Offset} :
    Offset.ofMicroseconds? ahead = some offset ↔ ahead.natAbs < day ∧ offset.ahead = ahead := by
  unfold Offset.ofMicroseconds?
  constructor
  · intro made
    split at made
    next within =>
      cases made
      exact ⟨within, rfl⟩
    next => cases made
  · rintro ⟨within, rfl⟩
    rw [dif_pos within]

/-- Less than a second is no offset, and all else is shorter than a day if it was before. -/
theorem natAbs_fromSecondOn_lt {micros : Nat} :
    (fromSecondOn micros).natAbs < day ↔ micros < day := by
  have shorter : second < day := by decide
  unfold fromSecondOn
  split <;> omega

/-- An offset with a sign is read from the time behind the sign. -/
theorem offset?_cons {sign : CodePoint} (signed : sign ≠ CodePoint.ofChar 'Z') (rest : Text) :
    offset? (sign :: rest) = (clock? rest).bind fun clock =>
      Offset.ofMicroseconds? (if sign = CodePoint.ofChar '-' then -fromSecondOn clock.total
        else fromSecondOn clock.total) := by
  rw [offset?, if_neg signed]
  rfl

/-- The first code point of an offset tells that it begins. -/
theorem IsOffset.begins {t : Text} {ahead : Int} (spelt : IsOffset t ahead) :
    ∀ c ∈ t.head?, beginsOffset c = true := by
  cases spelt with
  | missing => simp
  | zulu => simp [beginsOffset]
  | ahead => simp [beginsOffset]
  | behind => simp [beginsOffset]

/-- What is read as an offset and begins as one spells it. -/
theorem isOffset_of_read {t : Text} {offset : Offset}
    (begins : ∀ c ∈ t.head?, beginsOffset c = true) (read : offset? t = some offset) :
    IsOffset t offset.ahead := by
  cases t with
  | nil =>
      obtain rfl := Option.some.inj read
      exact .missing
  | cons sign rest =>
      by_cases zulu : sign = CodePoint.ofChar 'Z'
      · subst zulu
        rw [offset?, if_pos rfl] at read
        split at read
        next isLast =>
          obtain rfl := List.isEmpty_iff.mp isLast
          obtain rfl := Option.some.inj read
          exact .zulu
        next => cases read
      · rw [offset?_cons zulu] at read
        obtain ⟨clock, isClock, made⟩ := Option.bind_eq_some_iff.mp read
        have spelt := clock?_eq_some_iff.mp isClock
        obtain ⟨within, ahead⟩ := ofMicroseconds?_eq_some_iff.mp made
        rw [ahead]
        by_cases minus : sign = CodePoint.ofChar '-'
        · subst minus
          rw [if_pos rfl, Int.natAbs_neg] at within
          rw [if_pos rfl]
          exact .behind spelt (natAbs_fromSecondOn_lt.mp within)
        · have plus : sign = CodePoint.ofChar '+' := by
            simpa [beginsOffset, minus, zulu] using begins sign
          subst plus
          rw [if_neg minus] at within ⊢
          exact .ahead spelt (natAbs_fromSecondOn_lt.mp within)

/-- What spells an offset is read as this offset. -/
theorem IsOffset.exists_offset? {t : Text} {ahead : Int} (spelt : IsOffset t ahead) :
    ∃ offset : Offset, offset? t = some offset ∧ offset.ahead = ahead := by
  cases spelt with
  | missing => exact ⟨.utc, rfl, rfl⟩
  | zulu => exact ⟨.utc, rfl, rfl⟩
  | @ahead t clock spelt short =>
      have within := natAbs_fromSecondOn_lt.mpr short
      refine ⟨⟨fromSecondOn clock.total, within⟩, ?_, rfl⟩
      rw [offset?_cons (by decide), spelt.clock?_eq, Option.bind_some, if_neg (by decide)]
      exact ofMicroseconds?_eq_some_iff.mpr ⟨within, rfl⟩
  | @behind t clock spelt short =>
      have within : (-fromSecondOn clock.total).natAbs < day := by
        rw [Int.natAbs_neg]
        exact natAbs_fromSecondOn_lt.mpr short
      refine ⟨⟨-fromSecondOn clock.total, within⟩, ?_, rfl⟩
      rw [offset?_cons (by decide), spelt.clock?_eq, Option.bind_some, if_pos rfl]
      exact ofMicroseconds?_eq_some_iff.mpr ⟨within, rfl⟩

end AuditTrail.Calendar.Iso8601
