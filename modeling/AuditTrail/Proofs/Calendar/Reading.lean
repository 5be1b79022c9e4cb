import AuditTrail.Proofs.Calendar.Shown
import AuditTrail.Proofs.Calendar.Spelling

/-!
# Texts of timestamps

A timestamp is spelt as a date, or as a date and a time with any mark between them, and an offset
behind the time: `Spells`. The reader takes the parts of a text one by one, and it finds where the
date ends from how the text begins. It finds the end of every date that a text spells, so that it
reads exactly the texts that spell a timestamp: `timestamp?_eq_some_iff`.
-/

namespace AuditTrail.Calendar

/-- A timestamp is its reading and its offset. -/
theorem Timestamp.eq_of_reading {s t : Timestamp} (wall : s.wall = t.wall)
    (ahead : s.offset.ahead = t.offset.ahead) : s = t := by
  obtain ⟨_, ⟨_, _⟩, _⟩ := s
  obtain ⟨_, ⟨_, _⟩, _⟩ := t
  cases wall
  cases ahead
  rfl

namespace Iso8601

open Text (padded)

/-! ## Where a date ends -/

/-- The length of a date. -/
def DateParts.length (dashed : Bool) : DateParts -> Nat
  | .monthAndDay => if dashed then 10 else 8
  | .week => if dashed then 8 else 7
  | .weekAndDay => if dashed then 10 else 8

/-- A date is as long as its form. -/
theorem IsDate.length_eq {dashed : Bool} {parts : DateParts} {t : Text} {n : Nat}
    (spelt : IsDate dashed parts t n) : t.length = parts.length dashed := by
  cases spelt <;> cases dashed <;> simp [optional, DateParts.length]

/-- How many digits a text begins with. -/
def digitCount (t : Text) : Nat := (t.takeWhile CodePoint.isDigit).length

/-- One more digit in front. -/
theorem digitCount_cons {c : CodePoint} (digit : c.isDigit = true) (rest : Text) :
    digitCount (c :: rest) = digitCount rest + 1 := by
  simp [digitCount, digit]

/-- Another mark in front. -/
theorem digitCount_cons_other {c : CodePoint} (other : c.isDigit = false) (rest : Text) :
    digitCount (c :: rest) = 0 := by
  simp [digitCount, other]

/-- A date by month ends behind the day. -/
theorem dateLength?_month (dashed : Bool) (year month day : Nat) (behind : Text) :
    dateLength? (padded 4 year ++ (optional '-' dashed ++
      (padded 2 month ++ (optional '-' dashed ++ (padded 2 day ++ behind))))) =
      some (if dashed then 10 else 8) := by
  have noDash (n : Nat) : CodePoint.lastDigit n ≠ CodePoint.ofChar '-' :=
    CodePoint.lastDigit_ne (by decide)
  have noLetter (n : Nat) : CodePoint.lastDigit n ≠ CodePoint.ofChar 'W' :=
    CodePoint.lastDigit_ne (by decide)
  unfold dateLength?
  cases dashed <;> simp [Text.padded_four, Text.padded_two, optional, noDash, noLetter]

/-- The digits behind the number of a week tell whether the first of them is a day, if there are no
dashes. -/
theorem dateLength?_week (year week : Nat) (behind : Text) :
    dateLength? (padded 4 year ++ CodePoint.ofChar 'W' :: (padded 2 week ++ behind)) =
      if digitCount behind < 2 then some (7 + digitCount behind)
      else if digitCount behind % 2 = 1 then some 7
      else some 8 := by
  have letter : CodePoint.ofChar 'W' ≠ CodePoint.ofChar '-' := by decide
  have run (t : Text) : (t.takeWhile CodePoint.isDigit).length = digitCount t := rfl
  unfold dateLength?
  cases behind with
  | nil => simp [Text.padded_four, Text.padded_two, digitCount]
  | cons mark rest =>
      simp only [Text.padded_four, Text.padded_two, List.cons_append, List.nil_append,
        List.length_cons, List.getElem?_cons_succ, List.getElem?_cons_zero, List.drop_succ_cons,
        List.drop_zero, Option.some.injEq, letter, run, decide_false, decide_true,
        Bool.false_eq_true, if_false, if_true]
      generalize digitCount (mark :: rest) = count
      have parity : (7 + count) % 2 = 0 ↔ count % 2 = 1 := by omega
      rw [if_neg (by omega), if_neg (by omega)]
      simp only [parity, show 7 + count < 9 ↔ count < 2 by omega]

/-- With dashes, a dash is in front of a day unless a digit is two places behind it. -/
theorem dateLength?_dashedWeek (year week : Nat) (behind : Text) :
    dateLength? (padded 4 year ++ CodePoint.ofChar '-' :: CodePoint.ofChar 'W' ::
        (padded 2 week ++ behind)) =
      if behind.head? = some (CodePoint.ofChar '-') then
        if behind.length = 1 then none
        else if (behind[2]?.map CodePoint.isDigit).getD false then some 8 else some 10
      else some 8 := by
  unfold dateLength?
  simp only [decide_eq_true_eq]
  cases behind with
  | nil => simp [Text.padded_four, Text.padded_two]
  | cons mark rest =>
      have alone : rest.length + 9 = 9 ↔ rest.length + 1 = 1 := by omega
      simp only [Text.padded_four, Text.padded_two, List.cons_append, List.nil_append,
        List.length_cons, List.getElem?_cons_succ, List.getElem?_cons_zero, List.head?_cons,
        if_true, alone]
      rw [if_neg (by omega), if_neg (by omega)]
      rfl

/-- A number of fixed width is counted in front of a text. -/
theorem digitCount_padded (width n : Nat) (rest : Text) :
    digitCount (padded width n ++ rest) = width + digitCount rest := by
  rw [digitCount, List.takeWhile_append_of_pos fun _ => Text.isDigit_of_mem_padded,
    List.length_append, Text.length_padded]
  rfl

/-- No digit begins an offset. -/
theorem IsOffset.digitCount_eq {t : Text} {ahead : Int} (spelt : IsOffset t ahead) :
    digitCount t = 0 := by
  cases spelt with
  | missing => rfl
  | zulu => rfl
  | ahead => exact digitCount_cons_other (by decide) _
  | behind => exact digitCount_cons_other (by decide) _

/-- A time begins with two digits, and no odd number of digits is behind them. -/
theorem IsClock.exists_hours {t offset : Text} {clock : Clock} {ahead : Int}
    (spelt : IsClock t clock) (zoned : IsOffset offset ahead) :
    ∃ rest, t ++ offset = padded 2 clock.hours ++ rest ∧ digitCount rest % 2 = 0 := by
  have colon (rest : Text) : digitCount (CodePoint.ofChar ':' :: rest) = 0 :=
    digitCount_cons_other (by decide) rest
  have noDigits := zoned.digitCount_eq
  cases spelt with
  | hours => exact ⟨offset, rfl, by omega⟩
  | minutes colons =>
      refine ⟨_, List.append_assoc _ _ _, ?_⟩
      cases colons <;> simp [optional, colon, digitCount_padded, noDigits]
  | seconds colons =>
      refine ⟨_, List.append_assoc _ _ _, ?_⟩
      cases colons <;> simp [optional, colon, digitCount_padded, noDigits]
  | @fraction colons _ _ _ _ mark digits _ _ _ isMark =>
      have noDigit : digitCount (CodePoint.ofChar mark :: (digits ++ offset)) = 0 := by
        rcases isMark with rfl | rfl <;> exact digitCount_cons_other (by decide) _
      refine ⟨_, List.append_assoc _ _ _, ?_⟩
      cases colons <;> simp [optional, colon, digitCount_padded, noDigit]

/-- The beginning of a text tells where a date ends of which it is all. -/
theorem IsDate.dateLength?_eq {dashed : Bool} {parts : DateParts} {t : Text} {n : Nat}
    (spelt : IsDate dashed parts t n) : dateLength? t = some t.length := by
  rw [spelt.length_eq]
  cases spelt with
  | monthAndDay date =>
      have ends := dateLength?_month dashed date.year date.month date.day []
      rwa [List.append_nil] at ends
  | @week year week =>
      cases dashed with
      | false =>
          have ends := dateLength?_week year week []
          rwa [List.append_nil] at ends
      | true =>
          have ends := dateLength?_dashedWeek year week []
          rwa [List.append_nil] at ends
  | @weekAndDay year week day =>
      cases dashed with
      | false =>
          have run := digitCount_padded 1 day []
          rw [List.append_nil] at run
          have ends := dateLength?_week year week (padded 1 day)
          rwa [run] at ends
      | true => exact dateLength?_dashedWeek year week (CodePoint.ofChar '-' :: padded 1 day)

/-- A date of a week and its day with dashes is not told from one of a week with a dash behind it
if a digit follows. -/
theorem IsDate.dateLength?_dashed {t rest : Text} {n : Nat} {separator : CodePoint}
    (spelt : IsDate true .weekAndDay t n) :
    dateLength? (t ++ separator :: rest) = some (if separator.isDigit then 8 else 10) := by
  cases spelt with
  | weekAndDay =>
      simp only [optional, if_true, List.append_assoc, List.cons_append, List.nil_append]
      rw [dateLength?_dashedWeek]
      simp [padded, apply_ite]

/-- The beginning of a text tells where a date ends that a time follows. -/
theorem IsDate.dateLength?_append {dashed : Bool} {parts : DateParts} {t behind : Text}
    {n hours : Nat} {separator : CodePoint} (spelt : IsDate dashed parts t n)
    (apart : dashed = true -> parts = .weekAndDay -> separator.isDigit = false)
    (even : digitCount behind % 2 = 0) :
    dateLength? (t ++ separator :: (padded 2 hours ++ behind)) = some t.length := by
  -- A mark that is a digit leaves an odd number of digits behind the date, which tells a week from
  -- a day of it.
  have run : digitCount (separator :: (padded 2 hours ++ behind)) = 0 ∨
      digitCount (separator :: (padded 2 hours ++ behind)) = 3 + digitCount behind := by
    cases digit : separator.isDigit with
    | false => exact .inl (digitCount_cons_other digit _)
    | true =>
        right
        rw [digitCount_cons digit, digitCount_padded]
        omega
  have digit (n : Nat) : (CodePoint.lastDigit n).isDigit = true := CodePoint.isDigit_lastDigit n
  rw [spelt.length_eq]
  cases spelt with
  | monthAndDay date =>
      simp only [List.append_assoc]
      exact dateLength?_month dashed date.year date.month date.day _
  | @week year week =>
      cases dashed with
      | false =>
          simp only [optional, Bool.false_eq_true, if_false, List.append_assoc, List.cons_append,
            List.nil_append]
          rw [dateLength?_week]
          rcases run with none | many
          · rw [none]
            rfl
          · rw [many, if_neg (by omega), if_pos (by omega)]
            rfl
      | true =>
          simp only [optional, if_true, List.append_assoc, List.cons_append, List.nil_append]
          rw [dateLength?_dashedWeek]
          simp [Text.padded_two, digit, DateParts.length]
  | @weekAndDay year week day _ inCalendar ofWeek =>
      cases dashed with
      | false =>
          simp only [optional, Bool.false_eq_true, if_false, List.append_assoc, List.cons_append,
            List.nil_append]
          rw [dateLength?_week, digitCount_padded]
          rcases run with none | many
          · rw [none]
            rfl
          · rw [many, if_neg (by omega), if_neg (by omega)]
            rfl
      | true =>
          rw [IsDate.dateLength?_dashed (.weekAndDay inCalendar ofWeek), apart rfl rfl]
          rfl

/-! ## Timestamps -/

/-- A day that a date names is one of the calendar. -/
theorem IsDate.lt {dashed : Bool} {parts : DateParts} {t : Text} {n : Nat}
    (spelt : IsDate dashed parts t n) : n < daySpan := by
  cases spelt with
  | monthAndDay date valid => exact Date.dayNumber_lt valid
  | week inCalendar => exact inCalendar.2.2
  | weekAndDay inCalendar => exact inCalendar.2.2

/-- A text spells a reading of a clock and the offset of this clock, both in microseconds: a date,
or a date and a time with any mark between them. A day of a week that is written with dashes is not
told from a time if the mark is a digit. -/
inductive Spells : Text -> Nat -> Int -> Prop where
  | date {dashed : Bool} {parts : DateParts} {t : Text} {n : Nat}
      (dated : IsDate dashed parts t n) : Spells t (n * day) 0
  | dateAndTime {dashed : Bool} {parts : DateParts} {date time offset : Text} {n : Nat}
      {clock : Clock} {ahead : Int} {separator : CodePoint} (dated : IsDate dashed parts date n)
      (apart : dashed = true -> parts = .weekAndDay -> separator.isDigit = false)
      (timed : IsClock time clock) (ofDay : clock.isTimeOfDay = true)
      (zoned : IsOffset offset ahead) :
      Spells (date ++ separator :: (time ++ offset)) (n * day + clock.total) ahead

/-- No digit begins an offset. -/
theorem beginsOffset_of_isDigit {c : CodePoint} (digit : c.isDigit = true) :
    beginsOffset c = false := by
  obtain ⟨n, -, rfl⟩ := CodePoint.exists_lastDigit digit
  have noMark (mark : Char) (other : (CodePoint.ofChar mark).isDigit = false) :
      CodePoint.lastDigit n ≠ CodePoint.ofChar mark := CodePoint.lastDigit_ne other
  simp [beginsOffset, noMark '+' (by decide), noMark '-' (by decide), noMark 'Z' (by decide)]

/-- No part of a time begins an offset. -/
theorem IsClock.all_not_beginsOffset {t : Text} {clock : Clock} (spelt : IsClock t clock) :
    t.all (fun c => !beginsOffset c) = true := by
  have ofDigits {digits : Text} (all : ∀ c ∈ digits, c.isDigit = true) :
      digits.all (fun c => !beginsOffset c) = true :=
    List.all_eq_true.mpr fun c member => by simp [beginsOffset_of_isDigit (all c member)]
  have number (width n : Nat) : (padded width n).all (fun c => !beginsOffset c) = true :=
    ofDigits fun _ => Text.isDigit_of_mem_padded
  have colon (colons : Bool) : (optional ':' colons).all (fun c => !beginsOffset c) = true := by
    cases colons <;> decide
  cases spelt with
  | hours => exact number 2 _
  | minutes colons => simp only [List.all_append, number, colon, Bool.and_self]
  | seconds colons => simp only [List.all_append, number, colon, Bool.and_self]
  | @fraction colons _ _ _ _ mark digits _ _ _ isMark written =>
      have noOffset : beginsOffset (CodePoint.ofChar mark) = false := by
        rcases isMark with rfl | rfl <;> decide
      obtain ⟨-, -, shape⟩ := Text.digits?_eq_some_iff.mp written
      rw [shape]
      simp only [List.all_append, List.all_cons, number, colon, noOffset, Bool.not_false,
        Bool.and_self]

/-- A time ends where its offset begins. -/
theorem IsClock.takeWhile_append {time offset : Text} {clock : Clock} {ahead : Int}
    (timed : IsClock time clock) (zoned : IsOffset offset ahead) :
    (time ++ offset).takeWhile (fun c => !beginsOffset c) = time := by
  rw [List.takeWhile_append_of_pos (List.all_eq_true.mp timed.all_not_beginsOffset)]
  cases offset with
  | nil => simp
  | cons sign rest => simp [zoned.begins sign rfl]

/-- A part of a second is shorter than it. -/
theorem IsClock.micros_lt {t : Text} {clock : Clock} (spelt : IsClock t clock) :
    clock.micros < second := by
  cases spelt with
  | hours => exact show 0 < second by decide
  | minutes => exact show 0 < second by decide
  | seconds => exact show 0 < second by decide
  | @fraction _ _ _ _ value _ digits _ _ _ _ written =>
      obtain ⟨-, below, -⟩ := Text.digits?_eq_some_iff.mp written
      rw [Nat.div_lt_iff_lt_mul (Nat.pow_pos (by omega)), Nat.mul_comm]
      exact Nat.mul_lt_mul_of_pos_left below (by omega)

/-- A time of day is shorter than a day. -/
theorem Clock.total_lt {clock : Clock} (ofDay : clock.isTimeOfDay = true)
    (micros : clock.micros < second) : clock.total < day := by
  simp only [Clock.isTimeOfDay, Bool.and_eq_true, decide_eq_true_eq] at ofDay
  simp only [Clock.total, day, hour, minute, second] at *
  omega

/-- A date without a time is read as the beginning of the day in universal time. -/
theorem timestamp?_of_date {t : Text} {n : Nat} (ends : dateLength? t = some t.length)
    (dated : dayNumber? t = some n) : timestamp? t = Timestamp.ofWall? (n * day : Nat) .utc := by
  unfold timestamp?
  simp only [ends, List.take_length, dated, Option.bind_eq_bind, Option.bind_some]
  rw [if_pos (le_refl _)]

/-- A date, a time and an offset are read one by one. -/
theorem timestamp?_of_parts {date time offset : Text} {separator : CodePoint} {n : Nat}
    {clock : Clock} {zone : Offset}
    (ends : dateLength? (date ++ separator :: (time ++ offset)) = some date.length)
    (dated : dayNumber? date = some n)
    (apart : (time ++ offset).takeWhile (fun c => !beginsOffset c) = time)
    (timed : clock? time = some clock) (zoned : offset? offset = some zone)
    (ofDay : clock.isTimeOfDay = true) :
    timestamp? (date ++ separator :: (time ++ offset)) =
      Timestamp.ofWall? (n * day + clock.total : Nat) zone := by
  have after : (date ++ separator :: (time ++ offset)).drop (date.length + 1) = time ++ offset := by
    rw [List.append_cons]
    exact List.drop_left' (by simp)
  unfold timestamp?
  simp only [ends, List.take_left, dated, after, apart, timed, List.drop_left, zoned,
    Option.bind_eq_bind, Option.bind_some]
  rw [if_neg (by simp), if_pos ofDay]

/-- What spells a timestamp is read as this one. -/
theorem Spells.exists_timestamp? {t : Text} {wall : Nat} {ahead : Int}
    (spelt : Spells t wall ahead) :
    ∃ read : Timestamp, timestamp? t = some read ∧ read.wall = wall ∧
      read.offset.ahead = ahead := by
  cases spelt with
  | @date _ _ _ n dated =>
      have within : n * day < span := Nat.mul_lt_mul_of_pos_right dated.lt (by decide)
      refine ⟨⟨n * day, .utc, within⟩, ?_, rfl, rfl⟩
      rw [timestamp?_of_date dated.dateLength?_eq dated.dayNumber?_eq]
      exact Timestamp.ofWall?_eq_some_iff.mpr ⟨rfl, rfl⟩
  | @dateAndTime _ _ date time offset n clock _ separator dated apart timed ofDay zoned =>
      have within : n * day + clock.total < span :=
        calc n * day + clock.total < n * day + day :=
              Nat.add_lt_add_left (Clock.total_lt ofDay timed.micros_lt) _
          _ = (n + 1) * day := (Nat.succ_mul n day).symm
          _ ≤ daySpan * day := Nat.mul_le_mul_right day dated.lt
      obtain ⟨behind, shape, even⟩ := timed.exists_hours zoned
      have ends : dateLength? (date ++ separator :: (time ++ offset)) = some date.length := by
        rw [shape]
        exact dated.dateLength?_append apart even
      obtain ⟨zone, isZone, rfl⟩ := zoned.exists_offset?
      refine ⟨⟨_, zone, within⟩, ?_, rfl, rfl⟩
      rw [timestamp?_of_parts ends dated.dayNumber?_eq (timed.takeWhile_append zoned)
        timed.clock?_eq isZone ofDay]
      exact Timestamp.ofWall?_eq_some_iff.mpr ⟨rfl, rfl⟩

/-- A time and the offset that begins behind it. -/
theorem exists_offset (t : Text) :
    ∃ offset, t = t.takeWhile (fun c => !beginsOffset c) ++ offset ∧
      ∀ c ∈ offset.head?, beginsOffset c = true := by
  refine ⟨t.dropWhile fun c => !beginsOffset c, List.takeWhile_append_dropWhile.symm, ?_⟩
  have head := List.head?_dropWhile_not (fun c => !beginsOffset c) t
  intro c first
  rw [Option.mem_def.mp first] at head
  simpa using head

/-- What is read as a timestamp is a date, or is read as a date, a time and an offset. -/
theorem exists_parts {t : Text} {read : Timestamp} (isRead : timestamp? t = some read) :
    (∃ n, dayNumber? t = some n ∧ read.wall = n * day ∧ read.offset = .utc) ∨
    ∃ date separator time offset n clock, t = date ++ separator :: (time ++ offset) ∧
      dateLength? t = some date.length ∧ dayNumber? date = some n ∧ clock? time = some clock ∧
      clock.isTimeOfDay = true ∧ (∀ c ∈ offset.head?, beginsOffset c = true) ∧
      offset? offset = some read.offset ∧ read.wall = n * day + clock.total := by
  simp only [timestamp?, Option.bind_eq_bind, Option.bind_eq_some_iff] at isRead
  obtain ⟨length, ends, n, isDate, isRead⟩ := isRead
  split at isRead
  next short =>
    rw [List.take_of_length_le short] at isDate
    obtain ⟨wall, zone⟩ := Timestamp.ofWall?_eq_some_iff.mp isRead
    exact .inl ⟨n, isDate, Nat.cast_inj.mp wall, zone⟩
  next longer =>
    have parted : t = t.take length ++ t[length] :: t.drop (length + 1) := by
      rw [← List.drop_eq_getElem_cons, List.take_append_drop]
    have dateEnds : length = (t.take length).length := (List.length_take_of_le (by omega)).symm
    obtain ⟨offset, time, begins⟩ := exists_offset (t.drop (length + 1))
    generalize (t.drop (length + 1)).takeWhile (fun c => !beginsOffset c) = reading at *
    rw [time, List.drop_left] at isRead
    simp only [Option.bind_eq_some_iff] at isRead
    obtain ⟨clock, isClock, zone, isOffset, isRead⟩ := isRead
    split at isRead
    next ofDay =>
      obtain ⟨wall, rfl⟩ := Timestamp.ofWall?_eq_some_iff.mp isRead
      rw [time] at parted
      exact .inr ⟨_, _, _, _, _, _, parted, ends.trans (congrArg some dateEnds), isDate, isClock,
        ofDay, begins, isOffset, Nat.cast_inj.mp wall⟩
    next => cases isRead

/-- What is read as a timestamp spells it. -/
theorem spells_of_read {t : Text} {read : Timestamp} (isRead : timestamp? t = some read) :
    Spells t read.wall read.offset.ahead := by
  rcases exists_parts isRead with ⟨n, isDate, wall, utc⟩ |
    ⟨date, separator, time, offset, n, clock, rfl, ends, isDate, isClock, ofDay, begins, isOffset,
      wall⟩
  · obtain ⟨dashed, parts, dated⟩ := dayNumber?_eq_some_iff.mp isDate
    rw [wall, utc]
    exact .date dated
  · obtain ⟨dashed, parts, dated⟩ := dayNumber?_eq_some_iff.mp isDate
    rw [wall]
    refine .dateAndTime dated ?apart (isClock_of_read isClock) ofDay
      (isOffset_of_read begins isOffset)
    rintro rfl rfl
    rw [dated.dateLength?_dashed, dated.length_eq] at ends
    cases digit : separator.isDigit with
    | false => rfl
    | true => simp [digit, DateParts.length] at ends

/-- Timestamps are read exactly from what spells them. -/
theorem timestamp?_eq_some_iff {t : Text} {read : Timestamp} :
    timestamp? t = some read ↔ Spells t read.wall read.offset.ahead := by
  constructor
  · exact spells_of_read
  · intro spelt
    obtain ⟨same, isRead, wall, ahead⟩ := spelt.exists_timestamp?
    rw [isRead, Timestamp.eq_of_reading wall ahead]

end Iso8601

end AuditTrail.Calendar
