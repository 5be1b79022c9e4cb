import AuditTrail.Calendar.Age
import AuditTrail.Proofs.Number.Truncation
import AuditTrail.Proofs.Text.Digits

/-!
# What the words for a duration tell

The words for a duration name a number of units, which is a number of seconds: `Telling.read?`. Of
two durations of whole seconds the longer one is never told as the shorter one, and what is told is
near to the duration, above by half an hour at most and below by less than one unit:
`words_tell_duration`. Whether the seconds are a whole number or a number of double precision makes
no difference (`age_eq_ofSeconds`), as long as they are not more than any two times can be apart.
-/

namespace AuditTrail

namespace Calendar

/-! ## Words as seconds -/

/-- A unit of the words for a duration. -/
inductive AgeUnit where
  | second
  | minute
  | hour
  | day
  | week
  | month
  | year
deriving DecidableEq, Repr

namespace AgeUnit

/-- The seconds of a unit; a month has thirty days and a year 365. -/
def seconds : AgeUnit -> Nat
  | .second => 1
  | .minute => 60
  | .hour => 3600
  | .day => 24 * 3600
  | .week => 7 * 24 * 3600
  | .month => 30 * 24 * 3600
  | .year => 365 * 24 * 3600

/-- The word for several of a unit. -/
def plural : AgeUnit -> Text
  | .second => "seconds"
  | .minute => "minutes"
  | .hour => "hours"
  | .day => "days"
  | .week => "weeks"
  | .month => "months"
  | .year => "years"

/-- The units. -/
def all : List AgeUnit := [.second, .minute, .hour, .day, .week, .month, .year]

end AgeUnit

/-- What the words for a duration tell. -/
inductive Telling where
  | underSecond
  | one (unit : AgeUnit)
  | several (count : Nat) (unit : AgeUnit)
deriving DecidableEq, Repr

namespace Telling

/-- The unit that is told in. -/
def unit : Telling -> AgeUnit
  | .underSecond => .second
  | .one unit => unit
  | .several _ unit => unit

/-- The seconds that are told. -/
def seconds : Telling -> Nat
  | .underSecond => 0
  | .one unit => unit.seconds
  | .several count unit => count * unit.seconds

/-- The words that tell of no number or of one unit. -/
def fixedWords : List (Text × Telling) :=
  [("Less than a second", .underSecond), ("1 second", .one .second),
    ("About a minute", .one .minute), ("About an hour", .one .hour)]

/-- What a number and the word for several of a unit tell. -/
def several? (words : Text) : Option Telling :=
  let digits := words.takeWhile CodePoint.isDigit
  let behind := words.drop digits.length
  (Text.digits? digits).bind fun count =>
    (AgeUnit.all.find? fun unit => behind = " " ++ unit.plural).map (several count)

/-- What words tell. -/
def read? (words : Text) : Option Telling := (several? words).or (fixedWords.lookup words)

/-- A number with the word for several of a unit is read as just that. -/
theorem read?_counted (count : Nat) (unit : AgeUnit) :
    read? (Age.counted count unit.plural) = some (several count unit) := by
  have behind : Age.counted count unit.plural = Text.ofNat count ++ (" " ++ unit.plural) := by
    rw [Age.counted, List.append_assoc]
  have noDigits : (" " ++ unit.plural : Text).takeWhile CodePoint.isDigit = [] := by
    cases unit <;> decide
  have digits : (Text.ofNat count ++ (" " ++ unit.plural)).takeWhile CodePoint.isDigit =
      Text.ofNat count := by
    rw [List.takeWhile_append_of_pos fun _ => Text.isDigit_of_mem_ofNat, noDigits, List.append_nil]
  have found : (AgeUnit.all.find? fun other =>
      (" " ++ unit.plural : Text) = " " ++ other.plural) = some unit := by
    cases unit <;> decide
  rw [read?, several?, behind, digits, List.drop_left, Text.digits?_ofNat, Option.bind_some, found]
  rfl

end Telling

/-! ## Ages of whole seconds -/

/-- The age of a number of seconds when nothing is lost by rounding: minutes are cut off, and hours
are rounded with half an hour up. -/
def Age.ofSeconds (seconds : Nat) : Age := ⟨seconds, seconds / 60, (seconds + 1800) / 3600⟩

namespace Duration

/-- A duration is a number of whole seconds, whichever kind of number it is given as. -/
def Amounts : Duration -> Nat -> Prop
  | .whole seconds, amount => seconds = amount
  | .fractional seconds, amount => ∃ negative significand exponent,
      seconds = .finite negative significand exponent ∧
      Binary64.numerator significand exponent = amount * Binary64.denominator exponent ∧
      (negative = true -> amount = 0)

/-- A duration is below zero. -/
def IsNegative : Duration -> Prop
  | .whole seconds => seconds < 0
  | .fractional seconds => seconds.isNegative = true

/-- The whole part of a number that is not below one with a minus sign. -/
theorem wholePart_finite {negative : Bool} {significand whole : Nat} {exponent : Int}
    (floor : ⌊Binary64.magnitude significand exponent⌋₊ = whole)
    (nothing : negative = true -> whole = 0) :
    wholePart (.finite negative significand exponent) = .ok whole := by
  rw [Binary64.floor_magnitude] at floor
  cases negative with
  | false => simp [wholePart, Binary64.truncated?, floor]
  | true => simp [wholePart, Binary64.truncated?, floor, nothing rfl]

/-- A ratio that is a part of whole seconds is rounded to a number near to this part. -/
theorem exists_ofRatio_part {num den seconds divisor power : Nat} (places : Nat) (negative : Bool)
    (positive : 0 < den) (nonzero : 0 < divisor) (ratio : num * divisor = seconds * den)
    (below : seconds < 2 ^ power * divisor) (bits : power + places ≤ 52) :
    ∃ significand exponent,
      Binary64.ofRatio negative num den = .finite negative significand exponent ∧
      Binary64.IsNear places (seconds / divisor) (Binary64.magnitude significand exponent) := by
  have denPos : (0 : ℚ) < den := by exact_mod_cast positive
  have divisorPos : (0 : ℚ) < divisor := by exact_mod_cast nonzero
  have same : (num : ℚ) / den = seconds / divisor := by
    rw [div_eq_div_iff denPos.ne' divisorPos.ne']
    exact_mod_cast ratio
  have numBelow : num < 2 ^ power * den := by
    refine Nat.lt_of_mul_lt_mul_right (a := divisor) ?_
    calc num * divisor
        = seconds * den := ratio
      _ < 2 ^ power * divisor * den := Nat.mul_lt_mul_of_pos_right below positive
      _ = 2 ^ power * den * divisor := by ring
  rw [← same]
  exact Binary64.exists_ofRatio places negative positive numBelow bits

/-- The minutes of whole seconds, from a ratio that is a sixtieth of them. -/
theorem wholePart_minutes {num den seconds : Nat} (negative : Bool) (positive : 0 < den)
    (ratio : num * 60 = seconds * den) (below : seconds < 2 ^ 47)
    (nothing : negative = true -> seconds = 0) :
    (∃ significand exponent,
      Binary64.ofRatio negative num den = .finite negative significand exponent) ∧
    wholePart (Binary64.ofRatio negative num den) = .ok (seconds / 60) := by
  obtain ⟨significand, exponent, shape, near⟩ :=
    exists_ofRatio_part 10 negative positive (show 0 < 60 by omega) ratio
      (show seconds < 2 ^ 42 * 60 by omega) (by omega)
  have floor := near.floor_quotient (by omega) (by omega)
  refine ⟨⟨significand, exponent, shape⟩, ?_⟩
  rw [shape]
  exact wholePart_finite floor fun signed => by rw [nothing signed]

/-- The hours of whole seconds, from a ratio that is a part of them: one half is added to what it is
rounded to, and the sum is rounded again. -/
theorem wholePart_hours {num den seconds : Nat} (negative : Bool) (positive : 0 < den)
    (ratio : num * 3600 = seconds * den) (below : seconds < 2 ^ 47) :
    wholePart (Binary64.ofRatio negative num den).plusHalf = .ok ((seconds + 1800) / 3600) := by
  obtain ⟨significand, exponent, shape, near⟩ :=
    exists_ofRatio_part 16 negative positive (show 0 < 3600 by omega) ratio
      (show seconds < 2 ^ 36 * 3600 by omega) (by omega)
  have belowDen := Binary64.denominator_pos exponent
  have magnitude : Binary64.magnitude significand exponent =
      Binary64.numerator significand exponent / Binary64.denominator exponent := rfl
  rw [shape, Binary64.plusHalf]
  generalize Binary64.numerator significand exponent = num at magnitude ⊢
  generalize Binary64.denominator exponent = den at magnitude belowDen ⊢
  have denPos : (0 : ℚ) < den := by exact_mod_cast belowDen
  have numBelow : 2 * num + den < 2 ^ 37 * (2 * den) := by
    have gains := near.gains
    have hours : (seconds : ℚ) / (3600 : Nat) < 2 ^ 36 := by
      rw [div_lt_iff₀ (by norm_num)]
      exact_mod_cast (show seconds < 2 ^ 36 * 3600 by omega)
    have atMost : (num : ℚ) / den < 2 ^ 36 + 1 := by
      rw [← magnitude]
      linarith [show (1 : ℚ) / 2 ^ 16 ≤ 1 by norm_num]
    rw [div_lt_iff₀ denPos] at atMost
    have whole : num < (2 ^ 36 + 1) * den := by exact_mod_cast atMost
    omega
  have more : ((2 * num + den : Nat) : ℚ) / (2 * den : Nat) =
      Binary64.magnitude significand exponent + 1 / 2 := by
    rw [magnitude]
    push_cast
    field_simp
  obtain ⟨significand', exponent', shapeAgain, nearAgain⟩ :=
    Binary64.exists_ofRatio 15 false (show 0 < 2 * den by omega) numBelow (by omega)
  rw [more] at nearAgain
  rw [shapeAgain]
  have floor := near.floor_halfMore 1800 (by omega) (by omega) (by norm_num) nearAgain
  exact wholePart_finite floor (by simp)

/-- Nothing is lost by rounding when whole seconds are told. -/
theorem age_eq_ofSeconds {duration : Duration} {seconds : Nat} (amounts : duration.Amounts seconds)
    (below : seconds < 2 ^ 47) : duration.age = .ok (.ofSeconds seconds) := by
  cases duration with
  | whole number =>
      obtain rfl : number = seconds := amounts
      obtain ⟨⟨significand, exponent, shape⟩, minutes⟩ :=
        wholePart_minutes false (show 0 < 60 by omega) (Eq.refl (seconds * 60)) below (by simp)
      have hours := wholePart_hours false (show 0 < 3600 by omega) (Eq.refl (seconds * 3600)) below
      rw [shape] at minutes
      simp [age, ageOfWhole, shape, minutes, hours, Age.ofSeconds, bind, Except.bind, pure,
        Except.pure]
  | fractional number =>
      obtain ⟨negative, significand, exponent, rfl, equal, nothing⟩ := amounts
      have positive := Binary64.denominator_pos exponent
      have notNegative : (Binary64.finite negative significand exponent).isNegative = false := by
        cases negative with
        | false => rfl
        | true =>
            rw [nothing rfl, Nat.zero_mul, Binary64.numerator, Nat.mul_eq_zero] at equal
            have zero := equal.resolve_right (Nat.two_pow_pos _).ne'
            simp [Binary64.isNegative, zero]
      have whole : wholePart (.finite negative significand exponent) = .ok seconds := by
        refine wholePart_finite ?_ nothing
        rw [Binary64.floor_magnitude, equal, Nat.mul_div_cancel _ positive]
      have part (divisor : Nat) : Binary64.numerator significand exponent * divisor =
          seconds * (Binary64.denominator exponent * divisor) := by
        rw [equal, Nat.mul_assoc]
      have minutes := (wholePart_minutes negative (Nat.mul_pos positive (show 0 < 60 by omega))
        (part 60) below nothing).2
      have hours := wholePart_hours negative (Nat.mul_pos positive (show 0 < 3600 by omega))
        (part 3600) below
      simp [age, notNegative, ageOfFraction, whole, Binary64.dividedBy, minutes, hours,
        Age.ofSeconds, bind, Except.bind, pure, Except.pure]

/-- A duration below zero has the age of none. -/
theorem age_of_isNegative {duration : Duration} (negative : duration.IsNegative) :
    duration.age = .ok (.ofSeconds 0) := by
  have amounts : Amounts (.whole 0) 0 := rfl
  have none : age (.whole 0) = .ok (.ofSeconds 0) := age_eq_ofSeconds amounts (by omega)
  rw [← none]
  cases duration with
  | whole number =>
      have nothing : number.toNat = 0 := Int.toNat_of_nonpos (Int.le_of_lt negative)
      rw [age, age, nothing, Int.toNat_zero]
  | fractional number => exact if_pos negative

end Duration

/-! ## What is told of an age -/

/-- Hours as they are told: in days from two days on, in weeks from two weeks on, in months from two
months on and in years from two years on. -/
def hoursTold (hours : Nat) : Nat :=
  if hours < 48 then hours
  else if hours < 24 * 7 * 2 then hours / 24 * 24
  else if hours < 24 * 30 * 2 then hours / 24 / 7 * (7 * 24)
  else if hours < 24 * 365 * 2 then hours / 24 / 30 * (30 * 24)
  else hours / 24 / 365 * (365 * 24)

/-- Seconds as they are told: in minutes from one minute on, and in hours from one hour on. -/
def secondsTold (seconds : Nat) : Nat :=
  if seconds < 60 then seconds
  else if seconds < 3600 then seconds / 60 * 60
  else hoursTold ((seconds + 1800) / 3600) * 3600

/-- Of more hours no fewer are told. -/
theorem hoursTold_mono {hours more : Nat} (ordered : hours ≤ more) :
    hoursTold hours ≤ hoursTold more := by
  unfold hoursTold
  split_ifs <;> omega

/-- No more hours are told than there are. -/
theorem hoursTold_le (hours : Nat) : hoursTold hours ≤ hours := by
  unfold hoursTold
  split_ifs <;> omega

/-- One hour and more is told of one hour and more. -/
theorem hoursTold_pos {hours : Nat} (some : 1 ≤ hours) : 1 ≤ hoursTold hours := by
  have told := hoursTold_mono some
  rwa [show hoursTold 1 = 1 by decide] at told

/-- Of more seconds no fewer are told. -/
theorem secondsTold_mono {seconds more : Nat} (ordered : seconds ≤ more) :
    secondsTold seconds ≤ secondsTold more := by
  have hours : hoursTold ((seconds + 1800) / 3600) ≤ hoursTold ((more + 1800) / 3600) :=
    hoursTold_mono (by omega)
  have some : 3600 ≤ more -> 1 ≤ hoursTold ((more + 1800) / 3600) := fun long =>
    hoursTold_pos (by omega)
  unfold secondsTold
  split_ifs <;> omega

/-- At most half an hour more is told than there is. -/
theorem secondsTold_le (seconds : Nat) : secondsTold seconds ≤ seconds + 1800 := by
  have hours := hoursTold_le ((seconds + 1800) / 3600)
  unfold secondsTold
  split_ifs <;> omega

/-- What is told fits a number of seconds: it is what is told of them, and less than one unit is
missing. Where it is several of a unit, it is two at least. -/
structure Telling.Fits (told : Telling) (seconds : Nat) : Prop where
  equal : told.seconds = secondsTold seconds
  missing : seconds < told.seconds + told.unit.seconds
  several : ∀ count unit, told = .several count unit -> 2 ≤ count

/-- Several of a unit fit. -/
theorem Telling.fits_several {count seconds : Nat} {unit : AgeUnit}
    (equal : count * unit.seconds = secondsTold seconds)
    (missing : seconds < count * unit.seconds + unit.seconds) (two : 2 ≤ count) :
    Fits (.several count unit) seconds where
  equal := equal
  missing := missing
  several := by
    rintro _ _ ⟨⟩
    exact two

/-- Several of a unit of whole hours fit if they are what is told of the hours. -/
theorem Telling.fits_hours {seconds count : Nat} {unit : AgeUnit} (each : Nat)
    (long : 3600 ≤ seconds) (isUnit : unit.seconds = each * 3600)
    (told : hoursTold ((seconds + 1800) / 3600) = count * each)
    (missing : (seconds + 1800) / 3600 < count * each + each) (two : 2 ≤ count) :
    Fits (.several count unit) seconds := by
  have equal : secondsTold seconds = count * unit.seconds := by
    rw [secondsTold, if_neg (by omega), if_neg (by omega), told, isUnit, Nat.mul_assoc]
  refine fits_several equal.symm ?_ two
  rw [isUnit, ← Nat.mul_assoc]
  omega

/-- A number of units that fits is what its words are read as. -/
theorem exists_read?_counted {seconds count : Nat} (unit : AgeUnit)
    (fits : (Telling.several count unit).Fits seconds) :
    ∃ told, Telling.read? (Age.counted count unit.plural) = some told ∧ told.Fits seconds :=
  ⟨_, Telling.read?_counted count unit, fits⟩

/-- From one hour on, the words are read as something that fits. -/
theorem exists_read?_ofLong {seconds : Nat} (long : 3600 ≤ seconds) :
    ∃ told, Telling.read? (Age.ofSeconds seconds).words = some told ∧ told.Fits seconds := by
  unfold Age.words Age.ofSeconds
  dsimp only
  rw [if_neg (by omega), if_neg (by omega), if_neg (by omega), if_neg (by omega),
    if_neg (by omega)]
  by_cases one : (seconds + 1800) / 3600 = 1
  · rw [if_pos one]
    have equal : 3600 = secondsTold seconds := by
      rw [secondsTold, if_neg (by omega), if_neg (by omega), one]
      rfl
    exact ⟨.one .hour, by decide, equal, show seconds < 3600 + 3600 by omega, by simp⟩
  rw [if_neg one]
  by_cases hours : (seconds + 1800) / 3600 < 48
  · rw [if_pos hours]
    refine exists_read?_counted .hour ?_
    refine Telling.fits_hours 1 long rfl ?_ (by omega) (by omega)
    rw [hoursTold, if_pos hours, Nat.mul_one]
  rw [if_neg hours]
  by_cases days : (seconds + 1800) / 3600 < 24 * 7 * 2
  · rw [if_pos days]
    refine exists_read?_counted .day ?_
    refine Telling.fits_hours 24 long rfl ?_ (by omega) (by omega)
    rw [hoursTold, if_neg hours, if_pos days]
  rw [if_neg days]
  by_cases weeks : (seconds + 1800) / 3600 < 24 * 30 * 2
  · rw [if_pos weeks]
    refine exists_read?_counted .week ?_
    refine Telling.fits_hours (7 * 24) long rfl ?_ (by omega) (by omega)
    rw [hoursTold, if_neg hours, if_neg days, if_pos weeks]
  rw [if_neg weeks]
  by_cases months : (seconds + 1800) / 3600 < 24 * 365 * 2
  · rw [if_pos months]
    refine exists_read?_counted .month ?_
    refine Telling.fits_hours (30 * 24) long rfl ?_ (by omega) (by omega)
    rw [hoursTold, if_neg hours, if_neg days, if_neg weeks, if_pos months]
  · rw [if_neg months]
    refine exists_read?_counted .year ?_
    refine Telling.fits_hours (365 * 24) long rfl ?_ (by omega) (by omega)
    rw [hoursTold, if_neg hours, if_neg days, if_neg weeks, if_neg months]

/-- The words for whole seconds are read as something that fits. -/
theorem exists_read?_words (seconds : Nat) :
    ∃ told, Telling.read? (Age.ofSeconds seconds).words = some told ∧ told.Fits seconds := by
  by_cases long : 3600 ≤ seconds
  · exact exists_read?_ofLong long
  unfold Age.words Age.ofSeconds
  dsimp only
  by_cases nothing : seconds < 1
  · rw [if_pos nothing]
    obtain rfl : seconds = 0 := by omega
    exact ⟨.underSecond, by decide, by decide, by decide, by simp⟩
  rw [if_neg nothing]
  by_cases one : seconds = 1
  · rw [if_pos one]
    subst one
    exact ⟨.one .second, by decide, by decide, by decide, by simp⟩
  rw [if_neg one]
  by_cases short : seconds < 60
  · rw [if_pos short]
    have equal : seconds * 1 = secondsTold seconds := by rw [secondsTold, if_pos short, Nat.mul_one]
    have missing : seconds < seconds * 1 + 1 := by omega
    exact exists_read?_counted .second (Telling.fits_several equal missing (by omega))
  rw [if_neg short]
  by_cases oneMinute : seconds / 60 = 1
  · rw [if_pos oneMinute]
    have equal : 60 = secondsTold seconds := by
      rw [secondsTold, if_neg short, if_pos (by omega), oneMinute]
    exact ⟨.one .minute, by decide, equal, show seconds < 60 + 60 by omega, by simp⟩
  rw [if_neg oneMinute, if_pos (by omega)]
  have equal : seconds / 60 * 60 = secondsTold seconds := by
    rw [secondsTold, if_neg short, if_pos (by omega)]
  have missing : seconds < seconds / 60 * 60 + 60 := by omega
  exact exists_read?_counted .minute (Telling.fits_several equal missing (by omega))

/-! ## Durations -/

/-- The words for a duration tell something. -/
def Duration.Tells (duration : Duration) (told : Telling) : Prop :=
  ∃ words, duration.words = .ok words ∧ Telling.read? words = some told

/-- A duration of whole seconds tells something that fits them. -/
theorem Duration.Amounts.exists_tells {duration : Duration} {seconds : Nat}
    (amounts : duration.Amounts seconds) (below : seconds < 2 ^ 47) :
    ∃ told, duration.Tells told ∧ told.Fits seconds := by
  obtain ⟨told, read, fits⟩ := exists_read?_words seconds
  refine ⟨told, ⟨_, ?_, read⟩, fits⟩
  rw [words, age_eq_ofSeconds amounts below]
  rfl

/-- A duration below zero tells of less than a second. -/
theorem Duration.IsNegative.tells {duration : Duration} (negative : duration.IsNegative) :
    duration.Tells .underSecond := by
  refine ⟨_, ?_, show Telling.read? (Age.ofSeconds 0).words = _ by decide⟩
  rw [words, age_of_isNegative negative]
  rfl

/-- Of two durations of whole seconds, neither longer than any two times can be apart, what is told
of the longer one is no less. Half an hour more than there is is told of a duration at most, and
less than one unit is missing; where it is several of a unit, it is two at least. Nothing is told of
a duration below zero. -/
theorem words_tell_duration {shorter longer : Duration} {few many : Nat}
    (amountsFew : shorter.Amounts few) (amountsMany : longer.Amounts many) (ordered : few ≤ many)
    (range : many ≤ 86399999999999) :
    (∃ less more, shorter.Tells less ∧ longer.Tells more ∧ less.seconds ≤ more.seconds ∧
      more.seconds ≤ many + 1800 ∧ many < more.seconds + more.unit.seconds ∧
      ∀ count unit, more = .several count unit -> 2 ≤ count) ∧
    ∀ negative : Duration, negative.IsNegative ->
      ∃ nothing, negative.Tells nothing ∧ nothing.seconds = 0 := by
  obtain ⟨less, tellsLess, fitsLess⟩ := amountsFew.exists_tells (by omega)
  obtain ⟨more, tellsMore, fitsMore⟩ := amountsMany.exists_tells (by omega)
  refine ⟨⟨less, more, tellsLess, tellsMore, ?_, ?_, fitsMore.missing, fitsMore.several⟩, ?_⟩
  · rw [fitsLess.equal, fitsMore.equal]
    exact secondsTold_mono ordered
  · rw [fitsMore.equal]
    exact secondsTold_le many
  · intro negative below
    exact ⟨.underSecond, below.tells, rfl⟩

/-- An hour less one second, an hour and a half as a number of double precision, which is rounded up
by as much as possible, and half a second below zero. -/
theorem words_tell_duration_oneHourAndHalf :
    let longer := Duration.fractional (.finite false (5400 * 2 ^ 40) (-40))
    let negative := Duration.fractional (.finite true 1 (-1))
    Duration.Amounts (.whole 3599) 3599 ∧ longer.Amounts 5400 ∧
      negative.IsNegative ∧ longer.words = .ok "2 hours" ∧
      (∃ less more, Duration.Tells (.whole 3599) less ∧ longer.Tells more ∧
        less.seconds ≤ more.seconds ∧ more.seconds ≤ 5400 + 1800) ∧
      ∃ nothing, negative.Tells nothing ∧ nothing.seconds = 0 := by
  intro longer negative
  have short : Duration.Amounts (.whole 3599) 3599 := rfl
  have long : longer.Amounts 5400 := ⟨false, 5400 * 2 ^ 40, -40, rfl, by decide, by simp⟩
  obtain ⟨⟨less, more, tellsLess, tellsMore, ordered, atMost, -⟩, belowZero⟩ :=
    words_tell_duration short long (by omega) (by omega)
  exact ⟨short, long, rfl, by decide +kernel, ⟨less, more, tellsLess, tellsMore, ordered, atMost⟩,
    belowZero negative rfl⟩

end Calendar

end AuditTrail
