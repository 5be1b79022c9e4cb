import AuditTrail.Calendar.Age
import AuditTrail.Proofs.Calendar.Days
import AuditTrail.Proofs.Number.Rounding

/-!
# Which times can be shown

An age can be told of every timestamp, since any two of them are so near to each other that no
number of seconds between them becomes infinite. A clock only reads times of the calendar: the
instant, as universal time and on the clock, must lie in the years 1 to 9999. Nothing else can go
wrong when a time is shown: `TimeStyle.text_eq_error_iff`.
-/

namespace AuditTrail.Calendar

/-- A wall clock reading of the years 1 to 9999. -/
def IsInCalendar (wall : Int) : Prop := 0 ≤ wall ∧ wall < span

namespace Timestamp

/-- A reading of the calendar makes a timestamp. -/
theorem ofWall?_eq_some_iff {wall : Int} {offset : Offset} {t : Timestamp} :
    ofWall? wall offset = some t ↔ (t.wall : Int) = wall ∧ t.offset = offset := by
  unfold ofWall?
  constructor
  · intro made
    split at made
    next within =>
      cases made
      exact ⟨Int.toNat_of_nonneg within.1, rfl⟩
    next => cases made
  · rintro ⟨rfl, rfl⟩
    rw [dif_pos ⟨Int.natCast_nonneg _, t.wall_lt⟩]
    rfl

/-- Other readings make none. -/
theorem ofWall?_eq_none_iff {wall : Int} (offset : Offset) :
    ofWall? wall offset = none ↔ ¬IsInCalendar wall := by
  unfold ofWall? IsInCalendar
  split <;> simp only [reduceCtorEq, false_iff, true_iff, not_not] <;> omega

/-- Whether the reading is of the calendar is all that is asked of it. -/
theorem exists_ofWall?_iff {wall : Int} (offset : Offset) :
    (∃ t, ofWall? wall offset = some t) ↔ IsInCalendar wall := by
  rw [← not_iff_not, ← ofWall?_eq_none_iff offset, Option.eq_none_iff_forall_ne_some]
  simp

/-- The instant on another clock: the reading is the instant with the offset of that clock. -/
theorem inZone_eq_ok_iff {zone : Offset} {t read : Timestamp} :
    t.inZone zone = .ok read ↔
      IsInCalendar t.instant ∧ (read.wall : Int) = t.instant + zone.ahead ∧ read.offset = zone := by
  unfold inZone
  rw [← ofWall?_eq_some_iff, ← exists_ofWall?_iff Offset.utc]
  cases universal : ofWall? t.instant Offset.utc with
  | none => simp
  | some utc =>
      have reading := (ofWall?_eq_some_iff.mp universal).1
      simp only [reading]
      cases ofWall? (t.instant + zone.ahead) zone <;> simp

/-- Where the instant as universal time or the reading of the other clock is out of the calendar,
there is no such timestamp, and only there. -/
theorem inZone_eq_error_iff {zone : Offset} {t : Timestamp} {fault : Fault} :
    t.inZone zone = .error fault ↔
      fault = .outOfRange ∧ ¬(IsInCalendar t.instant ∧ IsInCalendar (t.instant + zone.ahead)) := by
  unfold inZone
  rw [← exists_ofWall?_iff Offset.utc, ← exists_ofWall?_iff zone]
  cases universal : ofWall? t.instant Offset.utc with
  | none => simp [eq_comm]
  | some utc =>
      have reading := (ofWall?_eq_some_iff.mp universal).1
      simp only [reading]
      cases ofWall? (t.instant + zone.ahead) zone <;> simp [eq_comm]

end Timestamp

/-! ## Ages -/

/-- A finite number has a whole part. -/
theorem Duration.exists_wholePart {x : Binary64} {bound : Nat} (atMost : x.IsAtMost bound) :
    ∃ whole, wholePart x = .ok whole := by
  obtain ⟨negative, significand, exponent, rfl, -⟩ := atMost
  exact ⟨_, rfl⟩

/-- Whole seconds below a power of two amount to an age. -/
theorem Duration.exists_ageOfWhole {seconds power : Nat} (below : seconds < 2 ^ power)
    (small : power < 1000) : ∃ age, ageOfWhole seconds = .ok age := by
  have inMinutes := Binary64.isAtMost_ofRatio false (show 0 < 60 by omega)
    (show seconds < 2 ^ power * 60 by omega) small.le
  have inHours := Binary64.isAtMost_ofRatio false (show 0 < 3600 by omega)
    (show seconds < 2 ^ power * 3600 by omega) small.le
  obtain ⟨minutes, hasMinutes⟩ := exists_wholePart inMinutes
  obtain ⟨hours, hasHours⟩ := exists_wholePart (inHours.plusHalf small)
  obtain ⟨negative, significand, exponent, finite, -⟩ := inMinutes
  rw [finite] at hasMinutes
  refine ⟨⟨seconds, minutes, hours⟩, ?_⟩
  simp [ageOfWhole, finite, hasMinutes, hasHours, bind, Except.bind, pure, Except.pure]

/-- Seconds that are at most a power of two amount to an age. -/
theorem Duration.exists_age {seconds : Binary64} {power : Nat}
    (atMost : seconds.IsAtMost (2 ^ power)) (small : power < 1000) :
    ∃ age, (Duration.fractional seconds).age = .ok age := by
  unfold age
  dsimp only
  split
  next => exact exists_ageOfWhole (Nat.two_pow_pos power) small
  next =>
    obtain ⟨whole, hasWhole⟩ := exists_wholePart atMost
    obtain ⟨minutes, hasMinutes⟩ :=
      exists_wholePart (atMost.dividedBy (show 1 < 60 by omega) small.le)
    obtain ⟨hours, hasHours⟩ :=
      exists_wholePart ((atMost.dividedBy (show 1 < 3600 by omega) small.le).plusHalf small)
    refine ⟨⟨whole, minutes, hours⟩, ?_⟩
    simp [ageOfFraction, hasWhole, hasMinutes, hasHours, bind, Except.bind, pure, Except.pure]

/-- The instant of a timestamp is less than a day outside the calendar. -/
theorem Timestamp.instant_bounds (t : Timestamp) :
    -(day : Int) < t.instant ∧ t.instant < (span : Int) + day := by
  have reading := t.wall_lt
  have offset := t.offset.withinDay
  unfold instant
  omega

/-- The seconds between two timestamps are fewer than a power of two. -/
theorem exists_secondsBetween (earlier later : Timestamp) :
    ∃ seconds, secondsBetween earlier.instant later.instant = .fractional seconds ∧
      seconds.IsAtMost (2 ^ 40) := by
  refine ⟨_, rfl, Binary64.isAtMost_ofRatio _ (by decide) ?_ (by omega)⟩
  have ofEarlier := earlier.instant_bounds
  have ofLater := later.instant_bounds
  simp only [span, day, hour, minute, second, daySpan_eq] at *
  omega

namespace TimeStyle

/-- The style has a text for the timestamp: as an age always, and on a clock if the instant lies in
the calendar both as universal time and as the clock reads it. -/
def CanShow : TimeStyle -> Timestamp -> Prop
  | .clock zone, t => IsInCalendar t.instant ∧ IsInCalendar (t.instant + zone.ahead)
  | .age _, _ => True

/-- A time that cannot be shown is out of the calendar, and no other time cannot be shown. -/
theorem text_eq_error_iff {style : TimeStyle} {t : Timestamp} {fault : Fault} :
    style.text t = .error fault ↔ fault = .outOfRange ∧ ¬style.CanShow t := by
  cases style with
  | clock zone =>
      rw [CanShow, ← Timestamp.inZone_eq_error_iff, text]
      cases t.inZone zone <;> simp [Except.map]
  | age now =>
      obtain ⟨seconds, between, atMost⟩ := exists_secondsBetween t now
      obtain ⟨age, amounts⟩ := Duration.exists_age atMost (by omega)
      simp [text, CanShow, between, Duration.words, amounts, Except.map]

/-- There is a text for the times that can be shown. -/
theorem exists_text_iff {style : TimeStyle} {t : Timestamp} :
    (∃ shown, style.text t = .ok shown) ↔ style.CanShow t := by
  cases shown : style.text t with
  | ok text =>
      simp only [Except.ok.injEq, exists_eq', true_iff]
      by_contra cannot
      have refused := text_eq_error_iff.mpr ⟨rfl, cannot⟩
      rw [shown] at refused
      cases refused
  | error fault =>
      obtain ⟨-, cannot⟩ := text_eq_error_iff.mp shown
      simp [cannot]

/-- What a clock shows is written to the second. -/
theorem clock_text_eq_ok_iff {zone : Offset} {t : Timestamp} {shown : Text} :
    (clock zone).text t = .ok shown ↔
      ∃ reading, t.inZone zone = .ok reading ∧ reading.textToSecond = shown := by
  rw [text]
  cases t.inZone zone <;> simp [Except.map]

end TimeStyle

end AuditTrail.Calendar
