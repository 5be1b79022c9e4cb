import AuditTrail.Proofs.Number.Rounding
import Mathlib.Algebra.Order.Field.Basic
import Mathlib.Algebra.Order.Field.Rat
import Mathlib.Data.Nat.Cast.Order.Field
import Mathlib.Algebra.Order.Floor.Semifield
import Mathlib.Data.Rat.Floor
import Mathlib.Tactic.FieldSimp
import Mathlib.Tactic.Linarith
import Mathlib.Tactic.NormNum
import Mathlib.Tactic.Positivity

/-!
# Rounding keeps whole parts

A ratio that is not too large is rounded to a number with many binary places behind the point, so
that no multiple of a place in front of these lies between the two: `exists_ofRatio`. The whole part
of a quotient by a small divisor is therefore the same before and after rounding
(`IsNear.floor_quotient`), and so is that of a quotient which is rounded, increased by one half and
rounded again (`IsNear.floor_halfMore`).
-/

namespace AuditTrail

/-- Rounding to a whole number never leads below the quotient. -/
theorem div_le_nearestWhole (numerator denominator : Nat) :
    numerator / denominator ≤ nearestWhole numerator denominator := by
  unfold nearestWhole
  dsimp only
  split <;> omega

/-- Rounding to a whole number leads to the next one at most. -/
theorem nearestWhole_le_div_add_one (numerator denominator : Nat) :
    nearestWhole numerator denominator ≤ numerator / denominator + 1 := by
  unfold nearestWhole
  dsimp only
  split <;> omega

namespace Binary64

/-- The magnitude of a finite number. -/
def magnitude (significand : Nat) (exponent : Int) : ℚ :=
  numerator significand exponent / denominator exponent

/-- The whole part of a magnitude is a quotient of whole numbers. -/
theorem floor_magnitude (significand : Nat) (exponent : Int) :
    ⌊magnitude significand exponent⌋₊ = numerator significand exponent / denominator exponent :=
  Nat.floor_div_eq_div _ _

/-- A number lies as near to a ratio as rounding to a number of binary places leaves it: no multiple
of the last place is lost, and one such multiple is gained at most. -/
structure IsNear (places : Nat) (ratio rounded : ℚ) : Prop where
  keeps : ∀ steps : Nat, steps / 2 ^ places ≤ ratio → steps / 2 ^ places ≤ rounded
  gains : rounded ≤ ratio + 1 / 2 ^ places

/-! ## Rounding a ratio -/

/-- A carry changes the significand and the exponent, and not the magnitude. -/
theorem magnitude_carry (exponent : Int) :
    magnitude (significandBound / 2) (exponent + 1) = magnitude significandBound exponent := by
  have halves : ((significandBound : Nat) : ℚ) = 2 * ((significandBound / 2 : Nat) : ℚ) := by
    rw [show significandBound = 2 * (significandBound / 2) by decide]
    norm_num
  unfold magnitude numerator denominator
  by_cases negative : exponent < 0
  · rw [show exponent.toNat = 0 by omega, show (exponent + 1).toNat = 0 by omega,
      show (-exponent).toNat = (-(exponent + 1)).toNat + 1 by omega]
    push_cast [Nat.pow_eq, pow_succ, halves]
    field_simp
  · rw [show (-exponent).toNat = 0 by omega, show (-(exponent + 1)).toNat = 0 by omega,
      show (exponent + 1).toNat = exponent.toNat + 1 by omega]
    push_cast [Nat.pow_eq, pow_succ, halves]
    ring

/-- A ratio whose scaled quotient is rounded to a whole number is near to what this number stands
for. -/
theorem isNear_scaled {num den places bits significand : Nat} (positive : 0 < den)
    (enough : places ≤ bits) (atLeast : num * 2 ^ bits / den ≤ significand)
    (atMost : significand ≤ num * 2 ^ bits / den + 1) :
    IsNear places (num / den) (significand / 2 ^ bits) := by
  obtain ⟨more, rfl⟩ := Nat.exists_eq_add_of_le enough
  have denPos : (0 : ℚ) < den := by exact_mod_cast positive
  constructor
  · intro steps within
    rw [div_le_div_iff₀ (by positivity) denPos] at within
    have whole : steps * den ≤ num * 2 ^ places := by exact_mod_cast within
    have inBits : steps * 2 ^ more ≤ significand := by
      refine le_trans ((Nat.le_div_iff_mul_le positive).mpr ?_) atLeast
      calc steps * 2 ^ more * den
          = steps * den * 2 ^ more := by ring
        _ ≤ num * 2 ^ places * 2 ^ more := Nat.mul_le_mul_right _ whole
        _ = num * 2 ^ (places + more) := by ring
    have reached : (steps : ℚ) * 2 ^ more ≤ significand := by exact_mod_cast inBits
    rw [pow_add, div_le_div_iff₀ (by positivity) (by positivity)]
    calc (steps : ℚ) * (2 ^ places * 2 ^ more)
        = steps * 2 ^ more * 2 ^ places := by ring
      _ ≤ significand * 2 ^ places := mul_le_mul_of_nonneg_right reached (by positivity)
  · have quotient : ((num * 2 ^ (places + more) / den : Nat) : ℚ) ≤
        ((num * 2 ^ (places + more) : Nat) : ℚ) / den := Nat.cast_div_le
    have next : (significand : ℚ) ≤ ((num * 2 ^ (places + more) : Nat) : ℚ) / den + 1 := by
      have cast : (significand : ℚ) ≤ (num * 2 ^ (places + more) / den : Nat) + 1 := by
        exact_mod_cast atMost
      linarith
    have smaller : (1 : ℚ) / 2 ^ (places + more) ≤ 1 / 2 ^ places :=
      one_div_le_one_div_of_le (by positivity)
        (pow_le_pow_right₀ (by norm_num) (Nat.le_add_right _ _))
    calc (significand : ℚ) / 2 ^ (places + more)
        ≤ (((num * 2 ^ (places + more) : Nat) : ℚ) / den + 1) / 2 ^ (places + more) :=
          div_le_div_of_nonneg_right next (by positivity)
      _ = num / den + 1 / 2 ^ (places + more) := by
          push_cast
          field_simp
      _ ≤ num / den + 1 / 2 ^ places := by linarith

/-- A ratio that is rounded at an exponent of enough places is near to what it is rounded to. -/
theorem isNear_nearestWhole {num den places : Nat} {exponent : Int} (positive : 0 < den)
    (low : exponent ≤ -(places : Int)) :
    IsNear places (num / den) (magnitude
      (nearestWhole (num * Nat.pow 2 (-exponent).toNat) (den * Nat.pow 2 exponent.toNat))
      exponent) := by
  have noShift : exponent.toNat = 0 := by omega
  have value (significand : Nat) :
      magnitude significand exponent = significand / 2 ^ (-exponent).toNat := by
    simp [magnitude, numerator, denominator, noShift]
  rw [value, noShift]
  simp only [Nat.pow_eq, pow_zero, mul_one]
  exact isNear_scaled positive (by omega) (div_le_nearestWhole _ _)
    (nearestWhole_le_div_add_one _ _)

/-- A ratio below a power of two is rounded to a finite number that is near to it: all of the
fifty-two bits that the power leaves are places behind the point. -/
theorem exists_ofRatio {num den power : Nat} (places : Nat) (negative : Bool)
    (positive : 0 < den) (below : num < 2 ^ power * den) (bits : power + places ≤ 52) :
    ∃ significand exponent, ofRatio negative num den = .finite negative significand exponent ∧
      IsNear places (num / den) (magnitude significand exponent) := by
  unfold ofRatio
  split
  next zero =>
    refine ⟨0, leastExponent, rfl, ?_⟩
    have nothing : magnitude 0 leastExponent = 0 := by
      rw [magnitude, numerator, Nat.zero_mul, Nat.cast_zero, zero_div]
    rw [zero, nothing]
    exact ⟨fun steps within => by simpa using within, by simp⟩
  next nonzero =>
    have exponent := exponentFor_le nonzero below
    have least : leastExponent = -1074 := rfl
    have greatest : greatestExponent = 971 := rfl
    have low : exponentFor num den ≤ -(places : Int) := by omega
    have near : IsNear places (num / den) _ := isNear_nearestWhole positive low
    dsimp only
    rw [if_neg (by split <;> omega)]
    refine ⟨_, _, rfl, ?_⟩
    split
    next carried =>
      rw [magnitude_carry, ← carried]
      exact near
    next => exact near

/-! ## Whole parts -/

/-- Whole numbers are not lost by rounding. -/
theorem IsNear.keeps_whole {places whole : Nat} {ratio rounded : ℚ}
    (near : IsNear places ratio rounded) (within : (whole : ℚ) ≤ ratio) :
    (whole : ℚ) ≤ rounded := by
  have steps : ((whole * 2 ^ places : Nat) : ℚ) / 2 ^ places = whole := by
    push_cast
    field_simp
  rw [← steps] at within ⊢
  exact near.keeps _ within

/-- The remainder of a quotient keeps it a part of the divisor below the next whole number. -/
theorem quotient_add_le (count : Nat) {divisor : Nat} (positive : 0 < divisor) :
    (count : ℚ) / divisor + 1 / divisor ≤ (count / divisor : Nat) + 1 := by
  have next : count + 1 ≤ (count / divisor + 1) * divisor := by
    have remainder := Nat.lt_div_mul_add (a := count) positive
    rw [Nat.add_mul, one_mul]
    omega
  have divisorPos : (0 : ℚ) < divisor := by exact_mod_cast positive
  rw [← add_div, div_le_iff₀ divisorPos]
  exact_mod_cast next

/-- Rounding keeps the whole part of a quotient. -/
theorem IsNear.floor_quotient {places count divisor : Nat} {rounded : ℚ} (positive : 0 < divisor)
    (fine : divisor < 2 ^ places) (near : IsNear places (count / divisor) rounded) :
    ⌊rounded⌋₊ = count / divisor := by
  have divisorPos : (0 : ℚ) < divisor := by exact_mod_cast positive
  have step : (1 : ℚ) / 2 ^ places < 1 / divisor :=
    one_div_lt_one_div_of_lt divisorPos (by exact_mod_cast fine)
  have low : ((count / divisor : Nat) : ℚ) ≤ rounded := near.keeps_whole Nat.cast_div_le
  have high := quotient_add_le count positive
  have gains := near.gains
  rw [Nat.floor_eq_iff ((Nat.cast_nonneg _).trans low)]
  exact ⟨low, by linarith⟩

/-- So does rounding twice, before and behind adding one half. -/
theorem IsNear.floor_halfMore {places fewer count : Nat} (half : Nat) {quotient rounded : ℚ}
    (positive : 0 < half) (some : 0 < places)
    (fine : (1 : ℚ) / 2 ^ places + 1 / 2 ^ fewer < 1 / (2 * half : Nat))
    (near : IsNear places (count / (2 * half : Nat)) quotient)
    (nearAgain : IsNear fewer (quotient + 1 / 2) rounded) :
    ⌊rounded⌋₊ = (count + half) / (2 * half) := by
  have halfPos : (0 : ℚ) < half := by exact_mod_cast positive
  have exact :
      (count : ℚ) / (2 * half : Nat) + 1 / 2 = (count + half : Nat) / (2 * half : Nat) := by
    push_cast
    field_simp
  set whole := (count + half) / (2 * half) with isWhole
  have low : (whole : ℚ) ≤ rounded := by
    refine nearAgain.keeps_whole ?_
    -- A whole number less one half is a multiple of the last place too.
    have wholeAtMost : (whole : ℚ) ≤ count / (2 * half : Nat) + 1 / 2 := by
      rw [exact]
      exact Nat.cast_div_le
    cases isZero : whole with
    | zero =>
        have nonneg : ((0 : Nat) : ℚ) ≤ quotient :=
          near.keeps_whole (by rw [Nat.cast_zero]; positivity)
        rw [Nat.cast_zero] at nonneg ⊢
        linarith
    | succ before =>
        obtain ⟨less, rfl⟩ := Nat.exists_eq_add_of_lt some
        have steps : (((2 * before + 1) * 2 ^ less : Nat) : ℚ) / 2 ^ (0 + less + 1) =
            (before + 1 : Nat) - 1 / 2 := by
          push_cast [pow_succ, zero_add]
          field_simp
          ring
        have kept := near.keeps ((2 * before + 1) * 2 ^ less)
        rw [steps] at kept
        rw [isZero] at wholeAtMost
        linarith [kept (by linarith)]
  have high := quotient_add_le (count + half) (show 0 < 2 * half by omega)
  have gains := near.gains
  have gainsAgain := nearAgain.gains
  rw [Nat.floor_eq_iff ((Nat.cast_nonneg _).trans low)]
  exact ⟨low, by linarith⟩

end Binary64

end AuditTrail
