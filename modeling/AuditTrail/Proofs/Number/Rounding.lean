import AuditTrail.Number.Binary64
import Mathlib.Tactic.Ring

/-!
# Rounding stays below a power of two

A power of two is a number of double precision itself, so no ratio below it is rounded to more than
it, and only a very large one becomes infinite: `isAtMost_ofRatio`. Dividing does not lead above the
power, and adding one half leads to twice the power at most. How near the rounded number is to the
ratio is not said here.
-/

namespace AuditTrail

/-- A ratio that is at most a whole number is not rounded to more than it. -/
theorem nearestWhole_le {numerator denominator bound : Nat} (positive : 0 < denominator)
    (atMost : numerator ≤ bound * denominator) : nearestWhole numerator denominator ≤ bound := by
  have parts := Nat.div_add_mod numerator denominator
  have quotient : numerator / denominator ≤ bound := Nat.div_le_of_le_mul (by rwa [mul_comm])
  unfold nearestWhole
  dsimp only
  split
  next up =>
    -- What is rounded up has a remainder, so that its quotient lies below the bound.
    have remains : 0 < numerator % denominator := by omega
    by_contra exceeds
    have exact : numerator / denominator = bound := by omega
    rw [exact, mul_comm] at parts
    omega
  next => exact quotient

namespace Binary64

/-- The denominator of a finite number is a power of two. -/
theorem denominator_pos (exponent : Int) : 0 < denominator exponent := Nat.two_pow_pos _

/-- A finite number whose magnitude is a whole number at most. -/
def IsAtMost (bound : Nat) (x : Binary64) : Prop :=
  ∃ negative significand exponent, x = .finite negative significand exponent ∧
    numerator significand exponent ≤ bound * denominator exponent

/-- A ratio below a power of two has its fifty-three bits below it. -/
theorem exponentFor_le {num den power : Nat} (nonzero : num ≠ 0)
    (below : num < 2 ^ power * den) :
    exponentFor num den ≤ max leastExponent ((power : Int) - 52) := by
  have bits : num.log2 < power + (den.log2 + 1) := by
    rw [← Nat.pow_lt_pow_iff_right (show 1 < 2 by omega)]
    calc 2 ^ num.log2
        ≤ num := Nat.log2_self_le nonzero
      _ < 2 ^ power * den := below
      _ ≤ 2 ^ power * 2 ^ (den.log2 + 1) := Nat.mul_le_mul_left _ Nat.lt_log2_self.le
      _ = 2 ^ (power + (den.log2 + 1)) := (pow_add _ _ _).symm
  unfold exponentFor
  dsimp only
  split <;> omega

/-- The significand of a ratio below a power of two does not lead above the power. -/
theorem significand_le {num den power : Nat} {exponent : Int} (positive : 0 < den)
    (below : num < 2 ^ power * den) (low : exponent ≤ power) :
    numerator (nearestWhole (num * Nat.pow 2 (-exponent).toNat) (den * Nat.pow 2 exponent.toNat))
      exponent ≤ 2 ^ power * denominator exponent := by
  obtain ⟨above, split⟩ := Nat.exists_eq_add_of_le (show exponent.toNat ≤ power by omega)
  have atMost : num * 2 ^ (-exponent).toNat ≤
      2 ^ above * 2 ^ (-exponent).toNat * (den * 2 ^ exponent.toNat) := by
    calc num * 2 ^ (-exponent).toNat
        ≤ 2 ^ power * den * 2 ^ (-exponent).toNat := Nat.mul_le_mul_right _ below.le
      _ = 2 ^ above * 2 ^ (-exponent).toNat * (den * 2 ^ exponent.toNat) := by
        rw [split, pow_add]
        ring
  have rounded := nearestWhole_le (Nat.mul_pos positive (Nat.two_pow_pos exponent.toNat)) atMost
  calc _ ≤ 2 ^ above * 2 ^ (-exponent).toNat * 2 ^ exponent.toNat := Nat.mul_le_mul_right _ rounded
    _ = 2 ^ power * 2 ^ (-exponent).toNat := by
      rw [split, pow_add]
      ring

/-- A significand that has one bit too many is the next power of two, which one exponent more leaves
where it is. -/
theorem carry_le {bound : Nat} {exponent : Int}
    (atMost : numerator significandBound exponent ≤ bound * denominator exponent) :
    numerator (significandBound / 2) (exponent + 1) ≤ bound * denominator (exponent + 1) := by
  have halves : significandBound = 2 * (significandBound / 2) := by decide
  unfold numerator denominator at *
  by_cases negative : exponent < 0
  · have exponents : (-exponent).toNat = (-(exponent + 1)).toNat + 1 := by omega
    rw [show exponent.toNat = 0 by omega, exponents, halves] at atMost
    rw [show (exponent + 1).toNat = 0 by omega]
    simp only [Nat.pow_eq, pow_succ, pow_zero, mul_one, ← mul_assoc] at atMost ⊢
    omega
  · rw [show (-exponent).toNat = 0 by omega, halves] at atMost
    rw [show (-(exponent + 1)).toNat = 0 by omega,
      show (exponent + 1).toNat = exponent.toNat + 1 by omega]
    simp only [Nat.pow_eq, pow_succ] at atMost ⊢
    calc significandBound / 2 * (2 ^ exponent.toNat * 2)
        = 2 * (significandBound / 2) * 2 ^ exponent.toNat := by ring
      _ ≤ bound * 2 ^ 0 := atMost

/-- A ratio below a power of two is rounded to a finite number that is at most this power. -/
theorem isAtMost_ofRatio {num den power : Nat} (negative : Bool) (positive : 0 < den)
    (below : num < 2 ^ power * den) (small : power ≤ 1000) :
    (ofRatio negative num den).IsAtMost (2 ^ power) := by
  unfold ofRatio
  split
  next => exact ⟨negative, 0, leastExponent, rfl, by simp [numerator]⟩
  next nonzero =>
    have exponent := exponentFor_le nonzero below
    have least : leastExponent = -1074 := rfl
    have greatest : greatestExponent = 971 := rfl
    have atMost := significand_le positive below (show exponentFor num den ≤ power by omega)
    dsimp only
    rw [if_neg (by split <;> omega)]
    refine ⟨negative, _, _, rfl, ?_⟩
    split
    next carried => exact carry_le (carried ▸ atMost)
    next => exact atMost

/-- Dividing by a whole number keeps a number at most as great. -/
theorem IsAtMost.dividedBy {x : Binary64} {power divisor : Nat} (atMost : x.IsAtMost (2 ^ power))
    (several : 1 < divisor) (small : power ≤ 1000) :
    (x.dividedBy divisor).IsAtMost (2 ^ power) := by
  obtain ⟨negative, significand, exponent, rfl, bounded⟩ := atMost
  have positive := denominator_pos exponent
  refine isAtMost_ofRatio negative (Nat.mul_pos positive (by omega)) ?_ small
  calc numerator significand exponent
      ≤ 2 ^ power * denominator exponent := bounded
    _ < 2 ^ power * (denominator exponent * divisor) :=
      Nat.mul_lt_mul_of_pos_left ((Nat.lt_mul_iff_one_lt_right positive).mpr several)
        (Nat.two_pow_pos _)

/-- Adding one half leads to twice the bound at most. -/
theorem IsAtMost.plusHalf {x : Binary64} {power : Nat} (atMost : x.IsAtMost (2 ^ power))
    (small : power < 1000) : x.plusHalf.IsAtMost (2 ^ (power + 1)) := by
  obtain ⟨negative, significand, exponent, rfl, bounded⟩ := atMost
  have positive := denominator_pos exponent
  refine isAtMost_ofRatio false (Nat.mul_pos (by omega) positive) ?_ small
  have unit := Nat.le_mul_of_pos_left (denominator exponent) (Nat.two_pow_pos power)
  calc 2 * numerator significand exponent + denominator exponent
      ≤ 2 * (2 ^ power * denominator exponent) + 2 ^ power * denominator exponent :=
        Nat.add_le_add (Nat.mul_le_mul_left 2 bounded) unit
    _ < 4 * (2 ^ power * denominator exponent) := by
        have := Nat.mul_pos (Nat.two_pow_pos power) positive
        omega
    _ = 2 ^ (power + 1) * (2 * denominator exponent) := by
        rw [pow_succ]
        ring

end Binary64

end AuditTrail
