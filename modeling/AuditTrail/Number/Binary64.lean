import AuditTrail.Text.Basic

/-!
# Binary fractions of double precision

The fractional numbers of a record, kept as sign, significand and power of two so that
they are exact values. Every operation names an exact ratio and rounds it once, to the
nearest such number and on a tie to the one with the even significand.
-/

namespace AuditTrail

/-- A number of double precision: `significand * 2 ^ exponent` with a sign, an infinity, or
the value that is no number. -/
inductive Binary64 where
  | finite (negative : Bool) (significand : Nat) (exponent : Int)
  | infinite (negative : Bool)
  | nan
deriving DecidableEq, Repr

/-- `numerator / denominator` rounded to the nearest whole number, a tie to the even one. -/
def nearestWhole (numerator denominator : Nat) : Nat :=
  let quotient := numerator / denominator
  let remainder := numerator % denominator
  if denominator < 2 * remainder ∨ (denominator = 2 * remainder ∧ quotient % 2 = 1) then
    quotient + 1
  else quotient

namespace Binary64

/-- The least exponent. -/
def leastExponent : Int := -1074

/-- The greatest exponent. -/
def greatestExponent : Int := 971

/-- Every significand is below this power of two. -/
def significandBound : Nat := Nat.pow 2 53

/-- Zero with a sign. -/
def signedZero (negative : Bool) : Binary64 := .finite negative 0 leastExponent

/-- The exponent at which a ratio has fifty-three significant bits, or the least one. -/
def exponentFor (numerator denominator : Nat) : Int :=
  let estimate : Int := (numerator.log2 : Int) - denominator.log2 - 53
  let scaled :=
    numerator * Nat.pow 2 (-estimate).toNat / (denominator * Nat.pow 2 estimate.toNat)
  max leastExponent (if scaled < significandBound then estimate else estimate + 1)

/-- The number nearest to a ratio; one that is too large becomes infinite. -/
def ofRatio (negative : Bool) (numerator denominator : Nat) : Binary64 :=
  if numerator = 0 then signedZero negative
  else
    let exponent := exponentFor numerator denominator
    let significand :=
      nearestWhole (numerator * Nat.pow 2 (-exponent).toNat)
        (denominator * Nat.pow 2 exponent.toNat)
    let carried := significand = significandBound
    let exponent := if carried then exponent + 1 else exponent
    let significand := if carried then significandBound / 2 else significand
    if greatestExponent < exponent then .infinite negative
    else .finite negative significand exponent

/-- The numerator of a finite magnitude. -/
def numerator (significand : Nat) (exponent : Int) : Nat :=
  significand * Nat.pow 2 exponent.toNat

/-- The denominator of a finite magnitude. -/
def denominator (exponent : Int) : Nat := Nat.pow 2 (-exponent).toNat

/-- The whole number nearest to zero on the way from a finite number. -/
def truncated? : Binary64 -> Option Int
  | .finite negative significand exponent =>
    let magnitude : Int := (numerator significand exponent / denominator exponent : Nat)
    some (if negative then -magnitude else magnitude)
  | _ => none

/-- Whether the number is a zero of either sign. -/
def isZero : Binary64 -> Bool
  | .finite _ significand _ => significand = 0
  | _ => false

/-- Whether the number is below zero. -/
def isNegative : Binary64 -> Bool
  | .finite negative significand _ => negative && significand != 0
  | .infinite negative => negative
  | .nan => false

/-- A number divided by a positive whole number. -/
def dividedBy (x : Binary64) (divisor : Nat) : Binary64 :=
  match x with
  | .finite negative significand exponent =>
    ofRatio negative (numerator significand exponent) (denominator exponent * divisor)
  | other => other

/-- A number that is not negative, increased by one half. -/
def plusHalf (x : Binary64) : Binary64 :=
  match x with
  | .finite _ significand exponent =>
    let below := denominator exponent
    ofRatio false (2 * numerator significand exponent + below) (2 * below)
  | other => other

/-- The number nearest to `digits * 10 ^ power`. -/
def ofDecimal (negative : Bool) (digits : Nat) (power : Int) : Binary64 :=
  let magnitude : Int := (Nat.toDigits 10 digits).length + power
  if digits = 0 ∨ magnitude < -400 then signedZero negative
  else if 400 < magnitude then .infinite negative
  else ofRatio negative (digits * Nat.pow 10 power.toNat) (Nat.pow 10 (-power).toNat)

end Binary64

end AuditTrail
