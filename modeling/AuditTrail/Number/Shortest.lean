import AuditTrail.Number.Binary64

/-!
# The shortest numeral that reads back

A fractional number is written with the fewest significant digits that round to it again,
and of several such numerals with the nearest. Numerals are positional from `1e-04` up to
sixteen places before the point, and always show a point or an exponent.
-/

namespace AuditTrail.Binary64

/-- The numbers that round to a given one, measured in quarters of its last place: the
number itself, the two ends and whether the ends belong to them. -/
structure Neighbourhood where
  low : Nat
  middle : Nat
  high : Nat
  closed : Bool

/-- The neighbourhood of a finite number. The gap below a power of two is half as wide. -/
def neighbourhood (significand : Nat) (exponent : Int) : Neighbourhood :=
  let narrow := significand = significandBound / 2 ∧ leastExponent < exponent
  ⟨4 * significand - (if narrow then 1 else 2), 4 * significand, 4 * significand + 2,
    significand % 2 = 0⟩

/-- A decimal numeral `digits * 10 ^ power`. -/
structure Numeral where
  digits : Nat
  power : Int
deriving DecidableEq, Repr

/-- The numeral on the grid of multiples of `10 ^ power` that lies in the neighbourhood and is
nearest to its middle, the even one on a tie. -/
def onGrid? (around : Neighbourhood) (exponent power : Int) : Option Numeral :=
  let scale := Nat.pow 2 (exponent - 2).toNat * Nat.pow 10 (-power).toNat
  let unit := Nat.pow 10 power.toNat * Nat.pow 2 (2 - exponent).toNat
  let middle := around.middle * scale
  let inside (digits : Nat) : Bool :=
    let place := digits * unit
    if around.closed then around.low * scale ≤ place && place ≤ around.high * scale
    else around.low * scale < place && place < around.high * scale
  let below := middle / unit
  let above := below + 1
  match inside below, inside above with
  | true, true =>
    let gapBelow := middle - below * unit
    let gapAbove := above * unit - middle
    if gapBelow < gapAbove ∨ (gapBelow = gapAbove ∧ below % 2 = 0) then some ⟨below, power⟩
    else some ⟨above, power⟩
  | true, false => some ⟨below, power⟩
  | false, true => some ⟨above, power⟩
  | false, false => none

/-- The first grid with a numeral in the neighbourhood, from `power` downwards. -/
def coarsest (around : Neighbourhood) (exponent : Int) : Nat -> Int -> Numeral
  | 0, power => ⟨around.middle, power⟩
  | fuel + 1, power =>
    match onGrid? around exponent power with
    | some numeral => numeral
    | none => coarsest around exponent fuel (power - 1)

/-- The shortest numeral of a finite number other than zero. -/
def shortest (significand : Nat) (exponent : Int) : Numeral :=
  let highestBit : Int := significand.log2 + exponent
  coarsest (neighbourhood significand exponent) exponent 40 ((highestBit + 1) * 30103 / 100000 + 2)

/-- A numeral in positional or exponential form. `places` digits stand before the point. -/
def layOut (digits : Text) (places : Int) : Text :=
  if -4 < places ∧ places ≤ 16 then
    if places ≤ 0 then
      "0." ++ List.replicate (-places).toNat (CodePoint.ofChar '0') ++ digits
    else
      let whole := digits.take places.toNat
      let fraction := digits.drop places.toNat
      whole ++ List.replicate (places.toNat - whole.length) (CodePoint.ofChar '0')
        ++ "." ++ (if fraction.isEmpty then ("0" : Text) else fraction)
  else
    let power := places - 1
    let magnitude := power.natAbs
    digits.take 1 ++ (if digits.length = 1 then ([] : Text) else "." ++ digits.drop 1)
      ++ (if power < 0 then ("e-" : Text) else "e+")
      ++ (if magnitude < 100 then Text.padded 2 magnitude else Text.ofNat magnitude)

/-- The text of a number. -/
def text : Binary64 -> Text
  | .nan => "nan"
  | .infinite negative => if negative then "-inf" else "inf"
  | .finite negative significand exponent =>
    let sign : Text := if negative then "-" else []
    if significand = 0 then sign ++ "0.0"
    else
      let numeral := shortest significand exponent
      let digits := Text.ofNat numeral.digits
      sign ++ layOut digits (digits.length + numeral.power)

end AuditTrail.Binary64
