import Formula.Decimal.Arithmetic
import Formula.Number.Parts

/-!
# Between decimals and floats

`toFloat` is the float near a decimal: the whole part and the fraction are converted apart and their
sum is rounded at the places of the decimal.  `ofFloat?` writes a float as a decimal by exact steps
of two and five as far as 96 bits allow, and then drops places until 52 bits are left.
-/

namespace Formula.Decimal

open Number (twoPow tenPow)

/-! ## Decimal to float -/

/-- The float of a decimal. -/
def toFloat (d : Decimal) : Float :=
  if d.scale = 0 then
    if d.negative ∧ d.coefficient ≠ 0 then -Float.ofNat d.coefficient else Float.ofNat d.coefficient
  else
    let unit := tenPow d.scale
    let whole := Float.ofNat (d.coefficient / unit)
    let fraction := Float.ofNat (d.coefficient % unit) / Float.ofNat unit
    let magnitude :=
      if fraction == 0 then whole
      else
        let factor := Number.powInt 10 d.scale
        Number.round .halfAway ((whole + fraction) * factor) / factor
    if d.negative then -magnitude else magnitude

/-! ## Float to decimal

A number of places stands beside each coefficient below, as in a decimal. -/

/-- Divides by a power of two: an even coefficient is halved, an odd one is multiplied by five,
which takes one more place, while that fits, and loses its last bit otherwise. -/
def halveTimes : (times coefficient places : Nat) → Nat × Nat
  | 0, coefficient, places => (coefficient, places)
  | times + 1, coefficient, places =>
    if coefficient % 2 ≠ 0 ∧ coefficient * 5 < limit then
      halveTimes times (coefficient * 5) (places + 1)
    else halveTimes times (coefficient / 2) places

/-- Brings a number down to 28 places.  A coefficient that vanishes on the way has none. -/
def limitPlaces : (places coefficient : Nat) → Nat × Nat
  | 0, coefficient => (coefficient, 0)
  | places + 1, coefficient =>
    if places + 1 ≤ maxScale then (coefficient, places + 1)
    else if coefficient / 10 = 0 then (0, 0)
    else limitPlaces places (dropLast coefficient)

/-- Drops places while the coefficient has more than 52 bits. -/
def limitDigits : (places coefficient : Nat) → Nat × Nat
  | 0, coefficient => (coefficient, 0)
  | places + 1, coefficient =>
    if twoPow 52 ≤ coefficient then limitDigits places (dropLast coefficient)
    else (coefficient, places + 1)

/-- The decimal near a finite float, if it is in range.  A float without a fraction is taken as it
is, and zero keeps its sign. -/
def ofFloat? (x : Float) : Option Decimal :=
  match Number.parts? x with
  | none => none
  | some p =>
    if 0 ≤ p.exponent then ofParts? p.negative (p.mantissa * twoPow p.exponent.natAbs) 0
    else
      let (coefficient, places) := halveTimes p.exponent.natAbs p.mantissa 0
      let (coefficient, places) := limitPlaces places coefficient
      let (coefficient, places) := limitDigits places coefficient
      let (coefficient, places) := stripZeros places coefficient
      ofParts? p.negative coefficient places

end Formula.Decimal
