import Formula.Decimal.Basic

/-!
# Decimal arithmetic

Sums, differences and products are exact where they fit into a decimal; otherwise places are given
up, as few as possible, and the result is rounded to the nearest decimal, a half going to the even
neighbour.  A quotient is computed nine digits at a time until it is exact or no further digit fits.
An operation has no result when the whole part does not fit.
-/

namespace Formula.Decimal

open Number (twoPow tenPow)

/-! ## Rounding into range -/

/-- A quotient of natural numbers rounded to the nearest, a half to the even neighbour. -/
def roundHalfEven (numerator denominator : Nat) : Nat :=
  let quotient := numerator / denominator
  let twice := 2 * (numerator % denominator)
  if denominator < twice ∨ (twice = denominator ∧ quotient % 2 = 1) then quotient + 1 else quotient

/-- The least number of places, from `places` on, after whose removal a coefficient is below the
limit. -/
def excessPlaces (coefficient : Nat) : (tries places : Nat) → Nat
  | 0, places => places
  | tries + 1, places =>
    if coefficient / tenPow places < limit then places
    else excessPlaces coefficient tries (places + 1)

/-- The coefficient and scale of the decimal nearest to `coefficient · 10 ^ -scale`, with as many
places as it can keep.  When rounding itself reaches the limit one more place is given up. -/
def nearest? (coefficient scale : Nat) : Option (Nat × Nat) :=
  let places := excessPlaces coefficient (scale + 1) (scale - maxScale)
  if scale < places then none
  else
    let rounded := if places = 0 then coefficient else roundHalfEven coefficient (tenPow places)
    if rounded < limit then some (rounded, scale - places)
    else if scale < places + 1 then none
    else some (roundHalfEven rounded 10, scale - places - 1)

/-! ## Sum, difference, product -/

/-- The sum.  Adding zero leaves a decimal as it is, places included. -/
def add? (a b : Decimal) : Option Decimal :=
  if a.isZero then some b
  else if b.isZero then some a
  else
    let scale := max a.scale b.scale
    let sum := a.signedAt scale + b.signedAt scale
    (nearest? sum.natAbs scale).bind fun (coefficient, scale) =>
      ofResult? (sum < 0) coefficient scale

/-- The difference.  Taking away zero leaves a decimal as it is, places included. -/
def sub? (a b : Decimal) : Option Decimal :=
  if b.isZero then some (if a.isZero then b else a) else a.add? b.neg

/-- Whether the coefficient has at most 32 bits. -/
def isShort (d : Decimal) : Bool := d.coefficient < twoPow 32

/-- The product.  A product of two short decimals that would need more than 47 places is zero, and
one that is rounded to zero has no sign; any other product that is rounded to zero keeps it. -/
def mul? (a b : Decimal) : Option Decimal :=
  let short := a.isShort && b.isShort
  let negative := a.negative != b.negative
  if a.isZero || b.isZero then some zero
  else if short && 47 < a.scale + b.scale then some zero
  else
    (nearest? (a.coefficient * b.coefficient) (a.scale + b.scale)).bind
      fun (coefficient, scale) =>
        if short then ofResult? negative coefficient scale else ofParts? negative coefficient scale

/-! ## Quotient -/

/-- The greatest number of further digits, at most `digits`, with which a quotient stays below the
limit and within the places. -/
def roomFor (quotient : Nat) (scale : Int) : (digits : Nat) → Nat
  | 0 => 0
  | digits + 1 =>
    if quotient * tenPow (digits + 1) < limit ∧ scale + (digits + 1 : Nat) ≤ maxScale then
      digits + 1
    else roomFor quotient scale digits

/-- The state of a long division: `quotient` with its scale, what is left to divide, and whether
digits were added because something was left. -/
structure Division where
  quotient : Nat
  remainder : Nat
  scale : Int
  extended : Bool

/-- Gives up the last digit of a quotient that has reached the limit. -/
def dropDigit? (quotient : Nat) (scale : Int) (inexact : Bool) : Option (Nat × Int) :=
  if scale < 1 then none
  else
    let last := quotient % 10
    let up := 5 < last || (last = 5 && (inexact || quotient / 10 % 2 = 1))
    some (if up then quotient / 10 + 1 else quotient / 10, scale - 1)

/-- Rounds a quotient to which no digit can be added. -/
def roundQuotient? (divisor : Nat) (s : Division) : Option (Nat × Int) :=
  let twice := 2 * s.remainder
  let up := divisor < twice || (twice = divisor && s.quotient % 2 = 1)
  let quotient := if up then s.quotient + 1 else s.quotient
  if quotient < limit then some (quotient, s.scale) else dropDigit? quotient s.scale true

/-- Continues a long division until it is exact or no digit can be added.  The result is the
quotient with its scale, and whether digits were added. -/
def divideOn (divisor : Nat) : (steps : Nat) → Division → Option (Nat × Int × Bool)
  | 0, _ => none
  | steps + 1, s =>
    if s.remainder = 0 then
      if 0 ≤ s.scale then some (s.quotient, s.scale, s.extended)
      else
        -- Exact, but the quotient stands for a larger number: zeros are appended.
        let zeros := min 9 s.scale.natAbs
        let quotient := s.quotient * tenPow zeros
        if quotient < limit then
          divideOn divisor steps { s with quotient, scale := s.scale + (zeros : Nat) }
        else none
    else
      let room := roomFor s.quotient s.scale 9
      if s.scale = maxScale ∨ (room = 0 ∧ 0 ≤ s.scale) then
        (roundQuotient? divisor s).map fun (quotient, scale) => (quotient, scale, true)
      else if room < 9 ∧ s.scale + (room : Nat) < 0 then none
      else
        let scaled := s.remainder * tenPow room
        let quotient := s.quotient * tenPow room + scaled / divisor
        let remainder := scaled % divisor
        let scale := s.scale + (room : Nat)
        if quotient < limit then divideOn divisor steps ⟨quotient, remainder, scale, true⟩
        else
          (dropDigit? quotient scale (remainder ≠ 0)).map fun (quotient, scale) =>
            (quotient, scale, true)

/-- Takes eight zeros at a time off a coefficient whose low 32 bits are zero. -/
def stripEights : (steps coefficient scale : Nat) → Nat × Nat
  | 0, coefficient, scale => (coefficient, scale)
  | steps + 1, coefficient, scale =>
    if coefficient % twoPow 32 = 0 ∧ 8 ≤ scale ∧ coefficient % tenPow 8 = 0 then
      stripEights steps (coefficient / tenPow 8) (scale - 8)
    else (coefficient, scale)

/-- Takes `zeros` zeros off a coefficient that ends in them. -/
def stripGroup (zeros : Nat) (number : Nat × Nat) : Nat × Nat :=
  if zeros ≤ number.2 ∧ number.1 % tenPow zeros = 0 then (number.1 / tenPow zeros, number.2 - zeros)
  else number

/-- Takes zeros off a quotient to which digits were added: first eights, then at most four, two and
one.  So a single zero may be left, as in `7 / 2 = 3.50`. -/
def stripQuotient (coefficient scale : Nat) : Nat × Nat :=
  stripGroup 1 (stripGroup 2 (stripGroup 4 (stripEights 4 coefficient scale)))

/-- The quotient by a decimal that is not zero. -/
def div? (a b : Decimal) : Option Decimal :=
  if a.isZero then some zero
  else
    let start : Division :=
      { quotient := a.coefficient / b.coefficient
        remainder := a.coefficient % b.coefficient
        scale := (a.scale : Int) - b.scale
        extended := false }
    (divideOn b.coefficient 64 start).bind fun (quotient, scale, extended) =>
      let (quotient, scale) :=
        if extended then stripQuotient quotient scale.natAbs else (quotient, scale.natAbs)
      ofResult? (a.negative != b.negative) quotient scale

end Formula.Decimal
