import Formula.Number.Parts

/-!
# The shortest decimal that reads back

A positive float is written with as few significant digits as tell it from every other float; of the
decimals with that many digits the nearest is taken.  The reals that round to `mantissa · 2 ^
exponent` form an interval, whose ends belong to it exactly when the mantissa is even.  For one,
two, … seventeen digits the two neighbours of the value on that decimal grid are tried, in exact
arithmetic.
-/

namespace Formula.Number

/-- The number `d₁.d₂…dₙ · 10 ^ exponent`, its digits written as the natural number `d₁d₂…dₙ`. -/
structure Scientific where
  digits : Nat
  /-- Exponent of ten of the first digit. -/
  exponent : Int
deriving DecidableEq, Repr

/-- The number of decimal digits of a natural number; zero has one. -/
def digitCount (n : Nat) : Nat := (Nat.toDigits 10 n).length

/-- A positive number with the ends of the interval of reals that round to it, all as numerators
over one denominator. -/
structure RoundingInterval where
  low : Nat
  value : Nat
  high : Nat
  denominator : Nat
  closed : Bool

/-- The interval around `mantissa · 2 ^ exponent`.  Below a power of two the floats lie twice as
dense, except at the least exponent. -/
def roundingInterval (mantissa : Nat) (exponent : Int) : RoundingInterval :=
  let below := if mantissa = twoPow 52 ∧ exponent ≠ -1074 then 1 else 2
  let closed := mantissa % 2 = 0
  if 2 ≤ exponent then
    let unit := twoPow (exponent - 2).natAbs
    ⟨(4 * mantissa - below) * unit, 4 * mantissa * unit, (4 * mantissa + 2) * unit, 1, closed⟩
  else
    ⟨4 * mantissa - below, 4 * mantissa, 4 * mantissa + 2, twoPow (2 - exponent).natAbs, closed⟩

/-- Whether the decimal `digits · 10 ^ grid` lies in the interval. -/
def RoundingInterval.holds (interval : RoundingInterval) (digits : Nat) (grid : Int) : Bool :=
  let decimal := digits * tenPow grid.toNat * interval.denominator
  let scale := tenPow (-grid).toNat
  if interval.closed then
    interval.low * scale ≤ decimal && decimal ≤ interval.high * scale
  else
    interval.low * scale < decimal && decimal < interval.high * scale

/-- Exponent of ten of the first digit of a positive number. -/
def RoundingInterval.magnitude (interval : RoundingInterval) : Int :=
  let whole := interval.value / interval.denominator
  if whole = 0 then -(digitCount (interval.denominator / interval.value) : Int)
  else (digitCount whole : Int) - 1

/-- The neighbour of the value on the grid of multiples of `10 ^ grid` that reads back, if one does;
of two the nearer, and the upper one of two equally near. -/
def RoundingInterval.onGrid? (interval : RoundingInterval) (grid : Int) : Option Nat :=
  let numerator := interval.value * tenPow (-grid).toNat
  let denominator := interval.denominator * tenPow grid.toNat
  let lower := numerator / denominator
  let rest := numerator % denominator
  let upper := lower + 1
  match interval.holds lower grid, interval.holds upper grid with
  | true, true => some (if 2 * rest < denominator then lower else upper)
  | true, false => some lower
  | false, true => some upper
  | false, false => none

/-- The first grid, from `count` digits on, that holds a decimal reading back. -/
def RoundingInterval.firstGrid (interval : RoundingInterval) (magnitude : Int) :
    (tries count : Nat) → Nat × Int
  | 0, _ => (interval.value / interval.denominator, 0)
  | tries + 1, count =>
    let grid := magnitude - count + 1
    match interval.onGrid? grid with
    | some digits => (digits, grid)
    | none => interval.firstGrid magnitude tries (count + 1)

/-- `digits · 10 ^ grid` without trailing zeros in its digits. -/
def stripZeros : (steps digits : Nat) → (grid : Int) → Nat × Int
  | 0, digits, grid => (digits, grid)
  | steps + 1, digits, grid =>
    if digits % 10 = 0 ∧ digits ≠ 0 then stripZeros steps (digits / 10) (grid + 1)
    else (digits, grid)

/-- The shortest decimal that reads back as the positive number `mantissa · 2 ^ exponent`. -/
def shortest (mantissa : Nat) (exponent : Int) : Scientific :=
  let interval := roundingInterval mantissa exponent
  let (digits, grid) := interval.firstGrid interval.magnitude 17 1
  let (digits, grid) := stripZeros 20 digits grid
  ⟨digits, grid + digitCount digits - 1⟩

end Formula.Number
