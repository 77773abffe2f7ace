import Formula.Number.Text

/-!
# Decimal numbers of fixed precision

A `Decimal` is `± coefficient · 10 ^ -scale`, with a coefficient of 96 bits and at most 28 places.
Trailing zeros are kept: `1.50` and `1.5` are two decimals, which compare equal.  Zero may have a
sign as well.
-/

namespace Formula

/-- The least natural number that is no coefficient. -/
def Decimal.limit : Nat := Number.twoPow 96

/-- The greatest number of places. -/
def Decimal.maxScale : Nat := 28

/-- The number `± coefficient · 10 ^ -scale`. -/
structure Decimal where
  negative : Bool
  coefficient : Nat
  scale : Nat
  coefficient_lt : coefficient < Decimal.limit
  scale_le : scale ≤ Decimal.maxScale
deriving DecidableEq

namespace Decimal

open Number (tenPow)

/-- The decimal with these parts, if they are in range. -/
def ofParts? (negative : Bool) (coefficient scale : Nat) : Option Decimal :=
  if h : coefficient < limit ∧ scale ≤ maxScale then some ⟨negative, coefficient, scale, h.1, h.2⟩
  else none

/-- Like `ofParts?`, with the sign left out when the number is zero. -/
def ofResult? (negative : Bool) (coefficient scale : Nat) : Option Decimal :=
  ofParts? (negative && coefficient ≠ 0) coefficient scale

/-- Zero. -/
def zero : Decimal := ⟨false, 0, 0, by decide, by decide⟩

/-- One. -/
def one : Decimal := ⟨false, 1, 0, by decide, by decide⟩

/-- Whether the number is zero, of either sign. -/
def isZero (d : Decimal) : Bool := d.coefficient = 0

/-- The opposite number; also a zero changes its sign. -/
def neg (d : Decimal) : Decimal := { d with negative := !d.negative }

/-- The number without its sign. -/
def abs (d : Decimal) : Decimal := { d with negative := false }

/-- The coefficient with its sign. -/
def signedCoefficient (d : Decimal) : Int :=
  if d.negative then -(d.coefficient : Int) else d.coefficient

/-- The coefficient that the number has at a scale at least as large as its own. -/
def signedAt (d : Decimal) (scale : Nat) : Int := d.signedCoefficient * tenPow (scale - d.scale)

/-- How two decimals compare as numbers. -/
def compare (a b : Decimal) : Ordering :=
  let scale := max a.scale b.scale
  Ord.compare (a.signedAt scale) (b.signedAt scale)

/-- Whether two decimals are the same number. -/
def equal (a b : Decimal) : Bool := a.compare b == .eq

/-- The whole part, with the sign of the number. -/
def trunc (d : Decimal) : Decimal :=
  ⟨d.negative, d.coefficient / tenPow d.scale, 0,
    Nat.lt_of_le_of_lt (Nat.div_le_self _ _) d.coefficient_lt, Nat.zero_le _⟩

/-- A coefficient without its last digit, a five rounded up. -/
def dropLast (coefficient : Nat) : Nat :=
  if 5 ≤ coefficient % 10 then coefficient / 10 + 1 else coefficient / 10

/-- Takes zeros off the end while there are places. -/
def stripZeros : (scale coefficient : Nat) → Nat × Nat
  | 0, coefficient => (coefficient, 0)
  | scale + 1, coefficient =>
    if coefficient % 10 = 0 then stripZeros scale (coefficient / 10) else (coefficient, scale + 1)

theorem stripZeros_le (scale coefficient : Nat) :
    (stripZeros scale coefficient).1 ≤ coefficient ∧ (stripZeros scale coefficient).2 ≤ scale := by
  induction scale generalizing coefficient with
  | zero => simp [stripZeros]
  | succ scale ih =>
    simp only [stripZeros]
    split
    · have := ih (coefficient / 10)
      omega
    · simp

/-- The same number with the fewest places; zero without a sign. -/
def normalize (d : Decimal) : Decimal :=
  if d.coefficient = 0 then zero
  else
    ⟨d.negative, (stripZeros d.scale d.coefficient).1, (stripZeros d.scale d.coefficient).2,
      Nat.lt_of_le_of_lt (stripZeros_le _ _).1 d.coefficient_lt,
      Nat.le_trans (stripZeros_le _ _).2 d.scale_le⟩

/-- The digits, with all places and at least one digit before the point. -/
def digits (coefficient scale : Nat) : List Char :=
  let written := Number.decimalDigits coefficient
  let padded := List.replicate (scale + 1 - written.length) '0' ++ written
  let whole := padded.take (padded.length - scale)
  if scale = 0 then whole else whole ++ '.' :: padded.drop (padded.length - scale)

/-- The text of a decimal, with all its places. -/
def text (d : Decimal) : String :=
  (if d.negative then "-" else "") ++ String.ofList (digits d.coefficient d.scale)

end Decimal

end Formula
