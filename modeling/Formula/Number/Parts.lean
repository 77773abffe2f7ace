import Formula.Number.Power

/-!
# Floating numbers taken apart

A finite `Float` is `± mantissa · 2 ^ exponent` with natural mantissa.  The operations here that
turn a number into a whole one, or into an integer, are computed on these parts, in exact integer
arithmetic, so that they can be reasoned about and evaluated.
-/

namespace Formula.Number

/-- The number `± mantissa · 2 ^ exponent`. -/
structure Parts where
  negative : Bool
  mantissa : Nat
  exponent : Int
deriving DecidableEq, Repr

/-- The parts of a finite number; none for an infinity or for a value that is not a number. -/
def parts? (x : Float) : Option Parts :=
  let bits := x.toBits.toNat
  let negative := twoPow 63 ≤ bits
  let biased : Nat := bits / twoPow 52 % twoPow 11
  let fraction : Nat := bits % twoPow 52
  if biased = 2047 then none
  else if biased = 0 then some ⟨negative, fraction, -1074⟩
  else some ⟨negative, twoPow 52 + fraction, (biased : Int) - 1075⟩

/-- Positive infinity. -/
def infinity : Float := Float.ofBits 0x7FF0000000000000

/-- The value that is not a number. -/
def notANumber : Float := Float.ofBits 0x7FF8000000000000

/-- The float of a natural number, with a sign that zero keeps too. -/
def signed (negative : Bool) (n : Nat) : Float :=
  if negative then -Float.ofNat n else Float.ofNat n

/-! ## Rounding to a whole number -/

/-- How a number between two whole ones is rounded. -/
inductive Rounding where
  /-- Toward zero. -/
  | truncate
  /-- Toward negative infinity. -/
  | down
  /-- Toward positive infinity. -/
  | up
  /-- To the nearest; a half goes away from zero. -/
  | halfAway
deriving DecidableEq

/-- The magnitude that `mantissa / 2 ^ places` is rounded to. -/
def Rounding.magnitude (rule : Rounding) (negative : Bool) (mantissa places : Nat) : Nat :=
  let whole := mantissa / twoPow places
  let rest := mantissa % twoPow places
  let away : Bool := match rule with
    | .truncate => false
    | .down => negative && rest ≠ 0
    | .up => !negative && rest ≠ 0
    | .halfAway => twoPow places ≤ 2 * rest
  if away then whole + 1 else whole

/-- A number rounded to a whole one.  Infinities, and what is not a number, stay as they are. -/
def round (rule : Rounding) (x : Float) : Float :=
  match parts? x with
  | none => x
  | some p =>
    if 0 ≤ p.exponent then x
    else signed p.negative (rule.magnitude p.negative p.mantissa p.exponent.natAbs)

/-- The whole part of a finite number, as an integer. -/
def wholePart (p : Parts) : Int :=
  let magnitude :=
    if 0 ≤ p.exponent then p.mantissa * twoPow p.exponent.natAbs
    else Rounding.magnitude .truncate p.negative p.mantissa p.exponent.natAbs
  if p.negative then -(magnitude : Int) else magnitude

/-- Whether a number is whole.  Infinities are not. -/
def isWhole (x : Float) : Bool :=
  match parts? x with
  | none => false
  | some p => 0 ≤ p.exponent || p.mantissa % twoPow p.exponent.natAbs = 0

/-! ## Conversion to integers -/

/-- The whole part of a number, cut off at `low` and `high`.  What is not a number counts as
zero. -/
def toIntWithin (low high : Int) (x : Float) : Int :=
  match parts? x with
  | some p => max low (min high (wholePart p))
  | none => if x.isNaN then 0 else if x < 0 then low else high

/-- The whole part of a number within the integers of so many bits, one of them for the sign. -/
def toSigned (bits : Nat) (x : Float) : Int :=
  toIntWithin (-(twoPow (bits - 1) : Int)) (twoPow (bits - 1) - 1) x

/-- The whole part of a number within the natural numbers of so many bits. -/
def toUnsigned (bits : Nat) (x : Float) : Nat := (toIntWithin 0 (twoPow bits - 1) x).toNat

/-- The whole part of a number as a count: negative numbers give zero, and no count exceeds the
64-bit range. -/
def toCount (x : Float) : Nat := toUnsigned 64 x

/-! ## Order -/

/-- How two numbers compare; not at all when one of them is not a number. -/
def compare? (a b : Float) : Option Ordering :=
  if a < b then some .lt
  else if b < a then some .gt
  else if a == b then some .eq
  else none

/-- The larger of two numbers, the second if they are equal; what is not a number loses. -/
def larger (a b : Float) : Float :=
  if a.isNaN then b else if b.isNaN then a else if b < a then a else b

/-- The smaller of two numbers, the second if they are equal; what is not a number loses. -/
def smaller (a b : Float) : Float :=
  if a.isNaN then b else if b.isNaN then a else if a < b then a else b

/-! ## Powers with whole exponents -/

/-- `result` times `base` to the power `n`, by repeated squaring. -/
def powBySquaring : (steps : Nat) → (base result : Float) → (n : Nat) → Float
  | 0, _, result, _ => result
  | steps + 1, base, result, n =>
    let result := if n % 2 = 1 then result * base else result
    if n / 2 = 0 then result else powBySquaring steps (base * base) result (n / 2)

/-- A whole power by repeated squaring; a negative exponent gives the reciprocal of the positive
power. -/
def powInt (base : Float) (exponent : Int) : Float :=
  let n := exponent.natAbs
  let power := powBySquaring (n.log2 + 1) base 1 n
  if exponent < 0 then 1 / power else power

end Formula.Number
