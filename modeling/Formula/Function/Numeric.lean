import Formula.Function.Plan

/-!
# Functions of numbers

Rounding, roots, powers, logarithms and trigonometry.  A result that is not finite is an error.
-/

namespace Formula.Plan

open Number (Rounding round powInt)

/-- A function of one number. -/
def real (f : Float → Float) : Plan Value := do finite (f (← number 0))

/-! ## Rounding -/

/-- `ABS`, of decimals too. -/
def absolute : Plan Value :=
  argument 0 fun
    | .decimal d => done (.decimal d.abs)
    | v => do finite (← ofOutcome v.asNumber).abs

/-- A multiple of a significance next to a number. -/
def toMultiple (rule : Rounding) (x significance : Float) : Plan Value :=
  finite (round rule (x / significance) * significance)

/-- `CEILING`: the next multiple of the significance; zero if that is zero. -/
def ceiling (count : Nat) : Plan Value := do
  let x ← number 0
  let significance ← numberOr count 1 1
  if significance == 0 then return .number 0 else toMultiple .up x significance

/-- `FLOOR`: the multiple of the significance before a number. -/
def floor (count : Nat) : Plan Value := do
  let x ← number 0
  let significance ← numberOr count 1 1
  if significance == 0 then fail (.evaluation .divisionByZero) else toMultiple .down x significance

/-- `ROUND` and `TRUNC`: a number with so many places, none if left out. -/
def toPlaces (rule : Rounding) (count : Nat) : Plan Value := do
  let x ← number 0
  let places := Number.toSigned 32 (← numberOr count 1 0)
  let factor := powInt 10 places
  finite (round rule (x * factor) / factor)

/-- `SIGN`: 1, −1 or 0. -/
def sign : Plan Value := do
  let x ← number 0
  return .number (if 0 < x then 1 else if x < 0 then -1 else 0)

/-! ## Powers and logarithms -/

/-- `SQRT`. -/
def squareRoot : Plan Value := do
  let x ← number 0
  if x < 0 then fail (.evaluation .rootOfNegative) else finite x.sqrt

/-- `POWER`. -/
def power : Plan Value := do
  let x ← number 0
  let y ← number 1
  finite (Float.pow x y)

/-- The first argument, which must be positive. -/
def positive (function : String) : Plan Float := do
  let x ← number 0
  if x ≤ 0 then fail (.evaluation (.notPositive function)) else return x

/-- `LN`. -/
def naturalLogarithm : Plan Value := do finite (← positive "LN").log

/-- `LOG`: to base 10 if no base is given. -/
def logarithm (count : Nat) : Plan Value := do
  let x ← positive "LOG"
  let base ← numberOr count 1 10
  if base ≤ 0 || base == 1 then fail (.evaluation .invalidBase)
  else finite (x.log / base.log)

/-- `LOG10`. -/
def decimalLogarithm : Plan Value := do finite (← positive "LOG10").log10

/-! ## Trigonometry -/

/-- The ratio of a circle's circumference to its diameter. -/
def pi : Float := 3.141592653589793

/-- The first argument, which must lie between −1 and 1. -/
def unitInterval (function : String) : Plan Float := do
  let x ← number 0
  if -1 ≤ x && x ≤ 1 then return x else fail (.evaluation (.outsideUnitInterval function))

/-- `ASIN`. -/
def arcSine : Plan Value := do finite (← unitInterval "ASIN").asin

/-- `ACOS`. -/
def arcCosine : Plan Value := do finite (← unitInterval "ACOS").acos

/-- `ATAN2`: the angle of the point with the given ordinate and abscissa. -/
def angle : Plan Value := do
  let y ← number 0
  let x ← number 1
  finite (Float.atan2 y x)

end Formula.Plan
