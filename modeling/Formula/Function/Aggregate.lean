import Formula.Function.Plan
import Formula.Object.Dictionary

/-!
# Aggregates

Functions of any number of arguments.  The items of arrays count as if they were arguments; only
numbers and decimals are numeric, not texts that can be read as numbers.
-/

namespace Formula.Plan

/-- The numbers among some values. -/
def numbersIn (vs : List Value) : List Float := vs.filterMap Value.numeric?

/-- The sum of some numbers; the sum of none is the negative zero, which any number absorbs. -/
def sumOf (xs : List Float) : Float := xs.foldl (· + ·) (-0)

/-- Reduces a list by an operation; zero for an empty list. -/
def reduce (op : Float → Float → Float) : List Float → Float
  | [] => 0
  | x :: xs => xs.foldl op x

/-- `SUM`. -/
def sum (count : Nat) : Plan Value := do finite (sumOf (numbersIn (← items count)))

/-- `MAX`: zero when there are no numbers. -/
def maximum (count : Nat) : Plan Value := do
  return .number (reduce Number.larger (numbersIn (← items count)))

/-- `MIN`: zero when there are no numbers. -/
def minimum (count : Nat) : Plan Value := do
  return .number (reduce Number.smaller (numbersIn (← items count)))

/-- `AVERAGE`: the mean of the numbers. -/
def average (count : Nat) : Plan Value := do
  match numbersIn (← items count) with
  | [] => fail (.evaluation .divisionByZero)
  | xs => return .number (sumOf xs / Float.ofNat xs.length)

/-- `AVERAGEA`: every value that is not absent counts; one that is no number counts as zero. -/
def averageAll (count : Nat) : Plan Value := do
  match (← items count).filter (!·.isEmpty) with
  | [] => fail (.evaluation .divisionByZero)
  | vs =>
    let total := vs.foldl (fun total v => total + v.numeric?.getD 0) (0 : Float)
    return .number (total / Float.ofNat vs.length)

/-- `COUNT`: how many numbers there are. -/
def countNumbers (count : Nat) : Plan Value := do
  return .ofNat (numbersIn (← items count)).length

/-- `COUNTA`: how many values there are that are not absent. -/
def countAll (count : Nat) : Plan Value := do
  return .ofNat ((← items count).filter (!·.isEmpty)).length

/-! ## Distinct values -/

/-- The values that equal none kept before them; `kept` are those kept so far, last value first. -/
def distinctOnto (kept : List Value) : List Value → List Value
  | [] => kept.reverse
  | v :: vs => distinctOnto (if kept.any (·.equal v) then kept else v :: kept) vs

/-- `Map`: the distinct values, in the order in which they are first seen. -/
def distinct (count : Nat) : Plan Value := do
  return .array (distinctOnto [] (← items count))

end Formula.Plan
