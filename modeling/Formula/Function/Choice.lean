import Formula.Function.Plan

/-!
# Truth values and choices

`AND` and `OR` stop at the first argument that decides; `IF` and `ValueOr` evaluate only what they
give.
-/

namespace Formula.Plan

/-- Evaluates arguments as truth values until one is `stop`, which is then the result. -/
def truthUntil (stop : Bool) : (count i : Nat) → Plan Value
  | 0, _ => done (.boolean !stop)
  | count + 1, i =>
    argument i fun v =>
      match v.asBool with
      | .ok b => if b == stop then done (.boolean stop) else truthUntil stop count (i + 1)
      | .error e => fail e

/-- `AND`: false as soon as an argument is. -/
def conjunction (count : Nat) : Plan Value := truthUntil false count 0

/-- `OR`: true as soon as an argument is. -/
def disjunction (count : Nat) : Plan Value := truthUntil true count 0

/-- `NOT`. -/
def negation : Plan Value := do return .boolean !(← boolean 0)

/-- `IF`: the second argument, or else the third, which is false if left out. -/
def choice (count : Nat) : Plan Value := do
  if ← boolean 0 then value 1 else return (← value? count 2).getD (.boolean false)

/-- `ValueOr`: the first argument if it can be resolved and is not absent, and else the second. -/
def valueOr (count : Nat) : Plan Value :=
  argumentOrEmpty 0 fun v =>
    if v.isEmpty then do return (← value? count 1).getD .empty else done v

end Formula.Plan
