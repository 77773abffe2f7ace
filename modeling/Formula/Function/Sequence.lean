import Formula.Function.Plan
import Formula.Object.Access
import Formula.Text.Occurrence

/-!
# Functions of arrays

Making arrays, choosing among their items, and looking items up.
-/

namespace Formula.Plan

/-- `Array`: the values of the arguments. -/
def array (count : Nat) : Plan Value := valuesFrom (fun vs => done (.array vs)) count 0 []

/-! ## Ranges -/

/-- The numbers `first + step · i` for `count` numbers `i`, the next of which is `i`; `before` are
those before them, last number first. -/
def stepsFrom (first step : Float) : (count i : Nat) → (before : List Value) → Plan Value
  | 0, _, before => done (.array before.reverse)
  | count + 1, i, before =>
    poll fun _ =>
      stepsFrom first step count (i + 1) (.number (first + step * Float.ofNat i) :: before)

/-- `Range`: the numbers from one to another, at distances of one step, which is 1 if left out. -/
def range (count : Nat) : Plan Value := do
  let first ← number 0
  let last ← number 1
  let step ← numberOr count 2 1
  if step == 0 then refuse .zeroStep
  else
    let size := Number.round .truncate ((last - first) / step) + 1
    if size < 1 then return .array []
    else if Float.ofNat maxRangeLength < size then refuse .rangeTooLong
    else stepsFrom first step (Number.toCount size) 0 []

/-! ## Items -/

/-- The items that an argument stands for; an absent value has none. -/
def itemsOrNone : Value → List Value
  | .array items => items
  | .empty => []
  | v => [v]

/-- The numbers that items read as, if they compare with the threshold as `op` wants. -/
def comparing (op : OrderOp) (threshold : Float) (vs : List Value) : List Value :=
  vs.filterMap fun v =>
    if v.isEmpty then none
    else v.toNumber?.bind fun x =>
      match Number.compare? x threshold with
      | some o => if op.holds o then some (.number x) else none
      | none => none

/-- `LessThan`, `LessOrEqual`, `GreaterThan`, `GreaterOrEqual`: the items on one side of a
threshold; none if there is no threshold. -/
def filter (op : OrderOp) : Plan Value := do
  let vs := itemsOrNone (← value 0)
  let threshold ← value 1
  return .array <|
    match if threshold.isEmpty then none else threshold.toNumber? with
    | some x => comparing op x vs
    | none => []

/-- `XLOOKUP`: the result at the position of a key, or the fourth argument if the key is not
there. -/
def lookUp (count : Nat) : Plan Value := do
  let key ← value 0
  let keys := itemsOrNone (← value 1)
  let results := itemsOrNone (← value 2)
  if keys.length ≠ results.length then refuse (.lengthsDiffer keys.length results.length)
  else
    match (keys.zip results).find? (·.1.equal key) with
    | some (_, result) => return result
    | none => return (← value? count 3).getD .empty

/-- A value without the characters of a set at its start, if it is text. -/
def trimmed (set : List Char) : Value → Value
  | .text s => .text (String.ofList (s.toList.dropWhile set.contains))
  | v => v

/-- Whether a value is in a collection: an item of an array, a key of a dictionary, a part of a
text; any other value holds only itself. -/
def isIn (set : List Char) (needle : Value) : Value → Bool
  | .empty => false
  | .array items => items.any fun item => (trimmed set item).equal needle
  | .text s => (Text.firstIndex? needle.toText.toList (s.toList.dropWhile set.contains)).isSome
  | .object o =>
    if o.contents.shape = .dictionary then o.contents.containsKey [needle]
    else (Value.object o).equal needle
  | v => v.equal needle

/-- `Contains`: texts are compared without certain characters at their start. -/
def contains : Plan Value :=
  askScope fun scope => do
    let collection ← value 0
    let needle := trimmed scope.trimStart (← value 1)
    return .boolean (isIn scope.trimStart needle collection)

end Formula.Plan
