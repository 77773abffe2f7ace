import Formula.Evaluation.Path
import Formula.Expr.Text

/-!
# Evaluation of expressions

`evaluate` gives the computation that an expression stands for.  It is put together from the
computations of its parts, so it follows the tree.
-/

namespace Formula

/-- The value of a variable; with an index, an item of it if it is an array.  A position that an
array does not have gives an absent value. -/
def variableValue (name : String) (index : Option (Eval Value)) : Eval Value := do
  match (← read).scope.vars.get? name, index with
  | none, _ => throw (.unknownVariable name)
  | some (.array items), some index =>
    let x ← Eval.ofOutcome (← index).asNumber
    if 0 ≤ x && Number.isWhole x then return (items[Number.toCount x]?).getD .empty
    else return .empty
  | some v, _ => return v

/-- The value of a computation as a truth value. -/
def Eval.truth (x : Eval Value) : Eval Bool := do Eval.ofOutcome (← x).asBool

namespace Expr

mutual

/-- The value of an expression. -/
def evaluate : Expr → Eval Value
  | literal v => do
    Eval.poll
    return v
  | unary op e => do
    Eval.poll
    Eval.ofOutcome ((← evaluate e).applyUnary op)
  | binary .and l r => do
    Eval.poll
    if ← (evaluate l).truth then return .boolean (← (evaluate r).truth) else return .boolean false
  | binary .or l r => do
    Eval.poll
    if ← (evaluate l).truth then return .boolean true else return .boolean (← (evaluate r).truth)
  | binary op l r => do
    Eval.poll
    let l ← evaluate l
    let r ← evaluate r
    Eval.ofOutcome (l.applyBinary op r)
  | call id f args => do
    Eval.poll
    let v ← (f.implementation.plan args.length).run (arguments args)
    Eval.record id v
    return v
  | var id name index => do
    Eval.poll
    let v ← variableValue name ((arguments index).head?.map (·.value))
    Eval.record id v
    return v
  | path id steps text => do
    Eval.poll
    let v ← PathSite.resolve ⟨id, text, fun _ => steps.map Step.text⟩ (computations steps)
    Eval.record id v
    return v

/-- The computations of some expressions, as arguments. -/
def arguments : List Expr → List Argument
  | [] => []
  | e :: es => ⟨evaluate e, fun _ => e.text⟩ :: arguments es

/-- The steps of a path with the computations of their keys. -/
def computations : List (Step Expr) → List (Step (Eval Value))
  | [] => []
  | ⟨name, listed, keys⟩ :: steps =>
    ⟨name, listed, (arguments keys).map (·.value)⟩ :: computations steps

end

end Expr

end Formula
