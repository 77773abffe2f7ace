import Formula.Evaluation.Evaluate

/-!
# Constant folding

`fold` replaces operators and calls whose operands are all literals by their values.  Variables and
paths stay, and so do calls of functions that depend on more than their arguments.  What has no
value stays too, so that its error arises when the expression is evaluated.  Functions of the host
run while folding, so folding may change the world of the host.
-/

namespace Formula.Expr

/-- Replaces a node by its value, if it has one. -/
def reduce (scope : Scope) (e : Expr) : StateM Host Expr := do
  let (result, s) := (evaluate e).exec { scope } { host := ← get }
  set s.host
  match result with
  | .ok v => return literal v
  | .error _ => return e

mutual

/-- The expression with its constant parts folded. -/
def fold (scope : Scope) : Expr → StateM Host Expr
  | literal v => return literal v
  | unary op e => do
    let e ← fold scope e
    if e.isLiteral then reduce scope (unary op e) else return unary op e
  | binary op l r => do
    let l ← fold scope l
    let r ← fold scope r
    if l.isLiteral && r.isLiteral then reduce scope (binary op l r) else return binary op l r
  | call id f args => do
    let args ← foldAll scope args
    if f.isFoldable && args.all isLiteral then reduce scope (call id f args)
    else return call id f args
  | var id name index => return var id name (← foldAll scope index)
  | path id steps text => return path id (← foldSteps scope steps) text

/-- Folds expressions one after another. -/
def foldAll (scope : Scope) : List Expr → StateM Host (List Expr)
  | [] => return []
  | e :: es => return (← fold scope e) :: (← foldAll scope es)

/-- Folds the keys of some steps. -/
def foldSteps (scope : Scope) : List (Step Expr) → StateM Host (List (Step Expr))
  | [] => return []
  | ⟨name, listed, keys⟩ :: steps => do
    let keys ← foldAll scope keys
    return ⟨name, listed, keys⟩ :: (← foldSteps scope steps)

end

end Formula.Expr
