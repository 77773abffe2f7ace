import Formula.Function.Registry

/-!
# Expressions

The tree of a formula.  Calls, variables and paths have numbers, in the order in which they stand in
the formula, so that what an evaluation learns about a node can be kept outside the tree.
-/

namespace Formula

/-- A step of a path: the name of a member, and keys for an item of it.  A list of keys may be there
and yet be empty. -/
structure Step (ε : Type) where
  name : String
  /-- Whether a list of keys was written. -/
  listed : Bool
  keys : List ε

/-- An expression. -/
inductive Expr where
  | literal (v : Value)
  | unary (op : UnaryOp) (operand : Expr)
  | binary (op : BinaryOp) (left right : Expr)
  /-- A call of a function. -/
  | call (id : Nat) (f : FunctionDef) (args : List Expr)
  /-- A variable, with an index if it is taken as an array. -/
  | var (id : Nat) (name : String) (index : List Expr)
  /-- A path into the data, and its text in the source. -/
  | path (id : Nat) (steps : List (Step Expr)) (text : String)

instance : Inhabited Expr := ⟨.literal .empty⟩

namespace Expr

/-- Whether an expression is a literal. -/
def isLiteral : Expr → Bool
  | literal _ => true
  | _ => false

/-- Whether an expression has a binary operator at its root, so that it is printed in brackets where
it is an operand. -/
def isBinary : Expr → Bool
  | binary _ _ _ => true
  | _ => false

/-! ## Nodes -/

mutual

/-- The nodes of an expression, each before those below it, from left to right. -/
def nodes : Expr → List Expr
  | literal v => [literal v]
  | unary op e => unary op e :: nodes e
  | binary op l r => binary op l r :: (nodes l ++ nodes r)
  | call id f args => call id f args :: nodesOfAll args
  | var id name index => var id name index :: nodesOfAll index
  | path id steps text => path id steps text :: nodesOfSteps steps

/-- The nodes of some expressions. -/
def nodesOfAll : List Expr → List Expr
  | [] => []
  | e :: es => nodes e ++ nodesOfAll es

/-- The nodes of the keys of some steps. -/
def nodesOfSteps : List (Step Expr) → List Expr
  | [] => []
  | ⟨_, _, keys⟩ :: steps => nodesOfAll keys ++ nodesOfSteps steps

end

/-- The number of a call, a variable or a path. -/
def id? : Expr → Option Nat
  | call id _ _ | var id _ _ | path id _ _ => some id
  | _ => none

end Expr

end Formula
