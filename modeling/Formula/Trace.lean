import Formula.Evaluation.Eval
import Formula.Expr.Text

/-!
# Traces

A trace shows what an evaluation found: the formula with the value of every call, variable and path
in a comment behind it, and the values of variables and paths by their texts.
-/

namespace Formula

/-- What an evaluation found. -/
structure Trace where
  /-- The annotated formula. -/
  expression : String
  /-- Values by the name of the variable or the text of the path, in the order of these. -/
  bindings : List (String × Value)

namespace Trace

/-! ## The annotated formula -/

/-- The style of literals in an annotated formula. -/
def style : LiteralStyle := ⟨'\'', "", "[", "]"⟩

/-- A value in a comment. -/
def annotation (v : Value) : String := "/*\x7b" ++ v.toText ++ "\x7d*/"

/-- The annotation of a node, if a value was recorded for it. -/
def annotationOf (recorded : Recorded) (id : Nat) : String :=
  match recorded.lookup id with
  | some v => annotation v
  | none => ""

mutual

/-- An expression with annotations. -/
def annotated (recorded : Recorded) : Expr → String
  | .literal v => v.writeLiteral style ""
  | .unary op e => op.symbol ++ e.bracketed (annotated recorded e)
  | .binary op l r =>
    l.bracketed (annotated recorded l) ++ " " ++ op.symbol ++ " "
      ++ r.bracketed (annotated recorded r)
  | .call id f args =>
    f.name ++ "(" ++ annotatedList recorded args ++ ")" ++ annotationOf recorded id
  | .var id name index =>
    match index with
    | [] => name ++ annotationOf recorded id
    | _ :: _ => name ++ "[" ++ annotatedList recorded index ++ "]" ++ annotationOf recorded id
  | .path id _ written => written ++ annotationOf recorded id

/-- Expressions with annotations, and commas between them. -/
def annotatedList (recorded : Recorded) : List Expr → String
  | [] => ""
  | [e] => annotated recorded e
  | e :: es => annotated recorded e ++ ", " ++ annotatedList recorded es

end

/-- The annotated formula with its result at the end, unless it ends so already. -/
def render (e : Expr) (recorded : Recorded) (result : Value) : String :=
  let written := annotated recorded e
  let last := annotation result
  if last.toList.isSuffixOf written.toList then written else "(" ++ written ++ ")" ++ last

/-! ## Bindings -/

/-- Adds a value to a sorted list.  An absent value does not replace one that is there. -/
def put (key : String) (v : Value) : List (String × Value) → List (String × Value)
  | [] => [(key, v)]
  | (k, old) :: rest =>
    if key < k then (key, v) :: (k, old) :: rest
    else if key = k then (k, if v.isEmpty && !old.isEmpty then old else v) :: rest
    else (k, old) :: put key v rest

/-- The text under which the value of a variable or a path is listed, and the number of the node. -/
def keyOf? : Expr → Option (String × Nat)
  | .path id _ text => some (text, id)
  | .var id name _ => some (name, id)
  | _ => none

/-- Adds the value recorded for a node. -/
def putNode (recorded : Recorded) (bindings : List (String × Value)) (node : Expr) :
    List (String × Value) :=
  match keyOf? node with
  | some (key, id) =>
    match recorded.lookup id with
    | some v => put key v bindings
    | none => bindings
  | none => bindings

/-- The values recorded for the variables and paths of an expression. -/
def collect (e : Expr) (recorded : Recorded) : List (String × Value) :=
  e.nodes.foldl (putNode recorded) []

/-- The trace of an evaluation. -/
def ofRun (e : Expr) (recorded : Recorded) (result : Value) : Trace :=
  ⟨render e recorded result, collect e recorded⟩

end Trace

end Formula
