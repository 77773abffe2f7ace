import Formula.Engine.Basic
import Formula.Token.Comment

/-!
# Reading and evaluating formulas

The operations of an engine on formulas.  They change the engine: its cache, its trace, and the
world that functions of the host act on.  These changes stay when an operation fails.
-/

namespace Formula

/-- An operation of an engine. -/
abbrev EngineM := ExceptT CalcError (StateM Engine)

/-- Settings of a single evaluation. -/
structure EvaluateOptions where
  /-- Whether a path that cannot be resolved is an error. -/
  strict : Bool := true
  /-- Whether the evaluation leaves its trace. -/
  trace : Bool := true
  /-- Whether the tree may come from the cache. -/
  useCache : Bool := false
  /-- The token through which the evaluation can be cancelled. -/
  token : Option Nat := none

/-- The mode of an evaluation. -/
def EvaluateOptions.mode (o : EvaluateOptions) : Mode := if o.strict then .strict else .lenient

namespace Engine

/-! ## Reading -/

/-- Folds an expression against the data of the engine. -/
def fold (expr : Expr) : EngineM Expr := do
  let e ← get
  let (expr, host) := (expr.fold e.scope).run e.host
  set { e with host }
  return expr

/-- Reads a formula; comments are left out. -/
def parse (text : String) : EngineM Expr := do
  let e ← get
  let expr ← parseSource e.names e.spelling (stripComments text.toList)
  if e.optimizes then fold expr else return expr

/-- The tree of a formula, from the cache if that is wanted and it is there. -/
def treeOf (text : String) (useCache : Bool) : EngineM Tree := do
  let e ← get
  match if useCache then e.cache.bind (·.get? text) else none with
  | some tree => return tree
  | none =>
    let tree : Tree := { expr := ← parse text }
    if useCache then modify fun e => { e with cache := e.cache.map (·.insert text tree) }
    return tree

/-! ## Evaluating -/

/-- Evaluates a tree.  The result comes with the tree as it is afterwards. -/
def run (tree : Tree) (options : EvaluateOptions) (mode : Mode) :
    StateM Engine (Outcome Value × Tree) := do
  let e ← get
  let (result, s) := tree.expr.evaluate.exec
    { scope := e.scope, mode, traced := options.trace, token := options.token }
    { memo := tree.memo, host := e.host }
  let trace := match result with
    | .ok v => some (Trace.ofRun tree.expr s.recorded v)
    | .error _ => none
  set { e with host := s.host, lastTrace := if options.trace then trace else e.lastTrace }
  return (result, { tree with memo := s.memo })

/-- Evaluates the formula of a text in some mode. -/
def evaluateIn (mode : Mode) (text : String) (options : EvaluateOptions) : EngineM Value := do
  let tree ← treeOf text options.useCache
  let (result, tree) ← run tree options mode
  if options.useCache then modify fun e => { e with cache := e.cache.map (·.replace text tree) }
  result

/-- Evaluates a formula. -/
def evaluate (text : String) (options : EvaluateOptions := {}) : EngineM Value :=
  evaluateIn options.mode text options

/-- Evaluates a tree that was read before. -/
def evaluateTree (tree : Tree) (options : EvaluateOptions := {}) :
    StateM Engine (Outcome Value × Tree) :=
  run tree options options.mode

/-- Tries a formula on data that may be incomplete: placeholders stand in for what is missing.  The
trace of the last evaluation stays. -/
def validate (text : String) (useCache : Bool := false) : EngineM Value :=
  evaluateIn .validation text { trace := false, useCache }

/-! ## Typed results -/

/-- Converts a result to a type. -/
def cast (α : Type) [OfValue α] (v : Value) : Outcome α :=
  match OfValue.ofValue? v with
  | some a => .ok a
  | none => .error (.cast v.toText v.kind (OfValue.typeName α))

/-- Evaluates a formula and converts the result. -/
def evaluateAs (α : Type) [OfValue α] (text : String) (options : EvaluateOptions := {}) :
    EngineM α := do
  cast α (← evaluate text options)

/-- Tries a formula on incomplete data and converts the result. -/
def validateAs (α : Type) [OfValue α] (text : String) : EngineM α := do
  cast α (← validate text)

/-- Evaluates a formula and converts the result; there is none if that fails. -/
def evaluateAs? (α : Type) [OfValue α] (text : String) : StateM Engine (Option α) := do
  return (← (evaluateAs α text).run).toOption

/-! ## Diagnostics -/

/-- The formula of the last traced evaluation, annotated, if that gave a value. -/
def parsedExpression (e : Engine) : Option String := e.lastTrace.map (·.expression)

/-- What the last traced evaluation read of variables and paths, if it gave a value. -/
def contextBindings (e : Engine) : List (String × Value) :=
  (e.lastTrace.map (·.bindings)).getD []

end Engine

end Formula
