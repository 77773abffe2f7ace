import Formula.Expr.Fold
import Formula.Expr.Parse
import Formula.Trace

/-!
# The engine

An `Engine` holds what formulas are read and evaluated against: functions, variables, data, culture
and options; the cache of trees that were read before; and the trace of the last evaluation.  A
change to anything that decides how a formula is read empties the cache, except for the names of
variables, the presence of data and the names that are skipped.
-/

namespace Formula

/-! ## Trees and the cache -/

/-- The tree of a formula, with the handles that the steps of its paths remember. -/
structure Tree where
  expr : Expr
  memo : Memo := []

/-- Trees by the exact text of their formulas. -/
abbrev Cache := List (String × Tree)

namespace Cache

/-- The tree of a text. -/
def get? (c : Cache) (text : String) : Option Tree := c.lookup text

/-- The cache with a tree for a text, in place of any other. -/
def insert (c : Cache) (text : String) (tree : Tree) : Cache :=
  (text, tree) :: c.filter (·.1 != text)

/-- The cache with another tree for a text that it has. -/
def replace (c : Cache) (text : String) (tree : Tree) : Cache :=
  c.map fun entry => if entry.1 = text then (text, tree) else entry

end Cache

/-! ## The engine -/

/-- What formulas are read and evaluated against. -/
structure Engine where
  functions : Registry := .builtin
  /-- The values of the variables. -/
  vars : NameMap Value := {}
  /-- The value that paths start from. -/
  context : Option Value := none
  culture : Culture := {}
  options : Options := {}
  /-- Characters that names may hold besides letters, digits and the underscore. -/
  nameChars : List Char := []
  /-- Whether trees are folded when they are read. -/
  optimizes : Bool := true
  /-- The trees that were read before, unless they are not kept. -/
  cache : Option Cache := some []
  /-- Objects from outside, by their exact names. -/
  externals : String → Option Value := fun _ => none
  lastTrace : Option Trace := none
  host : Host := {}

namespace Engine

/-- The data that formulas are evaluated against. -/
def scope (e : Engine) : Scope := ⟨e.vars, e.context, e.options.trimStart⟩

/-- How tokens are spelt. -/
def spelling (e : Engine) : Spelling := ⟨e.culture, e.nameChars⟩

/-- What names stand for. -/
def names (e : Engine) : Names where
  function? := e.functions.get?
  isVariable := e.vars.contains
  external? := e.externals
  startsPath name := e.context.isSome && !e.options.isSkipped name

/-! ### Settings -/

/-- Empties the cache. -/
def clearCache (e : Engine) : Engine := { e with cache := e.cache.map fun _ => [] }

/-- Declares a variable or gives it another value. -/
def setVariable (e : Engine) (name : String) (v : Value) : Engine :=
  { e with vars := e.vars.insert name v }

/-- Removes a variable. -/
def removeVariable (e : Engine) (name : String) : Engine :=
  { e with vars := e.vars.erase name }

/-- Removes all variables. -/
def clearVariables (e : Engine) : Engine := { e with vars := {} }

/-- Sets the value that paths start from. -/
def setContext (e : Engine) (root : Value) : Engine := { e with context := some root }

/-- Removes the value that paths start from. -/
def clearContext (e : Engine) : Engine := { e with context := none }

/-- Changes the functions. -/
def modifyFunctions (e : Engine) (f : Registry → Registry) : Engine :=
  { e with functions := f e.functions }.clearCache

/-- Changes the culture. -/
def setCulture (e : Engine) (culture : Culture) : Engine := { e with culture }.clearCache

/-- Changes the options. -/
def modifyOptions (e : Engine) (f : Options → Options) : Engine := { e with options := f e.options }

/-- Changes the characters that names may hold besides letters, digits and the underscore. -/
def setNameChars (e : Engine) (nameChars : List Char) : Engine := { e with nameChars }.clearCache

/-- Says whether trees are folded when they are read. -/
def setOptimizes (e : Engine) (optimizes : Bool) : Engine := { e with optimizes }.clearCache

/-- Says whether trees are kept.  A cache that is there already stays as it is. -/
def setCaching (e : Engine) (on : Bool) : Engine :=
  { e with cache := if on then some (e.cache.getD []) else none }

/-- Changes the objects from outside. -/
def setExternals (e : Engine) (externals : String → Option Value) : Engine :=
  { e with externals }.clearCache

end Engine

end Formula
