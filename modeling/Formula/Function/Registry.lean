import Formula.Function.Builtin

/-!
# Functions by name

A `FunctionDef` is a function that formulas can call, under the name it was registered with; a
`Registry` holds the functions that an engine knows.
-/

namespace Formula

/-- What a function does, by the number of its arguments. -/
inductive Implementation where
  | builtin (b : Builtin)
  /-- A function of the host that needs its arguments only. -/
  | plain (plan : Nat → Plan Value)
  /-- A function of the host that also depends on the data of the evaluation. -/
  | contextual (plan : Nat → Plan Value)

namespace Implementation

/-- What a function does with so many arguments. -/
def plan : Implementation → Nat → Plan Value
  | builtin b => b.plan
  | plain plan => plan
  | contextual plan => plan

/-- Whether a function depends on more than its arguments. -/
def isContextual : Implementation → Bool
  | builtin b => b.isContextual
  | plain _ => false
  | contextual _ => true

end Implementation

/-- A function that formulas can call. -/
structure FunctionDef where
  /-- The name as registered. -/
  name : String
  arity : Arity
  implementation : Implementation
  /-- A volatile function may give another result at the next call. -/
  volatile : Bool := false

namespace FunctionDef

/-- Refuses a wrong number of arguments. -/
def checkArity (f : FunctionDef) (count : Nat) : Outcome Unit :=
  if f.arity.accepts count then .ok () else .error (.argumentCount f.name f.arity count)

/-- Whether a call with known arguments can be replaced by its value: the function depends on
nothing else. -/
def isFoldable (f : FunctionDef) : Bool := !f.volatile && !f.implementation.isContextual

end FunctionDef

/-- The function that a built-in function is registered as. -/
def Builtin.definition (b : Builtin) : FunctionDef :=
  { name := b.name, arity := b.arity, implementation := .builtin b }

/-- Functions by name. -/
abbrev Registry := NameMap FunctionDef

namespace Registry

/-- The registry with a function in place of any other of the same name. -/
def register (r : Registry) (f : FunctionDef) : Registry := r.insert f.name f

/-- The registry with the built-in functions. -/
def builtin : Registry := Builtin.all.foldl (fun r b => register r b.definition) {}

end Registry

end Formula
