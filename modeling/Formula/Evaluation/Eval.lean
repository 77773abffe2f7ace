import Formula.Function.Plan
import Formula.Object.Access

/-!
# Computations of an evaluation

`Eval` computations read what is fixed for an evaluation, a `Run`, and change what is not, an
`EvalState`: the values recorded for a trace, the handles that path steps remember, and the world of
the host.  The state is kept when a computation fails.
-/

namespace Formula

/-! ## The world of the host -/

/-- What functions of the host can change, and what can change during an evaluation. -/
structure Host where
  /-- The tokens that were cancelled. -/
  cancelled : List Nat := []
  /-- How many calls were counted. -/
  calls : Nat := 0
  /-- After so many more polls the token of the evaluation is cancelled from outside. -/
  due : Option Nat := none

namespace Host

/-- Whether a token was cancelled. -/
def isCancelled (h : Host) (token : Nat) : Bool := h.cancelled.contains token

/-- Cancels a token. -/
def cancel (h : Host) (token : Nat) : Host := { h with cancelled := token :: h.cancelled }

/-- Asks whether an evaluation that carries a token is to stop. -/
def poll (h : Host) (token : Nat) : Bool × Host :=
  if h.isCancelled token then (true, h)
  else
    match h.due with
    | none => (false, h)
    | some 0 => (true, h.cancel token)
    | some (n + 1) => (false, { h with due := some n })

end Host

/-! ## Remembered handles -/

/-- For steps of paths, given by the number of the path and of the step, the type that the member
was last looked up in, and its handle. -/
abbrev Memo := List ((Nat × Nat) × (String × Handle))

namespace Memo

/-- The handle that a step remembers for a type. -/
def get? (m : Memo) (step : Nat × Nat) (typeName : String) : Option Handle :=
  match m.lookup step with
  | some (known, handle) => if known = typeName then some handle else none
  | none => none

/-- Remembers a handle, in place of another that the step remembered. -/
def remember (m : Memo) (step : Nat × Nat) (typeName : String) (handle : Handle) : Memo :=
  (step, typeName, handle) :: m.filter (·.1 != step)

end Memo

/-! ## Computations -/

/-- What is fixed for an evaluation. -/
structure Run where
  scope : Scope
  mode : Mode := .strict
  /-- Whether the values of calls, variables and paths are recorded. -/
  traced : Bool := false
  /-- The token through which the evaluation can be cancelled. -/
  token : Option Nat := none

/-- Values recorded for nodes, by their numbers, last value first. -/
abbrev Recorded := List (Nat × Value)

/-- What an evaluation changes. -/
structure EvalState where
  memo : Memo := []
  recorded : Recorded := []
  host : Host := {}

/-- A computation of an evaluation. -/
abbrev Eval := ReaderT Run (ExceptT CalcError (StateM EvalState))

namespace Eval

variable {α : Type}

/-- Runs a computation. -/
def exec (x : Eval α) (run : Run) (s : EvalState) : Outcome α × EvalState := x run s

/-- A computation that only passes on a result or an error. -/
def ofOutcome : Outcome α → Eval α
  | .ok a => pure a
  | .error e => throw e

/-- Stops if the evaluation was cancelled. -/
def poll : Eval Unit := do
  match (← read).token with
  | none => return ()
  | some token =>
    let (stop, host) := (← get).host.poll token
    modify fun s => { s with host }
    if stop then throw .cancelled

/-- Records the value of a node, if the evaluation is traced. -/
def record (id : Nat) (v : Value) : Eval Unit := do
  if (← read).traced then modify fun s => { s with recorded := (id, v) :: s.recorded }

/-- The value of a computation, or an absent value if it fails for want of a path. -/
def orEmpty (x : Eval Value) : Eval Value :=
  tryCatch x fun
    | .binding _ => return .empty
    | e => throw e

/-- The values of some computations, one after another; `before` are the values before them, last
value first. -/
def allOnto (before : List Value) : List (Eval Value) → Eval (List Value)
  | [] => return before.reverse
  | x :: xs => do
    let v ← x
    allOnto (v :: before) xs

/-- The values of some computations, one after another. -/
def all (xs : List (Eval Value)) : Eval (List Value) := allOnto [] xs

end Eval

/-! ## Running plans -/

/-- An argument of a call: its value, when it is asked for, and its printed form. -/
structure Argument where
  value : Eval Value
  source : Unit → String

/-- The value of an argument by its number. -/
def Argument.get (args : List Argument) (i : Nat) : Eval Value :=
  match args[i]? with
  | some a => a.value
  | none => throw (.argument (.missing i))

namespace Plan

/-- Carries out a plan for a call with the given arguments. -/
def run {α : Type} (args : List Argument) : Plan α → Eval α
  | done a => return a
  | fail e => throw e
  | argument i next => do
    let v ← Argument.get args i
    run args (next v)
  | argumentOrEmpty i next => do
    let v ← (Argument.get args i).orEmpty
    run args (next v)
  | poll next => do
    Eval.poll
    run args (next ())
  | askMode next => do run args (next (← read).mode)
  | askScope next => do run args (next (← read).scope)
  | source i next => run args (next (args[i]?.map fun a => a.source ()))
  | cancel token next => do
    modify fun s => { s with host := s.host.cancel token }
    run args (next ())
  | tally next => do
    modify fun s => { s with host := { s.host with calls := s.host.calls + 1 } }
    run args (next (← get).host.calls)

end Plan

end Formula
