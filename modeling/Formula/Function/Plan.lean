import Formula.Scope
import Formula.Value.Operator

/-!
# Plans

A function of the language gets its arguments unevaluated.  What it does is a `Plan`: a program that
asks for the values of arguments, by number, when it needs them, and gives a result.  So a plan can
be reasoned about without an evaluator, and `IF` need not evaluate the branch that is not taken.

All functions of the language are plans.  Of the functions that a host registers some are left out:
those that go on after an argument failed with an error other than that of a path, and those that
evaluate formulas of their own with the engine that calls them.
-/

namespace Formula

/-- A program that asks for arguments. -/
inductive Plan (α : Type) where
  | done (a : α)
  | fail (error : CalcError)
  /-- Evaluates an argument. -/
  | argument (i : Nat) (next : Value → Plan α)
  /-- Evaluates an argument; a path that cannot be resolved counts as an absent value. -/
  | argumentOrEmpty (i : Nat) (next : Value → Plan α)
  /-- Stops if the evaluation was cancelled. -/
  | poll (next : Unit → Plan α)
  | askMode (next : Mode → Plan α)
  | askScope (next : Scope → Plan α)
  /-- The printed form of an argument, if there is one. -/
  | source (i : Nat) (next : Option String → Plan α)
  /-- Cancels the evaluations that carry a token. -/
  | cancel (token : Nat) (next : Unit → Plan α)
  /-- Counts a call and gives the number of calls counted so far. -/
  | tally (next : Nat → Plan α)

namespace Plan

variable {α β : Type}

/-- Goes on with the result of a plan. -/
def bind : Plan α → (α → Plan β) → Plan β
  | done a, f => f a
  | fail e, _ => fail e
  | argument i next, f => argument i fun v => (next v).bind f
  | argumentOrEmpty i next, f => argumentOrEmpty i fun v => (next v).bind f
  | poll next, f => poll fun u => (next u).bind f
  | askMode next, f => askMode fun m => (next m).bind f
  | askScope next, f => askScope fun s => (next s).bind f
  | source i next, f => source i fun s => (next s).bind f
  | cancel t next, f => cancel t fun u => (next u).bind f
  | tally next, f => tally fun n => (next n).bind f

instance : Monad Plan where
  pure := done
  bind := bind

/-- A plan that only passes on a result or an error. -/
def ofOutcome : Outcome α → Plan α
  | .ok a => done a
  | .error e => fail e

/-! ## Arguments -/

/-- The value of an argument. -/
def value (i : Nat) : Plan Value := argument i done

/-- The value of an argument, if there are more than `i` of them. -/
def value? (count i : Nat) : Plan (Option Value) :=
  if i < count then argument i fun v => done (some v) else done none

/-- An argument as a number. -/
def number (i : Nat) : Plan Float := argument i fun v => ofOutcome v.asNumber

/-- An argument as a number, or a default if there is no such argument. -/
def numberOr (count i : Nat) (default : Float) : Plan Float :=
  if i < count then number i else done default

/-- An argument as text. -/
def text (i : Nat) : Plan (List Char) := argument i fun v => done v.toText.toList

/-- An argument as a truth value. -/
def boolean (i : Nat) : Plan Bool := argument i fun v => ofOutcome v.asBool

/-- Goes on with the values of `count` arguments from number `i` on; `before` are the values before
them, last value first. -/
def valuesFrom (next : List Value → Plan α) : (count i : Nat) → (before : List Value) → Plan α
  | 0, _, before => next before.reverse
  | count + 1, i, before => argument i fun v => valuesFrom next count (i + 1) (v :: before)

/-- The values of all arguments. -/
def values (count : Nat) : Plan (List Value) := valuesFrom done count 0 []

/-- The items of a value: those of an array, and any other value alone. -/
def itemsOf : Value → List Value
  | .array items => items
  | v => [v]

/-- The values of all arguments, with the items of arrays in place of the arrays. -/
def items (count : Nat) : Plan (List Value) :=
  valuesFrom (fun vs => done (vs.flatMap itemsOf)) count 0 []

/-! ## Results -/

/-- A number as a result, which must be finite. -/
def finite (x : Float) : Plan Value :=
  if x.isFinite then done (.number x) else fail (.evaluation .resultOutOfRange)

/-- A text as a result. -/
def ofText (s : List Char) : Plan Value := done (.text (String.ofList s))

/-- An argument is refused. -/
def refuse (problem : ArgumentProblem) : Plan α := fail (.argument problem)

end Plan

end Formula
