import Formula.Function.Registry
import Formula.Proofs.Value.Operational

/-!
# What plans confine themselves to

A plan is confined when it works on the values of arguments: it never asks for the mode or for a
printed form, never acts on the world of the host, asks only for certain arguments, and of its own
accord raises only errors of its operation.  Every built-in function has a confined plan, which sees
the scope only if the function is contextual and goes on without an argument only if it is
`ValueOr`; with a right number of arguments it asks for none that is missing.
-/

namespace Formula

namespace Plan

variable {α β : Type}

/-- A plan that asks only for the arguments in `asks`, for the scope only if it `sees` it, and for
what to do without an argument only if it `recovers`. -/
inductive Confined (asks : Nat → Prop) (sees recovers : Prop) : Plan α → Prop
  | done (a : α) : Confined asks sees recovers (.done a)
  | fail {e : CalcError} (h : e.isOperational = true) : Confined asks sees recovers (.fail e)
  | argument {i : Nat} {next : Value → Plan α} (hi : asks i)
      (h : ∀ v, Confined asks sees recovers (next v)) :
    Confined asks sees recovers (.argument i next)
  | argumentOrEmpty {i : Nat} {next : Value → Plan α} (hr : recovers) (hi : asks i)
      (h : ∀ v, Confined asks sees recovers (next v)) :
    Confined asks sees recovers (.argumentOrEmpty i next)
  | poll {next : Unit → Plan α} (h : ∀ u, Confined asks sees recovers (next u)) :
      Confined asks sees recovers (.poll next)
  | askScope {next : Scope → Plan α} (hs : sees) (h : ∀ s, Confined asks sees recovers (next s)) :
      Confined asks sees recovers (.askScope next)

/-- Whether all errors that a plan raises of its own accord are of some sort. -/
def RaisesOnly (errors : CalcError → Prop) : Plan α → Prop
  | done _ => True
  | fail e => errors e
  | argument _ next | argumentOrEmpty _ next => ∀ v, (next v).RaisesOnly errors
  | poll next | cancel _ next => ∀ u, (next u).RaisesOnly errors
  | askMode next => ∀ mode, (next mode).RaisesOnly errors
  | askScope next => ∀ scope, (next scope).RaisesOnly errors
  | source _ next => ∀ s, (next s).RaisesOnly errors
  | tally next => ∀ n, (next n).RaisesOnly errors

/-- Of their own accord plans raise errors of any sort. -/
theorem raisesOnly_any (p : Plan α) : p.RaisesOnly fun _ => True := by
  induction p with
  | done | fail => exact trivial
  | argument _ _ ih | argumentOrEmpty _ _ ih => exact ih
  | poll _ ih | cancel _ _ ih => exact ih
  | askMode _ ih | askScope _ ih => exact ih
  | source _ _ ih => exact ih
  | tally _ ih => exact ih

/-- The errors that a plan raises may be said to be of a wider sort, by induction on the plan. -/
theorem RaisesOnly.mono {errors errors' : CalcError → Prop} {p : Plan α} (hp : p.RaisesOnly errors)
    (h : ∀ e, errors e → errors' e) : p.RaisesOnly errors' := by
  induction p with
  | done => trivial
  | fail e => exact h e hp
  | argument _ _ ih | argumentOrEmpty _ _ ih => exact fun v => ih v (hp v)
  | poll _ ih | cancel _ _ ih => exact fun u => ih u (hp u)
  | askMode _ ih | askScope _ ih => exact fun a => ih a (hp a)
  | source _ _ ih => exact fun s => ih s (hp s)
  | tally _ ih => exact fun n => ih n (hp n)

namespace Confined

variable {asks : Nat → Prop} {sees recovers : Prop} {count i : Nat}

/-- A plan that goes on with another is confined if both are, by induction on the first. -/
theorem bind {p : Plan α} {f : α → Plan β} (hp : Confined asks sees recovers p)
    (hf : ∀ a, Confined asks sees recovers (f a)) : Confined asks sees recovers (p >>= f) := by
  induction hp with
  | done a => exact hf a
  | fail h => exact .fail h
  | argument hi _ ih => exact .argument hi ih
  | argumentOrEmpty hr hi _ ih => exact .argumentOrEmpty hr hi ih
  | poll _ ih => exact .poll ih
  | askScope hs _ ih => exact .askScope hs ih

theorem ite {c : Prop} [Decidable c] {p q : Plan α} (hp : Confined asks sees recovers p)
    (hq : Confined asks sees recovers q) : Confined asks sees recovers (if c then p else q) := by
  split
  · exact hp
  · exact hq

/-- A confined plan raises operational errors only. -/
theorem raisesOnly {errors : CalcError → Prop} {p : Plan α} (hp : Confined asks sees recovers p)
    (h : ∀ e, e.isOperational = true → errors e) : p.RaisesOnly errors := by
  induction hp with
  | done a => trivial
  | fail he => exact h _ he
  | argument _ _ ih | argumentOrEmpty _ _ _ ih => exact ih
  | poll _ ih => exact ih
  | askScope _ _ ih => exact ih

/-! ## Arguments -/

theorem value (hi : asks i) :
    Confined asks sees recovers (Plan.value i) := .argument hi fun v => .done v

/-- An argument is asked for only if it is there. -/
theorem value? (hi : i < count → asks i) : Confined asks sees recovers (Plan.value? count i) := by
  unfold Plan.value?
  split
  · exact .argument (hi ‹_›) fun v => .done (some v)
  · exact .done none

/-- A conversion that fails is an operational error. -/
theorem ofOutcome {r : Outcome α} (h : r.Operational) :
    Confined asks sees recovers (Plan.ofOutcome r) := by
  cases r with
  | ok a => exact .done a
  | error e => exact .fail (h e rfl)

theorem number (hi : asks i) : Confined asks sees recovers (Plan.number i) :=
  .argument hi fun v => ofOutcome v.operational_asNumber

theorem boolean (hi : asks i) : Confined asks sees recovers (Plan.boolean i) :=
  .argument hi fun v => ofOutcome v.operational_asBool

theorem text (hi : asks i) :
    Confined asks sees recovers (Plan.text i) := .argument hi fun _ => .done _

/-- A number is asked for only if there is an argument for it. -/
theorem numberOr {default : Float} (hi : i < count → asks i) :
    Confined asks sees recovers (Plan.numberOr count i default) := by
  unfold Plan.numberOr
  split
  · exact number (hi ‹_›)
  · exact .done default

/-- Arguments in a row are asked for one by one. -/
theorem valuesFrom {next : List Value → Plan α} {before : List Value}
    (hi : ∀ j, i ≤ j → j < i + count → asks j) (h : ∀ vs, Confined asks sees recovers (next vs)) :
    Confined asks sees recovers (Plan.valuesFrom next count i before) := by
  induction count generalizing i before with
  | zero => exact h _
  | succ count ih =>
    refine .argument (hi i (Nat.le_refl i) (by omega)) fun v => ih fun j hj hlt => ?_
    exact hi j (by omega) (by omega)

theorem values (hi : ∀ j < count, asks j) : Confined asks sees recovers (Plan.values count) :=
  valuesFrom (fun j _ hj => hi j (by omega)) fun _ => .done _

theorem items (hi : ∀ j < count, asks j) : Confined asks sees recovers (Plan.items count) :=
  valuesFrom (fun j _ hj => hi j (by omega)) fun _ => .done _

/-! ## Results -/

theorem finite (x : Float) :
    Confined asks sees recovers (Plan.finite x) := .ite (.done _) (.fail rfl)

theorem ofText (s : List Char) : Confined asks sees recovers (Plan.ofText s) := .done _

/-- Only the want of an argument is no error of an operation. -/
theorem refuse {problem : ArgumentProblem} (h : (CalcError.argument problem).isOperational = true) :
    Confined asks sees recovers (Plan.refuse problem : Plan α) := .fail h

end Confined

end Plan

end Formula
