import Formula.Error
import Formula.Value.Operator

/-!
# Errors of operations

What goes wrong in an operation on values is a matter of these values alone: operators never raise
the errors that have to do with the formula around them, its variables, its paths or the arguments
of its calls.
-/

namespace Formula

/-- Whether an error is one that an operation on values raises. -/
def CalcError.isOperational : CalcError → Bool
  | .evaluation _ => true
  | .argument (.missing _) => false
  | .argument _ => true
  | _ => false

/-- A result, or an error that an operation on values raises. -/
def Outcome.Operational {α : Type} (r : Outcome α) : Prop :=
  ∀ e, r = .error e → e.isOperational = true

namespace Outcome.Operational

variable {α β : Type}

theorem ok (a : α) : Operational (.ok a) := nofun

theorem error {e : CalcError} (h : e.isOperational = true) :
    Operational (.error e : Outcome α) := by
  rintro _ ⟨⟩
  exact h

/-- What goes on with a result raises operational errors if both parts do. -/
theorem bind {r : Outcome α} {f : α → Outcome β} (hr : Operational r)
    (hf : ∀ a, Operational (f a)) : Operational (r >>= f) := by
  cases r with
  | ok a => exact hf a
  | error e => exact error (hr e rfl)

theorem map {r : Outcome α} {f : α → β} (hr : Operational r) : Operational (r.map f) := by
  cases r with
  | ok a => exact ok (f a)
  | error e => exact error (hr e rfl)

theorem ite {c : Prop} [Decidable c] {r r' : Outcome α} (hr : Operational r)
    (hr' : Operational r') : Operational (if c then r else r') := by
  split
  · exact hr
  · exact hr'

end Outcome.Operational

open Outcome (Operational)

namespace Value

/-- A value that is no number is refused with an operational error. -/
theorem operational_asNumber (v : Value) : Operational v.asNumber := by
  unfold asNumber
  cases v.toNumber? with
  | some x => exact .ok x
  | none => exact .error rfl

/-- A value that is no truth value is refused with an operational error. -/
theorem operational_asBool (v : Value) : Operational v.asBool := by
  unfold asBool
  cases v.toBool? with
  | some b => exact .ok b
  | none => exact .error rfl

/-- A sign fails only where its operand is no number. -/
theorem operational_applyUnary (op : UnaryOp) (v : Value) : Operational (v.applyUnary op) := by
  unfold applyUnary
  split
  · exact .ok _
  · exact .ok _
  · exact (operational_asNumber _).map
  · exact (operational_asNumber _).map

/-! ## Arithmetic -/

/-- A date that is shifted out of the calendar is an operational error. -/
theorem operational_shiftDate (d : DateTime) (days : Float) : Operational (shiftDate d days) := by
  unfold shiftDate
  dsimp only
  split
  · exact .ok _
  · exact .error rfl

/-- Decimals divide by zero or go beyond their range. -/
theorem operational_decimalArithmetic (op : ArithmeticOp) (a b : Decimal) :
    Operational (decimalArithmetic op a b) := by
  unfold decimalArithmetic
  refine .ite (.error rfl) ?_
  dsimp only
  split
  · exact .ok _
  · exact .error rfl

/-- Numbers divide by zero, and nothing else can go wrong with them. -/
theorem operational_numberArithmetic (op : ArithmeticOp) (x y : Float) :
    Operational (numberArithmetic op x y) := by
  cases op with
  | add | subtract | multiply | power => exact .ok _
  | divide | divideWhole => exact .ite (.error rfl) (.ok _)

/-- Operands that are to be numbers are converted first. -/
theorem operational_arithmeticAsNumbers (op : ArithmeticOp) (l r : Value) :
    Operational (arithmeticAsNumbers op l r) := by
  unfold arithmeticAsNumbers
  refine (operational_asNumber l).bind fun x => (operational_asNumber r).bind fun y => ?_
  exact (operational_numberArithmetic op x y).bind fun z => .ok _

/-- Operators of arithmetic raise operational errors only, by the cases of their definition. -/
theorem operational_applyArithmetic (op : ArithmeticOp) (l r : Value) :
    Operational (applyArithmetic op l r) := by
  have hdate : ∀ (v : Value) (f : Float → Outcome Value), (∀ x, Operational (f x)) →
      Operational (v.asNumber.bind f) := fun v f hf => (operational_asNumber v).bind hf
  unfold applyArithmetic
  refine .ite (.ok _) ?_
  split
  · exact .ok _
  · exact hdate _ _ (operational_shiftDate _)
  · exact hdate _ _ (operational_shiftDate _)
  · exact hdate _ _ fun x => operational_shiftDate _ (-x)
  · exact operational_arithmeticAsNumbers _ _ _
  · exact operational_decimalArithmetic _ _ _
  · exact operational_arithmeticAsNumbers _ _ _

/-! ## All binary operators -/

/-- Operators that order raise an error only for values that do not compare. -/
theorem operational_applyOrder (op : OrderOp) (l r : Value) : Operational (applyOrder op l r) := by
  unfold applyOrder
  split
  · exact .ok _
  · exact .error rfl

/-- So all operators between two values raise operational errors only. -/
theorem operational_applyBinary (op : BinaryOp) (l r : Value) :
    Operational (l.applyBinary op r) := by
  cases op with
  | arithmetic op => exact operational_applyArithmetic op l r
  | equal | notEqual => exact .ok _
  | order op => exact operational_applyOrder op l r
  | and =>
    refine (operational_asBool l).bind fun b => .ite ?_ (.ok _)
    exact (operational_asBool r).bind fun b => .ok _
  | or =>
    refine (operational_asBool l).bind fun b => .ite (.ok _) ?_
    exact (operational_asBool r).bind fun b => .ok _

end Value

end Formula
