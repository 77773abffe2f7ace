import Formula.Error
import Formula.Value.Order

/-!
# Operators

The unary and binary operators of the language, on values.  Arithmetic on decimals stays with
decimals (except for powers), dates are shifted by days, and `+` joins texts unless a numeric text
meets a number.
-/

namespace Formula

/-- A unary operator. -/
inductive UnaryOp where
  | plus
  | negate
deriving DecidableEq, Repr

/-- The sign of an operator. -/
def UnaryOp.symbol : UnaryOp → String
  | .plus => "+"
  | .negate => "-"

/-- The operators of arithmetic. -/
inductive ArithmeticOp where
  | add
  | subtract
  | multiply
  | divide
  | divideWhole
  | power
deriving DecidableEq, Repr

/-- The operators that order two values. -/
inductive OrderOp where
  | less
  | lessEqual
  | greater
  | greaterEqual
deriving DecidableEq, Repr

/-- A binary operator. -/
inductive BinaryOp where
  | arithmetic (op : ArithmeticOp)
  | equal
  | notEqual
  | order (op : OrderOp)
  | and
  | or
deriving DecidableEq, Repr

/-- The sign of an operator. -/
def ArithmeticOp.symbol : ArithmeticOp → String
  | .add => "+"
  | .subtract => "-"
  | .multiply => "*"
  | .divide => "/"
  | .divideWhole => "\\"
  | .power => "^"

/-- The sign of an operator. -/
def OrderOp.symbol : OrderOp → String
  | .less => "<"
  | .lessEqual => "<="
  | .greater => ">"
  | .greaterEqual => ">="

/-- The sign of an operator. -/
def BinaryOp.symbol : BinaryOp → String
  | .arithmetic op => op.symbol
  | .equal => "="
  | .notEqual => "<>"
  | .order op => op.symbol
  | .and => "&&"
  | .or => "||"

/-- Whether an operator holds of two values that compare so. -/
def OrderOp.holds : OrderOp → Ordering → Bool
  | .less, o => o == .lt
  | .lessEqual, o => o != .gt
  | .greater, o => o == .gt
  | .greaterEqual, o => o != .lt

namespace Value

/-! ## Operands -/

/-- The number that an operand reads as. -/
def asNumber (v : Value) : Outcome Float :=
  match v.toNumber? with
  | some x => .ok x
  | none => .error (.evaluation (.notNumber v.kind v.toText))

/-- The truth value that an operand reads as. -/
def asBool (v : Value) : Outcome Bool :=
  match v.toBool? with
  | some b => .ok b
  | none => .error (.evaluation (.notBoolean v.kind v.toText))

/-! ## Unary operators -/

/-- Applies a unary operator. -/
def applyUnary (op : UnaryOp) (v : Value) : Outcome Value :=
  match op, v with
  | .plus, decimal d => .ok (decimal d)
  | .negate, decimal d => .ok (decimal d.neg)
  | .plus, v => v.asNumber.map number
  | .negate, v => v.asNumber.map fun x => number (-x)

/-! ## Arithmetic -/

/-- Whether `+` joins two values as texts. -/
def joins (l r : Value) : Bool :=
  match l, r with
  | text _, text _ => true
  | text _, _ | _, text _ => l.toNumber?.isNone || r.toNumber?.isNone
  | _, _ => false

/-- The number of milliseconds in a day. -/
def millisecondsPerDay : Float := 86400000

/-- A date some days later; a part of a day is rounded to milliseconds. -/
def shiftDate (d : DateTime) (days : Float) : Outcome Value :=
  let milliseconds := Number.round .halfAway (days * millisecondsPerDay)
  let shifted :=
    if milliseconds.isFinite && milliseconds.abs < 9223372036854775807 then
      d.shift? (Number.toSigned 64 milliseconds)
    else none
  match shifted with
  | some d => .ok (dateTime d)
  | none => .error (.evaluation .dateOutOfRange)

/-- Arithmetic on decimals; there are no decimal powers. -/
def decimalArithmetic (op : ArithmeticOp) (a b : Decimal) : Outcome Value :=
  if (op = .divide ∨ op = .divideWhole) ∧ b.isZero then .error (.evaluation .divisionByZero)
  else
    let result := match op with
      | .add => a.add? b
      | .subtract => a.sub? b
      | .multiply => a.mul? b
      | .divide => a.div? b
      | _ => (a.div? b).map Decimal.trunc
    match result with
    | some d => .ok (decimal d)
    | none => .error (.evaluation .decimalOverflow)

/-- Arithmetic on numbers. -/
def numberArithmetic (op : ArithmeticOp) (x y : Float) : Outcome Float :=
  match op with
  | .add => .ok (x + y)
  | .subtract => .ok (x - y)
  | .multiply => .ok (x * y)
  | .divide => if y == 0 then .error (.evaluation .divisionByZero) else .ok (x / y)
  | .divideWhole =>
    if y == 0 then .error (.evaluation .divisionByZero)
    else .ok (Number.round .truncate (x / y))
  | .power => .ok (Float.pow x y)

/-- Arithmetic on the numbers that two values read as. -/
def arithmeticAsNumbers (op : ArithmeticOp) (l r : Value) : Outcome Value := do
  let x ← l.asNumber
  let y ← r.asNumber
  let z ← numberArithmetic op x y
  return number z

/-- Applies an operator of arithmetic. -/
def applyArithmetic (op : ArithmeticOp) (l r : Value) : Outcome Value :=
  if op = .add ∧ l.joins r then .ok (text (l.toText ++ r.toText))
  else
    match op, l, r with
    | .subtract, dateTime a, dateTime b =>
      .ok (number (Float.ofInt (a.millisecondsSince b) / millisecondsPerDay))
    | .add, dateTime d, n => n.asNumber.bind (shiftDate d)
    | .add, n, dateTime d => n.asNumber.bind (shiftDate d)
    | .subtract, dateTime d, n => n.asNumber.bind fun x => shiftDate d (-x)
    | .power, l, r => arithmeticAsNumbers .power l r
    | op, decimal a, decimal b => decimalArithmetic op a b
    | op, l, r => arithmeticAsNumbers op l r

/-! ## All binary operators -/

/-- Applies an operator that orders two values. -/
def applyOrder (op : OrderOp) (l r : Value) : Outcome Value :=
  match compare? l r with
  | some o => .ok (boolean (op.holds o))
  | none => .error (.evaluation (.notComparable l.kind r.kind))

/-- Applies a binary operator to two values.  The right operand of `&&` and `||` need not read as a
truth value when the left one decides. -/
def applyBinary (op : BinaryOp) (l r : Value) : Outcome Value :=
  match op with
  | .arithmetic op => applyArithmetic op l r
  | .equal => .ok (boolean (equal l r))
  | .notEqual => .ok (boolean (!equal l r))
  | .order op => applyOrder op l r
  | .and => do if ← l.asBool then return boolean (← r.asBool) else return boolean false
  | .or => do if ← l.asBool then return boolean true else return boolean (← r.asBool)

end Value

end Formula
