import Formula.Number.Shortest

/-!
# Numbers as text

Three ways to write a number with its shortest digits: `plain` never uses an exponent, `scientific`
always does, and `exact` (for developers) does so for very large and very small numbers only.
`display` is the form shown to users.
-/

namespace Formula.Number

/-- The digits of a natural number, first digit first. -/
def decimalDigits (n : Nat) : List Char := Nat.toDigits 10 n

/-- An integer in decimal notation. -/
def integerText (n : Int) : String :=
  (if n < 0 then "-" else "") ++ String.ofList (decimalDigits n.natAbs)

/-- Digits with the decimal point put where the exponent of the first digit says; `padded` asks for
at least one place after the point. -/
def positional (padded : Bool) (s : Scientific) : List Char :=
  let digits := decimalDigits s.digits
  if s.exponent < 0 then
    '0' :: '.' :: List.replicate (s.exponent.natAbs - 1) '0' ++ digits
  else
    let places := s.exponent.natAbs + 1
    if digits.length ≤ places then
      digits ++ List.replicate (places - digits.length) '0' ++ (if padded then ['.', '0'] else [])
    else digits.take places ++ '.' :: digits.drop places

/-- One digit, the others after a point, and the exponent. -/
def withExponent (s : Scientific) : List Char :=
  let mantissa := match decimalDigits s.digits with
    | [] => []
    | [d] => [d]
    | d :: rest => d :: '.' :: rest
  mantissa ++ 'e' :: (integerText s.exponent).toList

/-- Writes a number by `layout`, with the words for what is not finite. -/
def write (layout : Scientific → List Char) (x : Float) : String :=
  match parts? x with
  | none => if x.isNaN then "NaN" else if x < 0 then "-inf" else "inf"
  | some p =>
    let magnitude := if p.mantissa = 0 then ⟨0, 0⟩ else shortest p.mantissa p.exponent
    (if p.negative then "-" else "") ++ String.ofList (layout magnitude)

/-- Without an exponent: `1500`, `0.00001`. -/
def plain (x : Float) : String := write (positional false) x

/-- Always with an exponent: `1.5e3`, `1e-5`. -/
def scientific (x : Float) : String := write withExponent x

/-- For developers: a point always, and an exponent outside `0.0001` to `1e16`. -/
def exact (x : Float) : String :=
  write (fun s => if -4 ≤ s.exponent ∧ s.exponent < 16 then positional true s else withExponent s) x

/-- As shown to users: a whole number below `10 ^ 15` as an integer (so without the sign of a
negative zero), any other number in plain notation. -/
def display (x : Float) : String :=
  match parts? x with
  | some p =>
    if isWhole x && x.abs < 1e15 then integerText (wholePart p) else plain x
  | none => plain x

end Formula.Number
