import Formula.Number.Parts
import Formula.Text.Blank
import Formula.Text.Letter

/-!
# Numbers read from text

The accepted texts are an optional sign and then `inf`, `infinity` or `nan` in any case, or digits
with at most one point among them and an optional exponent.  The value is the float nearest to the
decimal.
-/

namespace Formula.Number

open Formula.Text (isDigit digitValue)

/-- The natural number that decimal digits stand for, `n` being what was read before them. -/
def digitsValue (n : Nat) (digits : List Char) : Nat :=
  digits.foldl (fun n c => 10 * n + digitValue c) n

/-- The float nearest to `mantissa · 10 ^ exponent`.  Beyond the range of floats the power of ten is
not formed. -/
def ofScientific (mantissa : Nat) (exponent : Int) : Float :=
  let magnitude := (Nat.toDigits 10 mantissa).length + exponent
  if mantissa = 0 then 0
  else if 310 < magnitude then infinity
  else if magnitude < -330 then 0
  else Float.ofScientific mantissa (exponent < 0) exponent.natAbs

/-- The exponent at the end of a number: nothing, or `e` and a whole number. -/
def readExponent? : List Char → Option Int
  | [] => some 0
  | marker :: rest =>
    if marker = 'e' ∨ marker = 'E' then
      let (negative, digits) := match rest with
        | '-' :: digits => (true, digits)
        | '+' :: digits => (false, digits)
        | digits => (false, digits)
      if digits ≠ [] ∧ digits.all isDigit then
        let n : Int := digitsValue 0 digits
        some (if negative then -n else n)
      else none
    else none

/-- Digits, an optional point with more digits, an optional exponent. -/
def readDecimal? (text : List Char) : Option Float :=
  let whole := text.takeWhile isDigit
  let (fraction, rest) := match text.dropWhile isDigit with
    | '.' :: rest => (rest.takeWhile isDigit, rest.dropWhile isDigit)
    | rest => ([], rest)
  if whole = [] ∧ fraction = [] then none
  else (readExponent? rest).map fun exponent =>
    ofScientific (digitsValue (digitsValue 0 whole) fraction) (exponent - fraction.length)

/-- A number without a sign. -/
def readUnsigned? (text : List Char) : Option Float :=
  match readDecimal? text with
  | some x => some x
  | none =>
    let word := text.map Char.toLower
    if word = "inf".toList ∨ word = "infinity".toList then some infinity
    else if word = "nan".toList then some notANumber
    else none

/-- Reads a number. -/
def read? : List Char → Option Float
  | '-' :: rest => (readUnsigned? rest).map (-·)
  | '+' :: rest => readUnsigned? rest
  | text => readUnsigned? text

/-- Reads a number between blanks. -/
def readTrimmed? (text : String) : Option Float := read? (Formula.Text.trim text.toList)

end Formula.Number
