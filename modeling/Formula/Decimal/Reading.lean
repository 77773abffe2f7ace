import Formula.Decimal.Basic
import Formula.Text.Letter

/-!
# Decimals read from text

A decimal is written with an optional sign and digits with at most one point; underscores may stand
between the digits.  Digits that do not fit after the point are rounded away by the first of them, a
five upwards.  An exponent of at most 28 may follow: it moves the point, and what it moves beyond
the 28th place is rounded away in the same manner.
-/

namespace Formula.Decimal

open Number (twoPow tenPow)
open Formula.Text (isDigit digitValue)

/-- What is read of a decimal so far. -/
structure Reading where
  coefficient : Nat
  scale : Nat
  /-- Whether the point was passed. -/
  pointed : Bool
  /-- Whether a digit was read. -/
  started : Bool

/-- The result when digits no longer fit after the point: the last kept one is rounded by the first
that is dropped, and nothing but digits and underscores may come after it.  A coefficient that
reaches the limit loses a place. -/
def Reading.rounded? (r : Reading) (dropped : Char) (rest : List Char) : Option (Nat × Nat) :=
  if (dropped :: rest).all fun c => isDigit c || c = '_' then
    if isDigit dropped && 5 ≤ digitValue dropped then
      if r.coefficient + 1 < limit then some (r.coefficient + 1, r.scale)
      else if r.scale = 0 then none
      else some ((r.coefficient + 1 + 4) / 10, r.scale - 1)
    else some (r.coefficient, r.scale)
  else none

/-- Whether an underscore is passed over.  Where the first dropped digit is expected, it stands for
a zero unless the coefficient needs more than 64 bits. -/
def Reading.passesUnderscore (r : Reading) : Bool :=
  r.started && (!r.pointed || r.scale < maxScale || twoPow 64 ≤ r.coefficient)

/-- Reads digits, a point and underscores up to the end. -/
def readDigits? (r : Reading) : List Char → Option (Nat × Nat)
  | [] => if r.started then some (r.coefficient, r.scale) else none
  | c :: rest =>
    if c = '_' && r.passesUnderscore then readDigits? r rest
    else if r.pointed && maxScale ≤ r.scale then r.rounded? c rest
    else if isDigit c then
      let coefficient := 10 * r.coefficient + digitValue c
      if coefficient < limit then
        readDigits? ⟨coefficient, if r.pointed then r.scale + 1 else 0, r.pointed, true⟩ rest
      else if r.pointed then r.rounded? c rest
      else none
    else if c = '.' && !r.pointed then readDigits? { r with pointed := true } rest
    else none

/-- Reads a decimal without an exponent. -/
def readPlain? (text : List Char) : Option Decimal :=
  let (negative, digits) := match text with
    | '-' :: rest => (true, rest)
    | '+' :: rest => (false, rest)
    | rest => (false, rest)
  (readDigits? ⟨0, 0, false, false⟩ digits).bind fun (coefficient, scale) =>
    ofResult? negative coefficient scale

/-- A whole number that may carry a plus sign. -/
def readWhole? (text : List Char) : Option Nat :=
  let digits := match text with
    | '+' :: rest => rest
    | rest => rest
  if digits ≠ [] ∧ digits.all isDigit then
    some (digits.foldl (fun n c => 10 * n + digitValue c) 0)
  else none

/-- A coefficient without its last `count` digits, rounded by the first of them. -/
def dropDigits (coefficient : Nat) : (count : Nat) → Nat
  | 0 => coefficient
  | count + 1 => dropLast (coefficient / tenPow count)

/-- The number `d · 10 ^ ± exponent`, for an exponent of at most 28.  Places are kept as far as
there are any. -/
def shift? (d : Decimal) (negative : Bool) (exponent : Nat) : Option Decimal :=
  if maxScale < exponent then none
  else if negative then
    let places := d.scale + exponent
    ofParts? d.negative (dropDigits d.coefficient (places - maxScale)) (min places maxScale)
  else if exponent ≤ d.scale then ofParts? d.negative d.coefficient (d.scale - exponent)
  else ofParts? d.negative (d.coefficient * tenPow (exponent - d.scale)) 0

/-- Reads a decimal. -/
def read? (text : List Char) : Option Decimal :=
  let isMarker : Char → Bool := fun c => c = 'e' || c = 'E'
  match text.dropWhile (!isMarker ·) with
  | [] => readPlain? text
  | _ :: exponent =>
    (readPlain? (text.takeWhile (!isMarker ·))).bind fun d =>
      match exponent with
      | '-' :: digits => (readWhole? digits).bind (d.shift? true)
      | digits => (readWhole? digits).bind (d.shift? false)

end Formula.Decimal
