import Formula.Function.Plan
import Formula.Text.Wildcard

/-!
# Functions of texts

Positions and lengths count characters, and positions start from 1.  `FIND` and `SEARCH` give −1 for
what is not there.
-/

namespace Formula.Plan

open Text (firstIndex? replaceAll replaceNth)

/-- A count from an argument: cut to a whole number, and refused if negative. -/
def countOr (count i : Nat) (default : Float) (function : String) : Plan Nat := do
  let x ← numberOr count i default
  if x < 0 then refuse (.negativeCount function) else return Number.toCount x

/-! ## Parts -/

/-- `LEN`. -/
def textLength : Plan Value := do return .ofNat (← text 0).length

/-- `LEFT`: so many characters from the start, one if left out. -/
def left (count : Nat) : Plan Value := do
  let s ← text 0
  let n ← countOr count 1 1 "LEFT"
  ofText (s.take n)

/-- `RIGHT`: so many characters from the end, one if left out. -/
def right (count : Nat) : Plan Value := do
  let s ← text 0
  let n ← countOr count 1 1 "RIGHT"
  ofText (s.drop (s.length - n))

/-- `MID`: so many characters from a position on.  A position that is NaN is taken for the first, as
in `startOr`. -/
def middle (count : Nat) : Plan Value := do
  let s ← text 0
  let start ← number 1
  if start < 1 then refuse .middleStartBelowOne
  else
    let n ← countOr count 2 0 "MID"
    ofText ((s.drop (Number.toCount start - 1)).take n)

/-- `UPPER`, `LOWER` and `TRIM`: a text that is made from a text. -/
def mapText (f : List Char → List Char) : Plan Value := do ofText (f (← text 0))

/-- `CONCATENATE`: the texts of all arguments, one after another. -/
def concatenate (count : Nat) : Plan Value := do
  return .text ((← values count).foldl (fun before v => before ++ v.toText) "")

/-! ## Search -/

/-- The number of characters before a start position, which is 1 if left out.  NaN is not below 1
and counts as 0, and in fixed-width arithmetic there is no number before that.  Here it is 0 again,
so NaN is taken for the first position: nothing is meant by this. -/
def startOr (count i : Nat) : Plan Nat := do
  let x ← numberOr count i 1
  if x < 1 then refuse .startBelowOne else return Number.toCount x - 1

/-- The position of an index in a text of which `skip` characters were passed over. -/
def position (skip : Nat) : Option Nat → Value
  | some i => .ofNat (skip + i + 1)
  | none => .number (-1)

/-- `FIND`: the first position of a text in another, from a start position on. -/
def find (count : Nat) : Plan Value := do
  let needle ← text 0
  let s ← text 1
  let skip ← startOr count 2
  return position skip (firstIndex? needle (s.drop skip))

/-- `SEARCH`: the first position from which a pattern matches, from a start position on. -/
def search (count : Nat) : Plan Value := do
  let pattern ← text 0
  let s ← text 1
  let skip ← startOr count 2
  match Text.Wildcard.ofText pattern with
  | some pattern => return position skip (Text.Wildcard.firstIndex? pattern (s.drop skip))
  | none => refuse .invalidPattern

/-- A text in which all occurrences of another are replaced, or the one with a given number.  A
number that is NaN is taken for 1, as in `startOr`. -/
def substituteIn (count : Nat) (s old new : List Char) : Plan Value :=
  if old = [] then ofText s
  else do
    match ← value? count 3 with
    | none => ofText (replaceAll old new s)
    | some v =>
      let n ← ofOutcome v.asNumber
      if n < 1 then refuse .instanceBelowOne
      else ofText (replaceNth old new (Number.toCount n - 1) s)

/-- `SUBSTITUTE`: a text in which another one is replaced by a third. -/
def substitute (count : Nat) : Plan Value := do
  let s ← text 0
  let old ← text 1
  let new ← text 2
  substituteIn count s old new

/-! ## Making texts -/

/-- A text so many times; the empty text is not repeated. -/
def repeated (n : Nat) (s : List Char) : List Char :=
  if s = [] then [] else (List.replicate n s).flatten

/-- `REPT`. -/
def repetition (count : Nat) : Plan Value := do
  let s ← text 0
  let n ← countOr count 1 0 "REPT"
  if maxTextLength < s.length * n then refuse (.tooLong "REPT") else ofText (repeated n s)

/-- `PadLeft` and `PadRight`: a text filled up to a width, with spaces unless a character is
given. -/
def pad (count : Nat) (function : String) (join : List Char → List Char → List Char) :
    Plan Value := do
  let s ← text 0
  let width ← countOr count 1 0 function
  if maxTextLength < width then refuse (.tooLong function)
  else
    let fill := ((← value? count 2).bind fun v => v.toText.toList.head?).getD ' '
    ofText (join (List.replicate (width - s.length) fill) s)

/-- The character with a code. -/
def character? (code : Float) : Option Char :=
  let n := Number.toUnsigned 32 code
  if h : 0 ≤ code ∧ n.isValidChar then some (Char.ofNatAux n h.2) else none

/-- `CHAR`: the character with a code. -/
def character : Plan Value := do
  let code ← number 0
  match character? code with
  | some c => ofText [c]
  | none => refuse (.invalidCharacter (Number.plain code))

/-- `VALUE`: the number that a text stands for; numbers and decimals stay. -/
def numericValue : Plan Value :=
  argument 0 fun
    | .number x => done (.number x)
    | .decimal d => done (.decimal d)
    | v => do return .number (← ofOutcome v.asNumber)

end Formula.Plan
