import Formula.Culture
import Formula.Number.Reading

/-!
# Number literals

A number literal has digits, a decimal separator with more digits, an exponent and a percent sign,
all but the digits optional.  `Numeral.start` takes the longest literal from the start of a text.
-/

namespace Formula

open Text (isDigit)

/-- The parts of a number literal. -/
structure Numeral where
  whole : List Char
  /-- Whether the separator is there. -/
  pointed : Bool
  fraction : List Char
  /-- The marker, sign and digits of the exponent, if there is one. -/
  exponent : List Char
  percent : Bool

namespace Numeral

/-- The exponent at the start of a text; empty unless digits follow the marker. -/
def exponentAt : List Char → List Char
  | [] => []
  | marker :: rest =>
    if marker = 'e' ∨ marker = 'E' then
      let (sign, rest) := match rest with
        | '+' :: rest => (['+'], rest)
        | '-' :: rest => (['-'], rest)
        | rest => ([], rest)
      let digits := rest.takeWhile isDigit
      if digits = [] then [] else marker :: sign ++ digits
    else []

/-- Whether a number literal starts with a character and those that follow it. -/
def startsWith (culture : Culture) (c : Char) (rest : List Char) : Bool :=
  isDigit c || (c == culture.decimalSeparator && rest.head?.any isDigit)

/-- The number literal at the start of a text. -/
def start (culture : Culture) (text : List Char) : Numeral :=
  let whole := text.takeWhile isDigit
  let text := text.dropWhile isDigit
  let pointed := text.head? == some culture.decimalSeparator
  let fraction := if pointed then (text.drop 1).takeWhile isDigit else []
  let text := if pointed then (text.drop 1).dropWhile isDigit else text
  let exponent := exponentAt text
  let percent := (text.drop exponent.length).head? == some culture.percentSign
  ⟨whole, pointed, fraction, exponent, percent⟩

/-- The number of characters of a literal. -/
def length (n : Numeral) : Nat :=
  n.whole.length + n.pointed.toNat + n.fraction.length + n.exponent.length + n.percent.toNat

/-- The literal with a decimal point and without the percent sign. -/
def text (n : Numeral) : List Char :=
  n.whole ++ (if n.pointed then '.' :: n.fraction else []) ++ n.exponent

/-- The number that a literal stands for. -/
def value? (n : Numeral) : Option Float :=
  (Number.read? n.text).map fun x => if n.percent then x / 100 else x

end Numeral

end Formula
