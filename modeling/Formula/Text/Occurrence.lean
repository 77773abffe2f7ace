/-!
# Occurrences of one text in another

Positions count characters from zero.  `firstIndex?` is the leftmost position at which a text
occurs; `occurrences` are those found from left to right without overlap.
-/

namespace Formula.Text

/-- The leftmost position, counted from `position`, at which a test holds of what is left. -/
def firstIndexWhere (test : List Char → Bool) (position : Nat) : List Char → Option Nat
  | [] => if test [] then some position else none
  | c :: rest =>
    if test (c :: rest) then some position else firstIndexWhere test (position + 1) rest

/-- The leftmost position at which `needle` occurs. -/
def firstIndex? (needle text : List Char) : Option Nat :=
  firstIndexWhere needle.isPrefixOf 0 text

/-- The positions at which `needle` occurs, found from left to right without overlap and counted
from `position`; `skip` characters of an occurrence are still to be passed over. -/
def occurrencesFrom (needle : List Char) (position skip : Nat) : List Char → List Nat
  | [] => []
  | c :: rest =>
    match skip with
    | more + 1 => occurrencesFrom needle (position + 1) more rest
    | 0 =>
      if needle.isPrefixOf (c :: rest) then
        position :: occurrencesFrom needle (position + 1) (needle.length - 1) rest
      else occurrencesFrom needle (position + 1) 0 rest

/-- The positions of the occurrences of a needle that is not empty. -/
def occurrences (needle text : List Char) : List Nat := occurrencesFrom needle 0 0 text

/-- A text, of which `passed` characters were passed over, with `new` in the place of `size`
characters at each position. -/
def spliceAt (size : Nat) (new : List Char) (passed : Nat) (text : List Char) :
    List Nat → List Char
  | [] => text
  | position :: positions =>
    text.take (position - passed) ++ new ++
      spliceAt size new (position + size) (text.drop (position - passed + size)) positions

/-- Every occurrence of `old` replaced by `new`. -/
def replaceAll (old new text : List Char) : List Char :=
  spliceAt old.length new 0 text (occurrences old text)

/-- Only occurrence number `n`, counted from zero, replaced.  A text with fewer occurrences
stays. -/
def replaceNth (old new : List Char) (n : Nat) (text : List Char) : List Char :=
  match (occurrences old text)[n]? with
  | some position => text.take position ++ new ++ text.drop (position + old.length)
  | none => text

end Formula.Text
