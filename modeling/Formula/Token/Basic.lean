import Formula.Culture
import Formula.Value.Operator

/-!
# Tokens

The source of a formula is read as a sequence of tokens: operators, brackets, periods, list
separators, literals and names.  A token knows the characters it covers; positions count characters
from the start of the source.
-/

namespace Formula

/-- The three pairs of brackets. -/
inductive Bracket where
  | round
  | square
  | curly
deriving DecidableEq, Repr

/-- The character that opens a group. -/
def Bracket.opening : Bracket → Char
  | .round => '('
  | .square => '['
  | .curly => '\x7b'

/-- The character that closes a group. -/
def Bracket.closing : Bracket → Char
  | .round => ')'
  | .square => ']'
  | .curly => '\x7d'

/-- What a token is. -/
inductive Lexeme where
  /-- An operator and its spelling; equality may be written with one sign or two. -/
  | operator (op : BinaryOp) (written : String)
  | opening (b : Bracket)
  | closing (b : Bracket)
  | period
  /-- The separator between the items of a list. -/
  | separator (c : Char)
  | literal (v : Value)
  | name (s : String)
  /-- The end of the source. -/
  | finish

namespace Lexeme

/-- Whether a token is a literal. -/
def isLiteral : Lexeme → Bool
  | literal _ => true
  | _ => false

/-- Whether a token is a name. -/
def isName : Lexeme → Bool
  | name _ => true
  | _ => false

/-- The multiplication that is understood between a literal and a name. -/
def times : Lexeme := operator (.arithmetic .multiply) "*"

/-- The value that a token carries: that of a literal, and the text of a name or a sign. -/
def value : Lexeme → Value
  | operator _ written => .text written
  | opening b => .text b.opening.toString
  | closing b => .text b.closing.toString
  | period => .text "."
  | separator c => .text c.toString
  | literal v => v
  | name s => .text s
  | finish => .empty

end Lexeme

/-- A token and the characters it covers, from `start` to before `stop`. -/
structure Token where
  lexeme : Lexeme
  start : Nat
  stop : Nat

/-- The number of bytes that the first `n` characters of a source take. -/
def byteOffset (source : List Char) (n : Nat) : Nat :=
  (source.take n).foldl (fun bytes c => bytes + c.utf8Size) 0

/-- The source with the characters from `start` to before `stop` in brackets. -/
def markedSource (source : List Char) (start stop : Nat) : String :=
  let marked := (source.take stop).drop start
  String.ofList (source.take start ++ '[' :: marked ++ ']' :: source.drop stop)

end Formula
