import Formula.Text.CaseFold
import Formula.Text.Occurrence

/-!
# Wildcard patterns

A pattern is a text in which `*` stands for any run of characters and `?` for any one character;
line feeds are matched by neither.  Every other character stands for itself, whatever its case.  The
text is rewritten as an expression, in which a backslash makes a special character stand for itself,
and this is read.  `Wildcard.firstIndex?` is the leftmost position from which a pattern matches.
Expressions may be of any size.
-/

namespace Formula.Text

/-- One element of a pattern. -/
inductive Wildcard where
  | anyRun
  | anyOne
  | letter (c : Char)
deriving DecidableEq

namespace Wildcard

/-- The characters that mean something else in an expression unless a backslash stands before
them. -/
def special : List Char :=
  ['\\', '.', '+', '*', '?', '(', ')', '|', '[', ']', '\x7b', '\x7d', '^', '$', '#', '&', '-', '~']

/-- The expression that matches a character alone. -/
def escaped (c : Char) : List Char := if special.contains c then ['\\', c] else [c]

/-- The expression that matches a text alone. -/
def escape (text : List Char) : List Char := text.flatMap escaped

/-- The expression for a pattern's text: that of the text, in which the escaped wildcards are
replaced. -/
def expression (text : List Char) : List Char :=
  replaceAll ['\\', '?'] ['.'] (replaceAll ['\\', '*'] ['.', '*'] (escape text))

/-- What an expression says that is made of escaped special characters, others alone, any one
character and runs of any.  Expressions with special characters anywhere else are refused, and so
are backslashes before characters that are not special. -/
def read : List Char → Option (List Wildcard)
  | '\\' :: c :: rest => if special.contains c then (.letter c :: ·) <$> read rest else none
  | '.' :: '*' :: rest => (.anyRun :: ·) <$> read rest
  | '.' :: rest => (.anyOne :: ·) <$> read rest
  | c :: rest => if special.contains c then none else (.letter c :: ·) <$> read rest
  | [] => some []

/-- The pattern written as a text, if its expression can be read. -/
def ofText (text : List Char) : Option (List Wildcard) := read (expression text)

/-- The ends of a run of characters without line feeds from the start of a text: all the rests at
which `test` may be asked. -/
def anyRest (test : List Char → Bool) : List Char → Bool
  | [] => test []
  | c :: rest => test (c :: rest) || (c != '\n' && anyRest test rest)

/-- Whether a pattern matches some beginning of a text. -/
def matchesStart : List Wildcard → List Char → Bool
  | [], _ => true
  | .anyRun :: pattern, text => anyRest (matchesStart pattern) text
  | .anyOne :: pattern, c :: rest => c != '\n' && matchesStart pattern rest
  | .letter a :: pattern, c :: rest => sameLetter a c && matchesStart pattern rest
  | _ :: _, [] => false

/-- The leftmost position from which a pattern matches. -/
def firstIndex? (pattern : List Wildcard) (text : List Char) : Option Nat :=
  firstIndexWhere (matchesStart pattern) 0 text

end Wildcard

end Formula.Text
