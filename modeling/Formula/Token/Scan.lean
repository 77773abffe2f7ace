import Formula.Token.Basic
import Formula.Token.Numeral

/-!
# From characters to tokens

`scan` cuts a source into tokens.  Characters up to the space are skipped between tokens, and an
equals sign before the formula is skipped too.  Between a literal and a name a multiplication is
understood; it covers no characters.  The scan stops at the end of the source or at the first flaw.
-/

namespace Formula

open Text (isDigit isAlphabetic isAlphanumeric)

/-- How tokens are spelt: the culture, and the characters that names may hold besides letters,
digits and the underscore. -/
structure Spelling where
  culture : Culture := {}
  nameChars : List Char := []

/-- Something found at a place of the source, and the number of characters it extends over. -/
structure Found (α : Type) where
  item : α
  length : Nat

namespace Spelling

/-- Whether a name can start with a character. -/
def startsName (s : Spelling) (c : Char) : Bool :=
  isAlphabetic c || c == '_' || s.nameChars.contains c

/-- Whether a name can go on with a character. -/
def continuesName (s : Spelling) (c : Char) : Bool :=
  isAlphanumeric c || c == '_' || s.nameChars.contains c

end Spelling

/-! ## Single tokens -/

/-- The operator that two characters make. -/
def doubleOperator? : Char → Char → Option BinaryOp
  | '<', '>' => some .notEqual
  | '=', '=' => some .equal
  | '>', '=' => some (.order .greaterEqual)
  | '<', '=' => some (.order .lessEqual)
  | '&', '&' => some .and
  | '|', '|' => some .or
  | _, _ => none

/-- The sign that one character makes. -/
def sign? : Char → Option Lexeme
  | '+' => some (.operator (.arithmetic .add) "+")
  | '-' => some (.operator (.arithmetic .subtract) "-")
  | '*' => some (.operator (.arithmetic .multiply) "*")
  | '/' => some (.operator (.arithmetic .divide) "/")
  | '\\' => some (.operator (.arithmetic .divideWhole) "\\")
  | '^' => some (.operator (.arithmetic .power) "^")
  | '=' => some (.operator .equal "=")
  | '>' => some (.operator (.order .greater) ">")
  | '<' => some (.operator (.order .less) "<")
  | '(' => some (.opening .round)
  | ')' => some (.closing .round)
  | '[' => some (.opening .square)
  | ']' => some (.closing .square)
  | '\x7b' => some (.opening .curly)
  | '\x7d' => some (.closing .curly)
  | '.' => some .period
  | _ => none

/-- The sign that a text starts with. -/
def signAt? (c : Char) (rest : List Char) : Option (Found Lexeme) :=
  match rest.head?.bind (doubleOperator? c) with
  | some op => some ⟨.operator op (String.ofList (c :: rest.take 1)), 2⟩
  | none => (sign? c).map (⟨·, 1⟩)

/-- The text after an opening quote, up to the closing one; `done` is what was read, last character
first, and `length` the number of characters passed.  A quote written twice, of either sort, stands
for a double quote. -/
def textFrom (quote : Char) (done : List Char) (length : Nat) :
    List Char → Except (Found SyntaxProblem) (Found Lexeme)
  | [] => .error ⟨.unclosedText, length⟩
  | [c] =>
    if c = quote then .ok ⟨.literal (.text (String.ofList done.reverse)), length + 1⟩
    else .error ⟨.unclosedText, length + 1⟩
  | c :: d :: rest =>
    if c = quote then
      if d = quote then textFrom quote ('"' :: done) (length + 2) rest
      else .ok ⟨.literal (.text (String.ofList done.reverse)), length + 1⟩
    else textFrom quote (c :: done) (length + 1) (d :: rest)

/-- The date after its opening sign. -/
def dateFrom (culture : Culture) (rest : List Char) : Except (Found SyntaxProblem) (Found Lexeme) :=
  let body := rest.takeWhile (· != '#')
  if body.length = rest.length then .error ⟨.unclosedDate, rest.length + 1⟩
  else
    match culture.parseDate? body with
    | some date => .ok ⟨.literal (.dateTime date), body.length + 2⟩
    | none => .error ⟨.invalidDate, body.length + 2⟩

/-- The name that starts with a character. -/
def nameFrom (s : Spelling) (c : Char) (rest : List Char) :
    Except (Found SyntaxProblem) (Found Lexeme) :=
  if s.startsName c then
    let name := c :: rest.takeWhile s.continuesName
    .ok ⟨.name (String.ofList name), name.length⟩
  else .error ⟨.identifierExpected, 1⟩

/-- The number that starts with a character. -/
def numberFrom (culture : Culture) (text : List Char) :
    Except (Found SyntaxProblem) (Found Lexeme) :=
  let numeral := Numeral.start culture text
  match numeral.value? with
  | some x => .ok ⟨.literal (.number x), numeral.length⟩
  | none => .error ⟨.invalidNumber, numeral.length⟩

/-- The token that starts with a character. -/
def lexemeFrom (s : Spelling) (c : Char) (rest : List Char) :
    Except (Found SyntaxProblem) (Found Lexeme) :=
  if Numeral.startsWith s.culture c rest then numberFrom s.culture (c :: rest)
  else if c = s.culture.listSeparator then .ok ⟨.separator c, 1⟩
  else
    match signAt? c rest with
    | some found => .ok found
    | none =>
      if c = '"' ∨ c = '\'' then textFrom c [] 1 rest
      else if c = '#' then dateFrom s.culture rest
      else nameFrom s c rest

/-! ## All tokens -/

/-- What is wrong with a source, and where. -/
structure Flaw where
  problem : SyntaxProblem
  start : Nat
  stop : Nat

/-- The tokens of a source up to its end or its first flaw. -/
structure Scan where
  tokens : List Token
  flaw : Option Flaw

/-- A scan with tokens put before it. -/
def Scan.prepend (tokens : List Token) (scan : Scan) : Scan :=
  { scan with tokens := tokens ++ scan.tokens }

/-- Where the scan stopped. -/
def Scan.position (scan : Scan) : Nat :=
  match scan.flaw with
  | some flaw => flaw.stop
  | none => (scan.tokens.getLast?.map (·.stop)).getD 0

/-- Whether a character is skipped between tokens. -/
def isSkipped (c : Char) : Bool := c ≤ ' '

theorem length_dropWhile_le (p : Char → Bool) (l : List Char) :
    (l.dropWhile p).length ≤ l.length := by
  induction l with
  | nil => simp
  | cons c l ih =>
    simp only [List.dropWhile_cons]
    split
    · simp only [List.length_cons]
      omega
    · simp

/-- The token that was found, after an understood multiplication if it is a name and a literal
stands before it. -/
def tokensOf (afterLiteral : Bool) (start : Nat) (found : Found Lexeme) : List Token :=
  let token : Token := ⟨found.item, start, start + found.length⟩
  if afterLiteral && found.item.isName then [⟨.times, start, start⟩, token] else [token]

/-- The tokens of a text that starts at a position of the source. -/
def scanFrom (s : Spelling) (afterLiteral : Bool) (position : Nat) (text : List Char) : Scan :=
  let start := position + (text.takeWhile isSkipped).length
  match _h : text.dropWhile isSkipped with
  | [] => ⟨[⟨.finish, start, start⟩], none⟩
  | c :: rest =>
    match lexemeFrom s c rest with
    | .error found => ⟨[], some ⟨found.item, start, start + found.length⟩⟩
    | .ok found =>
      -- A token has at least one character, so `c` is always passed.
      let behind :=
        scanFrom s found.item.isLiteral (start + found.length) (rest.drop (found.length - 1))
      behind.prepend (tokensOf afterLiteral start found)
termination_by text.length
decreasing_by
  have := length_dropWhile_le isSkipped text
  simp only [_h, List.length_cons] at this
  simp only [List.length_drop]
  omega

/-- The tokens of a source. -/
def scan (s : Spelling) (source : List Char) : Scan :=
  match source with
  | '=' :: rest => scanFrom s false 1 rest
  | text => scanFrom s false 0 text

end Formula
