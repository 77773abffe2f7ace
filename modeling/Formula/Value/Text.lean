import Formula.Text.Printable
import Formula.Value.Basic

/-!
# Values as text

`Value.toText` is the text of a value in a result; `Value.debugText` also shows its kind.  Arrays
may be long, so both write onto the text that stands before.
-/

namespace Formula

/-- The type of an object. -/
def Contents.typeName {α : Type} : Contents α → String
  | .record r => r.typeName
  | .dictionary d => d.typeName
  | .host h => h.typeName

/-- A short description of an object: its type, and the number of entries of a dictionary. -/
def Contents.describe {α : Type} : Contents α → String
  | .dictionary d => d.typeName ++ " (" ++ Number.integerText d.entries.length ++ " entries)"
  | c => c.typeName

/-- The words for truth and falsehood. -/
def boolText (b : Bool) : String := if b then "TRUE" else "FALSE"

/-! ## Text for users -/

namespace Value

mutual

/-- Writes a value after `before`. -/
def write (before : String) : Value → String
  | empty => before
  | number x => before ++ Number.display x
  | decimal d => before ++ d.normalize.text
  | text s => before ++ s
  | boolean b => before ++ boolText b
  | dateTime d => before ++ d.text
  | array items => writeItems before items
  | object o => before ++ o.contents.describe

/-- Writes the items of an array after `before`, with commas between them. -/
def writeItems (before : String) : List Value → String
  | [] => before
  | [item] => write before item
  | item :: rest => writeItems (write before item ++ ", ") rest

end

/-- The text of a value; nothing for an absent one. -/
def toText (v : Value) : String := write "" v

/-! ## Text for developers -/

/-- The hexadecimal digits of a number. -/
def hexDigits (n : Nat) : List Char := Nat.toDigits 16 n

/-- How a character stands in quoted text. -/
def quotedChar (c : Char) : List Char :=
  match c with
  | '\x00' => ['\\', '0']
  | '\t' => ['\\', 't']
  | '\n' => ['\\', 'n']
  | '\r' => ['\\', 'r']
  | '"' => ['\\', '"']
  | '\\' => ['\\', '\\']
  | c =>
    if Formula.Text.isPrintable c then [c]
    else ['\\', 'u', '\x7b'] ++ hexDigits c.toNat ++ ['\x7d']

/-- A text in quotation marks, with characters that cannot be seen written by their codes. -/
def quoted (s : String) : String := "\"" ++ String.ofList (s.toList.flatMap quotedChar) ++ "\""

mutual

/-- Writes a value with its kind after `before`. -/
def writeDebug (before : String) : Value → String
  | empty => before ++ "Empty"
  | number x => before ++ "Number(" ++ Number.exact x ++ ")"
  | decimal d => before ++ "Decimal(" ++ d.text ++ ")"
  | text s => before ++ "String(" ++ quoted s ++ ")"
  | boolean b => before ++ (if b then "Boolean(true)" else "Boolean(false)")
  | dateTime d => before ++ "DateTime(" ++ d.debugText ++ ")"
  | array items => writeDebugItems (before ++ "Array([") items ++ "])"
  | object o => before ++ "Object(" ++ quoted o.contents.typeName ++ ")"

/-- Writes the items of an array with their kinds after `before`, with commas between them. -/
def writeDebugItems (before : String) : List Value → String
  | [] => before
  | [item] => writeDebug before item
  | item :: rest => writeDebugItems (writeDebug before item ++ ", ") rest

end

/-- A value with its kind, in full. -/
def debugText (v : Value) : String := writeDebug "" v

end Value

end Formula
