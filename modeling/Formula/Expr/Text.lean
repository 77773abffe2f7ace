import Formula.Expr.Basic

/-!
# Printed expressions

`Expr.text` prints an expression with brackets around every operand that has a binary operator of
its own.  Literals are printed so that they read back: text in quotes, dates between number signs,
and an array as a call of the function that makes it.
-/

namespace Formula

/-- How literals are printed. -/
structure LiteralStyle where
  /-- The quote around a text; it is written twice inside. -/
  quote : Char
  /-- What stands before and after a date. -/
  dateMark : String
  opening : String
  closing : String

/-- The style in which literals read back. -/
def LiteralStyle.source : LiteralStyle := ⟨'"', "#", "Array(", ")"⟩

/-- A text with a character written twice. -/
def doubling (quote : Char) (s : String) : String :=
  String.ofList (s.toList.flatMap fun c => if c = quote then [c, c] else [c])

namespace Value

mutual

/-- Writes a literal after `before`. -/
def writeLiteral (style : LiteralStyle) (before : String) : Value → String
  | text s =>
    before ++ style.quote.toString ++ doubling style.quote s ++ style.quote.toString
  | dateTime d => before ++ style.dateMark ++ d.text ++ style.dateMark
  | array items => writeLiterals style (before ++ style.opening) items ++ style.closing
  | v => before ++ v.toText

/-- Writes literals after `before`, with commas between them. -/
def writeLiterals (style : LiteralStyle) (before : String) : List Value → String
  | [] => before
  | [item] => writeLiteral style before item
  | item :: rest => writeLiterals style (writeLiteral style before item ++ ", ") rest

end

/-- A literal as printed in an expression. -/
def literalText (v : Value) : String := writeLiteral .source "" v

end Value

namespace Expr

/-- Puts the text of an operand in brackets if it needs them. -/
def bracketed (operand : Expr) (text : String) : String :=
  if operand.isBinary then "(" ++ text ++ ")" else text

mutual

/-- An expression as text. -/
def text : Expr → String
  | literal v => v.literalText
  | unary op e => op.symbol ++ bracketed e e.text
  | binary op l r => bracketed l l.text ++ " " ++ op.symbol ++ " " ++ bracketed r r.text
  | call _ f args => f.name ++ "(" ++ listText args ++ ")"
  | var _ name index =>
    match index with
    | [] => name
    | _ :: _ => name ++ "[" ++ listText index ++ "]"
  | path _ _ written => written

/-- Expressions as text, with commas between them. -/
def listText : List Expr → String
  | [] => ""
  | [e] => e.text
  | e :: es => e.text ++ ", " ++ listText es

end

end Expr

/-- A step of a path as text; keys stand in round brackets, however they were written. -/
def Step.text (s : Step Expr) : String :=
  if s.listed then s.name ++ "(" ++ Expr.listText s.keys ++ ")" else s.name

end Formula
