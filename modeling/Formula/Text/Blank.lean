import Formula.Text.CharSet

/-!
# Blank characters

The characters with the Unicode property `White_Space`, and the removal of blanks from the ends of a
text.
-/

namespace Formula.Text

/-- The characters with the property `White_Space`. -/
def blankRanges : CharSet :=
  [(9, 13), (32, 32), (133, 133), (160, 160), (5760, 5760), (8192, 8202), (8232, 8233),
   (8239, 8239), (8287, 8287), (12288, 12288)]

/-- Whether a character counts as blank space. -/
def isBlank (c : Char) : Bool := blankRanges.contains c

/-- Without the blanks it starts with. -/
def trimStart (text : List Char) : List Char := text.dropWhile isBlank

/-- Without the blanks it ends with. -/
def trimEnd (text : List Char) : List Char := (text.reverse.dropWhile isBlank).reverse

/-- Without the blanks at either end. -/
def trim (text : List Char) : List Char := trimEnd (trimStart text)

end Formula.Text
