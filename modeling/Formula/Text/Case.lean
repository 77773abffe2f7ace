import Formula.Text.CaseTable

/-!
# Upper and lower case

Full case mapping of a text, by the rules of the Unicode standard: most characters map to one
character, a few to several, and the Greek capital sigma becomes a final sigma at the end of a word.
Names are compared by their lower-case forms (`lowercase`) or, where only the ASCII letters matter,
by `equalIgnoringAsciiCase`.
-/

namespace Formula.Text

/-! ## Single characters -/

/-- The image of a character under a full mapping, given as expansions and runs. -/
def mapCase (expansions : List (Nat × List Nat)) (runs : List CaseRun) (c : Char) : List Char :=
  match expansions.lookup c.toNat with
  | some codes => codes.map Char.ofNat
  | none => [Char.ofNat (CaseRun.applyAll runs c.toNat)]

/-- The lower-case form of a character outside any context. -/
def lowerOf (c : Char) : List Char :=
  if c.toNat < 128 then [c.toLower] else mapCase lowerExpansions lowerRuns c

/-- The upper-case form of a character. -/
def upperOf (c : Char) : List Char :=
  if c.toNat < 128 then [c.toUpper] else mapCase upperExpansions upperRuns c

/-! ## Sigma at the end of a word -/

/-- The Greek capital letter sigma. -/
def capitalSigma : Char := 'Σ'

/-- Whether the first character that is not ignorable for casing is cased. -/
def startsCased (text : List Char) : Bool :=
  match text.dropWhile caseIgnorableRanges.contains with
  | c :: _ => casedRanges.contains c
  | [] => false

/-- The lower-case form of `c` between `before` (last character first) and `after`: a capital sigma
is final when a cased letter stands before it and none after it. -/
def lowerWithin (before : List Char) (c : Char) (after : List Char) : List Char :=
  if c = capitalSigma then
    if startsCased before && !startsCased after then ['ς'] else ['σ']
  else lowerOf c

/-! ## Texts -/

/-- Lower-cases the rest of a text.  `before` is what was read and `done` what was written, both
with the last character first. -/
def lowerOnto (before done : List Char) : List Char → List Char
  | [] => done.reverse
  | c :: rest => lowerOnto (c :: before) ((lowerWithin before c rest).reverse ++ done) rest

/-- Upper-cases the rest of a text, with what was written last character first. -/
def upperOnto (done : List Char) : List Char → List Char
  | [] => done.reverse
  | c :: rest => upperOnto ((upperOf c).reverse ++ done) rest

/-- The lower-case form of a text. -/
def lower (text : List Char) : List Char := lowerOnto [] [] text

/-- The upper-case form of a text. -/
def upper (text : List Char) : List Char := upperOnto [] text

/-- The lower-case form of a name. -/
def lowercase (name : String) : String := String.ofList (lower name.toList)

/-- Whether two texts are equal up to the case of their ASCII letters. -/
def equalIgnoringAsciiCase (a b : String) : Bool :=
  a.toList.map Char.toLower = b.toList.map Char.toLower

end Formula.Text
