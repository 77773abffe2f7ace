import Formula.Text.CaseTable

/-!
# Characters equal up to case

Two characters are the same letter, whatever its case, when their simple case foldings agree.
-/

namespace Formula.Text

/-- The simple case folding of a character. -/
def foldCase (c : Char) : Nat :=
  if c.toNat < 128 then c.toLower.toNat else CaseRun.applyAll foldRuns c.toNat

/-- Whether two characters are the same up to case. -/
def sameLetter (a b : Char) : Bool := foldCase a = foldCase b

end Formula.Text
