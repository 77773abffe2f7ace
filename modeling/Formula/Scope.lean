import Formula.NameMap
import Formula.Value.Basic

/-!
# What an evaluation sees

A `Scope` holds the data that a formula is evaluated against, and a `Mode` says what becomes of a
path that the data do not have.
-/

namespace Formula

/-- The data of an evaluation. -/
structure Scope where
  /-- The values of the variables. -/
  vars : NameMap Value := {}
  /-- The value that paths start from. -/
  context : Option Value := none
  /-- Characters that `Contains` takes off the start of texts. -/
  trimStart : List Char := []

/-- What becomes of a path that cannot be resolved. -/
inductive Mode where
  /-- It is an error. -/
  | strict
  /-- It gives an absent value. -/
  | lenient
  /-- Placeholders stand in for missing data; only an unknown member is an error. -/
  | validation
deriving DecidableEq, Repr

/-- Whether a missing key or an absent value in a path is an error as such.  A validation counts as
strict here, although it replaces what is missing. -/
def Mode.throws (m : Mode) : Bool := m != .lenient

end Formula
