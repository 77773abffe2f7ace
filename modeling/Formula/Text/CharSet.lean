/-!
# Sets of characters as ranges of code points

Character classes of the Unicode standard are kept as ascending lists of closed ranges.  A table is
data; this module holds the one question that is asked of it.
-/

namespace Formula.Text

/-- A set of characters: closed ranges of code points, in ascending order. -/
abbrev CharSet := List (Nat × Nat)

namespace CharSet

/-- A character is in the set when one of the ranges holds its code point. -/
def contains (set : CharSet) (c : Char) : Bool :=
  set.any fun range => range.1 ≤ c.toNat && c.toNat ≤ range.2

end CharSet

end Formula.Text
