import Formula.Text.Case

/-!
# Maps from names

A name is the same in upper and lower case, so a map holds its entries under names in lower case.
The order of the entries is of no account.
-/

namespace Formula

/-- A map from names to values. -/
structure NameMap (α : Type) where
  /-- The entries, under names in lower case. -/
  entries : List (String × α) := []

namespace NameMap

variable {α : Type}

/-- The value of a name. -/
def get? (m : NameMap α) (name : String) : Option α := m.entries.lookup (Text.lowercase name)

/-- Whether a name has a value. -/
def contains (m : NameMap α) (name : String) : Bool := (m.get? name).isSome

/-- The map without a name. -/
def erase (m : NameMap α) (name : String) : NameMap α :=
  let lower := Text.lowercase name
  ⟨m.entries.filter fun entry => entry.1 != lower⟩

/-- The map with a new value for a name. -/
def insert (m : NameMap α) (name : String) (value : α) : NameMap α :=
  ⟨(Text.lowercase name, value) :: (m.erase name).entries⟩

/-- The values, in no particular order. -/
def values (m : NameMap α) : List α := m.entries.map (·.2)

/-- The number of names. -/
def size (m : NameMap α) : Nat := m.entries.length

/-- Whether there are no names. -/
def isEmpty (m : NameMap α) : Bool := m.entries.isEmpty

end NameMap

end Formula
