import Formula.Value.Order

/-!
# Dictionaries

The entries of a dictionary stand in the order in which their keys were first inserted.  Numbers and
decimals are the same key when they are the same float; all other keys are compared by structure.
-/

namespace Formula

/-- The float of a number or a decimal. -/
def Value.numeric? : Value → Option Float
  | .number x => some x
  | .decimal d => some d.toFloat
  | _ => none

/-- Whether two values are the same key. -/
def Value.sameKey (a b : Value) : Bool :=
  match a.numeric?, b.numeric? with
  | some x, some y => x == y
  | _, _ => a.same b

namespace Dictionary

/-- Changes the value of the first entry with a key; none if there is no such entry. -/
def replace? (key value : Value) : List (Value × Value) → Option (List (Value × Value))
  | [] => none
  | (k, v) :: entries =>
    if k.sameKey key then some ((k, value) :: entries)
    else (replace? key value entries).map ((k, v) :: ·)

/-- Inserts an entry.  A key that is there already stays and gets the new value. -/
def insert (d : Dictionary Value) (key value : Value) : Dictionary Value :=
  match replace? key value d.entries with
  | some entries => { d with entries }
  | none => { d with entries := d.entries ++ [(key, value)] }

/-- The value under a key. -/
def get? (d : Dictionary Value) (key : Value) : Option Value :=
  (d.entries.find? fun entry => entry.1.sameKey key).map (·.2)

/-- The keys, in order. -/
def keys (d : Dictionary Value) : List Value := d.entries.map (·.1)

/-- The values, in the order of their keys. -/
def values (d : Dictionary Value) : List Value := d.entries.map (·.2)

/-- The number of entries. -/
def size (d : Dictionary Value) : Nat := d.entries.length

/-- Whether there are no entries. -/
def isEmpty (d : Dictionary Value) : Bool := d.entries.isEmpty

/-- The kind that keys are converted to: the declared one, or else that of the first key. -/
def keyKind? (d : Dictionary Value) : Option Kind :=
  d.declaredKind.or (d.entries.head?.map fun entry => entry.1.kind)

/-- The value of a member that every dictionary has, its name given in lower case. -/
def member? (d : Dictionary Value) (lower : String) : Option Value :=
  if lower = "count" then some (.ofNat d.size)
  else if lower = "keys" then some (.array d.keys)
  else if lower = "values" then some (.array d.values)
  else none

end Dictionary

end Formula
