import Formula.Object.Dictionary
import Formula.Object.Record

/-!
# Access to objects

Every object answers the same questions: for a member by name, in two steps, so that the `Handle`
found for a name can be kept for other objects of the same type; for an item by keys; and for what
stands in where data is missing.  There are three families of objects, of which that of the host is
not all that a host could implement (see `HostObject`).
-/

namespace Formula

/-- What a member name was resolved to.  Records and dictionaries use the name in lower case, host
objects a number. -/
inductive Handle where
  | named (lower : String)
  | position (n : Nat)
deriving DecidableEq, Repr

namespace HostObject

/-- The number of the first member with a name, ignoring the case of ASCII letters. -/
def find? (h : HostObject Value) (name : String) : Option Nat :=
  h.members.findIdx? fun m => Text.equalIgnoringAsciiCase m.1 name

/-- The item under one key: a number that is not negative is a position, cut to a whole one, and
text stands for the first item that has it as its text. -/
def indexed? (h : HostObject Value) : List Value → Option Value
  | [.number x] => if 0 ≤ x then h.items[Number.toCount x]? else none
  | [.text s] => h.items.find? fun item => item.toText == s
  | _ => none

end HostObject

namespace Contents

/-- What an object can be used as. -/
def shape : Contents Value → Shape
  | record _ => .plain
  | dictionary _ => .dictionary
  | host h => h.shape

/-- Resolves the name of a member. -/
def findMember? : Contents Value → String → Option Handle
  | record r, name => (r.find? name).map fun _ => .named (Text.lowercase name)
  | dictionary d, name =>
    let lower := Text.lowercase name
    (d.member? lower).map fun _ => .named lower
  | host h, name => (h.find? name).map .position

/-- The value of a member that was resolved for an object of the same type. -/
def member? : Contents Value → Handle → Option Value
  | record r, .named lower => (r.members.find? (Record.hasName lower)).map (·.value)
  | dictionary d, .named lower => d.member? lower
  | host h, .position n => h.members[n]?.map (·.2)
  | _, _ => none

/-- What stands in for a member that is empty. -/
def memberPlaceholder? : Contents Value → Handle → Option Value
  | record r, .named lower => (r.members.find? (Record.hasName lower)).bind (·.placeholder)
  | _, _ => none

/-- The value of a member by its name. -/
def get? (c : Contents Value) (name : String) : Option Value :=
  (c.findMember? name).bind c.member?

/-- The item under some keys. -/
def indexed? : Contents Value → List Value → Option Value
  | dictionary d, [key] => d.get? key
  | host h, keys => h.indexed? keys
  | _, _ => none

/-- Whether there is an item under some keys.  No family answers this in a way of its own. -/
def containsKey (c : Contents Value) (keys : List Value) : Bool := (c.indexed? keys).isSome

/-- The kind that keys are converted to before items are looked up. -/
def keyKind? : Contents Value → Option Kind
  | record _ => none
  | dictionary d => d.keyKind?
  | host h => h.keyKind

/-- What stands in for an item that is missing. -/
def elementPlaceholder? : Contents Value → Option Value
  | record _ => none
  | dictionary d => d.placeholder
  | host h => h.placeholder

end Contents

end Formula
