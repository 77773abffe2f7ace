import Formula.Calendar.DateTime
import Formula.Decimal.Basic

/-!
# Values

A `Value` is what a literal stands for and what an expression gives.  Objects hold values and values
may be objects, so the containers are declared over any type of values: a `Record` has named
members, a `Dictionary` has entries under keys that are values, and a `HostObject` numbers its
members and may be indexed by position or by text.  An `Object` is such a container with an
identity: two objects are the same only if they are one.
-/

namespace Formula

/-! ## Kinds -/

/-- The kind of a value. -/
inductive Kind where
  | empty
  | number
  | decimal
  | text
  | boolean
  | dateTime
  | array
  | object
deriving DecidableEq, Repr

/-- The name of a kind in messages. -/
def Kind.name : Kind → String
  | .empty => "empty"
  | .number => "number"
  | .decimal => "decimal"
  | .text => "string"
  | .boolean => "boolean"
  | .dateTime => "datetime"
  | .array => "array"
  | .object => "object"

/-! ## Containers -/

/-- What an object can be used as, besides for its members. -/
inductive Shape where
  | plain
  /-- It has items at positions. -/
  | sequence
  /-- It has entries under keys. -/
  | dictionary
deriving DecidableEq, Repr

/-- The name of a shape in messages. -/
def Shape.name : Shape → String
  | .plain => "object"
  | .sequence => "sequence"
  | .dictionary => "dictionary"

/-- A member of a record.  The placeholder stands in for an empty value where data is incomplete. -/
structure Member (α : Type) where
  name : String
  value : α
  placeholder : Option α := none

/-- An object of some type with named members. -/
structure Record (α : Type) where
  typeName : String
  members : List (Member α) := []

/-- A container of values under keys, in the order in which the keys were first inserted. -/
structure Dictionary (α : Type) where
  typeName : String := "Dictionary"
  entries : List (α × α) := []
  /-- The kind that keys are converted to, if it is declared. -/
  declaredKind : Option Kind := none
  /-- What stands in for an element where data is incomplete. -/
  placeholder : Option α := none

/-- An object of the host that numbers its members and may have items: all that it can say is listed
beforehand.  Objects of a host that answer otherwise are left out: those that compute what they are
asked for or change between two questions, those that resolve names in another way than by the first
member with the name, those with placeholders for single members, those that take other keys than
one number or one text, and those that have keys for which they give no item. -/
structure HostObject (α : Type) where
  typeName : String
  shape : Shape := .plain
  members : List (String × α) := []
  items : List α := []
  keyKind : Option Kind := none
  placeholder : Option α := none

/-- What an object holds. -/
inductive Contents (α : Type) where
  | record (r : Record α)
  | dictionary (d : Dictionary α)
  | host (h : HostObject α)

/-- Contents with an identity. -/
structure Object (α : Type) where
  id : Nat
  contents : Contents α

/-! ## Values -/

/-- A value of the expression language. -/
inductive Value where
  | empty
  | number (x : Float)
  | decimal (d : Decimal)
  | text (s : String)
  | boolean (b : Bool)
  | dateTime (d : DateTime)
  | array (items : List Value)
  | object (o : Object Value)

instance : Inhabited Value := ⟨.empty⟩

namespace Value

/-- The kind of a value. -/
def kind : Value → Kind
  | empty => .empty
  | number _ => .number
  | decimal _ => .decimal
  | text _ => .text
  | boolean _ => .boolean
  | dateTime _ => .dateTime
  | array _ => .array
  | object _ => .object

/-- Whether a value is absent. -/
def isEmpty : Value → Bool
  | empty => true
  | _ => false

/-- Whether a value is a number or a decimal. -/
def isNumeric : Value → Bool
  | number _ | decimal _ => true
  | _ => false

/-- A count as a value. -/
def ofNat (n : Nat) : Value := number (Float.ofNat n)

/-- The items of an array. -/
def items? : Value → Option (List Value)
  | array items => some items
  | _ => none

end Value

end Formula
