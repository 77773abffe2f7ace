import Formula.Value.Conversion

/-!
# Equality and order of values

There are two equalities.  `Value.same` is structural: equal kinds with equal contents, and for
objects one identity.  `Value.equal` is the equality of the language: it compares the items of
arrays, and otherwise holds when `Value.compare?` finds neither value before the other.
-/

namespace Formula

namespace Value

/-! ## Structural equality -/

mutual

/-- Structural equality.  Numbers are equal as numbers, so both zeros are the same and what is not a
number differs from itself. -/
def same : Value → Value → Bool
  | empty, empty => true
  | number a, number b => a == b
  | decimal a, decimal b => a.equal b
  | text a, text b => a == b
  | boolean a, boolean b => a == b
  | dateTime a, dateTime b => a == b
  | array as, array bs => sameItems as bs
  | object a, object b => a.id == b.id
  | _, _ => false

/-- Structural equality, item by item. -/
def sameItems : List Value → List Value → Bool
  | [], [] => true
  | a :: as, b :: bs => same a b && sameItems as bs
  | _, _ => false

end

/-! ## Order -/

/-- How text compares with a number: as a number if it can be read as one, and as text otherwise. -/
def compareTextWith (s : String) (other : Value) : Option Ordering :=
  match Number.readTrimmed? s with
  | some x => other.toNumber?.bind (Number.compare? x)
  | none => some (compare s other.toText)

/-- How two values compare by the numbers they read as. -/
def compareNumbers (a b : Value) : Option Ordering :=
  match a.toNumber?, b.toNumber? with
  | some x, some y => Number.compare? x y
  | _, _ => none

/-- How two values compare, if they can be compared.  Numbers compare as numbers, text by its
characters, dates by time, and false stands before true.  An absent value counts as zero beside
numbers and as empty text beside text. -/
def compare? : Value → Value → Option Ordering
  | empty, empty => some .eq
  | decimal a, decimal b => some (a.compare b)
  | text a, text b => some (compare a b)
  | empty, text b => some (compare "" b)
  | text a, empty => some (compare a "")
  | dateTime a, dateTime b => some (a.compare b)
  | boolean a, boolean b => some (compare a b)
  | text a, number b => compareTextWith a (number b)
  | text a, decimal b => compareTextWith a (decimal b)
  | number a, text b => (compareTextWith b (number a)).map Ordering.swap
  | decimal a, text b => (compareTextWith b (decimal a)).map Ordering.swap
  | array _, _ | _, array _ => none
  | object _, _ | _, object _ => none
  | dateTime _, _ | _, dateTime _ => none
  | a, b => compareNumbers a b

/-! ## Equality of the language -/

mutual

/-- Equality as the language tests it. -/
def equal : Value → Value → Bool
  | array as, array bs => equalItems as bs
  | object a, object b => a.id == b.id
  | a, b => compare? a b == some .eq

/-- Equality of arrays: as many items, equal in pairs. -/
def equalItems : List Value → List Value → Bool
  | [], [] => true
  | a :: as, b :: bs => equal a b && equalItems as bs
  | _, _ => false

end

end Value

end Formula
