import Formula.Decimal.Conversion
import Formula.Decimal.Reading
import Formula.Number.Reading
import Formula.Text.Case
import Formula.Value.Text

/-!
# Conversion of values

A value may have a reading as a number, as a decimal and as a truth value; every value has a text.
An absent value reads as zero and as false, and text is read in the usual notation of numbers.
`coerce` gives a value of a wanted kind, and `OfValue` the types outside the language that results
can be converted to.
-/

namespace Formula

/-- Why a value is not of the wanted kind. -/
inductive ConversionError where
  | wrongType (expected actual : String)
  /-- The text is not a number. -/
  | notNumber (text : String)
deriving DecidableEq

/-- The message of an error. -/
def ConversionError.message : ConversionError → String
  | .wrongType expected actual =>
    "Invalid value type: expected " ++ expected ++ ", got " ++ actual
  | .notNumber text => "Invalid number: " ++ text

namespace Value

/-! ## Readings -/

/-- The number that a value reads as. -/
def toNumber? : Value → Option Float
  | number x => some x
  | decimal d => some d.toFloat
  | boolean b => some (if b then 1 else 0)
  | text s => Number.readTrimmed? s
  | empty => some 0
  | _ => none

/-- The decimal that text between blanks stands for. -/
def readDecimal? (s : String) : Option Decimal := Decimal.read? (Formula.Text.trim s.toList)

/-- The decimal that a value reads as. -/
def toDecimal? : Value → Option Decimal
  | decimal d => some d
  | number x => Decimal.ofFloat? x
  | boolean b => some (if b then Decimal.one else Decimal.zero)
  | text s => readDecimal? s
  | empty => some Decimal.zero
  | _ => none

/-- The truth value that a value reads as.  Text must be one of the two words, without blanks. -/
def toBool? : Value → Option Bool
  | boolean b => some b
  | number x => some (x != 0)
  | decimal d => some (!d.isZero)
  | text s =>
    if Formula.Text.equalIgnoringAsciiCase s "true" then some true
    else if Formula.Text.equalIgnoringAsciiCase s "false" then some false
    else none
  | empty => some false
  | _ => none

/-! ## Conversion to a kind -/

/-- The value of the wanted kind that a value converts to. -/
def coerce (v : Value) (kind : Kind) : Except ConversionError Value :=
  if v.kind = kind then .ok v
  else
    let wrong : ConversionError := .wrongType kind.name v.kind.name
    let orElse (error : ConversionError) (result : Option Value) : Except ConversionError Value :=
      result.elim (.error error) .ok
    match kind, v with
    | .number, text s => orElse (.notNumber s) ((Number.readTrimmed? s).map number)
    | .number, _ => orElse wrong (v.toNumber?.map number)
    | .decimal, text s => orElse (.notNumber s) ((readDecimal? s).map decimal)
    | .decimal, _ => orElse wrong (v.toDecimal?.map decimal)
    | .text, _ => .ok (text v.toText)
    | .boolean, _ => orElse wrong (v.toBool?.map boolean)
    | _, _ => .error wrong

end Value

/-! ## Conversion to types outside the language -/

/-- Types that results can be converted to.  An absent value converts to the zero of the type. -/
class OfValue (α : Type) where
  /-- The name of the type in messages. -/
  typeName : String
  ofValue? : Value → Option α

instance : OfValue Value := ⟨"value", some⟩

instance : OfValue Float := ⟨"f64", Value.toNumber?⟩

/-- A number rounded to the nearest integer that fits into 64 bits, a half away from zero. -/
def Value.toInt? (v : Value) : Option Int :=
  match v.toNumber? with
  | some x =>
    if x.isFinite then some (Number.toSigned 64 (Number.round .halfAway x)) else none
  | none => none

instance : OfValue Int64 := ⟨"i64", fun v => v.toInt?.map Int64.ofInt⟩

instance : OfValue Int32 :=
  ⟨"i32", fun v => v.toInt?.bind fun n =>
    if (Int32.ofInt n).toInt = n then some (Int32.ofInt n) else none⟩

instance : OfValue Bool := ⟨"bool", Value.toBool?⟩

instance : OfValue String :=
  ⟨"String", fun
    | .array _ | .object _ => none
    | v => some v.toText⟩

instance : OfValue Decimal := ⟨"Decimal", Value.toDecimal?⟩

instance : OfValue DateTime :=
  ⟨"NaiveDateTime", fun
    | .dateTime d => some d
    | .empty => some DateTime.start
    | _ => none⟩

instance : OfValue (List Value) :=
  ⟨"Vec<Value>", fun
    | .array items => some items
    | .empty => some []
    | _ => none⟩

/-- With `Option` an absent value is no value, and not the zero of the type. -/
instance {α : Type} [OfValue α] : OfValue (Option α) :=
  ⟨OfValue.typeName α, fun
    | .empty => some none
    | v => (OfValue.ofValue? v).map some⟩

/-- Converts a value to a type. -/
def Value.convert (α : Type) [OfValue α] (v : Value) : Except ConversionError α :=
  match OfValue.ofValue? v with
  | some a => .ok a
  | none => .error (.wrongType (OfValue.typeName α) v.kind.name)

end Formula
