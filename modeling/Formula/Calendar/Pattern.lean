import Formula.Calendar.DateTime
import Formula.Text.Blank
import Formula.Text.Letter

/-!
# Date patterns

A pattern says how a date is written: `%Y`, `%m`, `%d`, `%H`, `%M` and `%S` stand for the fields of
a date, `%%` for a percent sign, blanks for any run of blanks, and every other character for itself.
A text is read as date and time, which takes at least an hour and a minute, or as a date only.
-/

namespace Formula.Calendar

open Formula.Text (isBlank isDigit digitValue trimStart)

/-- A field of a date. -/
inductive Field where
  | year
  | month
  | day
  | hour
  | minute
  | second
deriving DecidableEq

/-- One element of a pattern. -/
inductive Element where
  | letter (c : Char)
  | blanks
  | field (f : Field)
  /-- A percent sign before a letter that names no field.  Nothing matches it. -/
  | unknown
deriving DecidableEq

/-- The element that a letter after a percent sign stands for. -/
def Element.ofLetter : Char → Element
  | 'Y' => .field .year
  | 'm' => .field .month
  | 'd' => .field .day
  | 'H' => .field .hour
  | 'M' => .field .minute
  | 'S' => .field .second
  | '%' => .letter '%'
  | _ => .unknown

/-- A pattern: its elements in order. -/
abbrev Pattern := List Element

/-- The pattern written as a text. -/
def Pattern.ofText : List Char → Pattern
  | [] => []
  | ['%'] => [.unknown]
  | '%' :: c :: rest => .ofLetter c :: ofText rest
  | c :: rest => (if isBlank c then .blanks else .letter c) :: ofText rest

/-- The least and the greatest value that a field may take. -/
def Field.range : Field → Int × Int
  | .year => (-262143, 262142)
  | .month => (1, 12)
  | .day => (1, 31)
  | .hour => (0, 23)
  | .minute => (0, 59)
  | .second => (0, 60)

/-- The value of digits that are not none. -/
def digitsValue? (digits : List Char) : Option Int :=
  if digits = [] then none
  else some (digits.foldl (fun n c => 10 * n + digitValue c) 0 : Nat)

/-- The number at the start of a text, of at most `most` digits, and what follows it. -/
def readDigits? (most : Nat) (text : List Char) : Option (Int × List Char) :=
  let digits := (text.takeWhile isDigit).take most
  (digitsValue? digits).map (·, text.drop digits.length)

/-- The value of a field at the start of a text, after blanks, and what follows it.  A field has two
digits, a year four; a year with a sign has any number of digits. -/
def Field.read? (field : Field) (text : List Char) : Option (Int × List Char) :=
  match field, trimStart text with
  | .year, '-' :: rest => (readDigits? rest.length rest).map fun (n, rest) => (-n, rest)
  | .year, '+' :: rest => readDigits? rest.length rest
  | .year, text => readDigits? 4 text
  | _, text => readDigits? 2 text

/-- The fields read from a text. -/
abbrev Fields := List (Field × Int)

/-- Adds a field, if its value is in range and is the one that the field has already. -/
def Fields.add? (fields : Fields) (field : Field) (value : Int) : Option Fields :=
  let (low, high) := field.range
  if low ≤ value ∧ value ≤ high then
    match fields.lookup field with
    | none => some ((field, value) :: fields)
    | some known => if known = value then some fields else none
  else none

/-- Reads a whole text by a pattern. -/
def Pattern.read? : Pattern → Fields → List Char → Option Fields
  | [], fields, [] => some fields
  | [], _, _ :: _ => none
  | .letter a :: pattern, fields, c :: rest => if a = c then read? pattern fields rest else none
  | .letter _ :: _, _, [] => none
  | .blanks :: pattern, fields, text => read? pattern fields (trimStart text)
  | .field field :: pattern, fields, text =>
    match field.read? text with
    | none => none
    | some (value, rest) => (fields.add? field value).bind fun fields => read? pattern fields rest
  | .unknown :: _, _, _ => none

/-- The day that the fields name. -/
def Fields.day? (fields : Fields) : Option Int :=
  match fields.lookup .year, fields.lookup .month, fields.lookup .day with
  | some year, some month, some day => dayNumber? ⟨year, month.toNat, day.toNat⟩
  | _, _, _ => none

/-- The date of the fields, at midnight. -/
def Fields.date? (fields : Fields) : Option DateTime :=
  fields.day?.bind fun day => DateTime.ofParts? day 0 0

/-- The date and time of the fields.  Seconds may be left out; second 60 is a leap second. -/
def Fields.dateTime? (fields : Fields) : Option DateTime :=
  match fields.day?, fields.lookup .hour, fields.lookup .minute with
  | some day, some hour, some minute =>
    let second := ((fields.lookup .second).getD 0).toNat
    let clock := hour.toNat * 3600 + minute.toNat * 60
    if second = 60 then DateTime.ofParts? day (clock + 59) 1000000000
    else DateTime.ofParts? day (clock + second) 0
  | _, _, _ => none

/-- Reads a date and time written in one of several ways; each is first tried as date and time, then
each as a date only. -/
def readAny? (patterns : List Pattern) (text : List Char) : Option DateTime :=
  (patterns.findSome? fun pattern => (pattern.read? [] text).bind Fields.dateTime?).or
    (patterns.findSome? fun pattern => (pattern.read? [] text).bind Fields.date?)

end Formula.Calendar
