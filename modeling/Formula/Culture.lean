import Formula.Calendar.Pattern
import Formula.Text.Case

/-!
# Culture and options

A `Culture` says which characters separate the decimals of a number and the items of a list, which
sign makes a percentage, and how dates are written.  `Options` are settings of single functions and
of the reading of names.
-/

namespace Formula

/-- How numbers, lists and dates are written. -/
structure Culture where
  decimalSeparator : Char := '.'
  listSeparator : Char := ','
  percentSign : Char := '%'
  /-- The patterns of dates, in the order in which they are tried. -/
  dateFormats : List String :=
    ["%m/%d/%Y %H:%M:%S", "%m/%d/%Y %H:%M", "%Y-%m-%d %H:%M:%S", "%Y-%m-%dT%H:%M:%S",
     "%Y-%m-%d %H:%M", "%m/%d/%Y", "%Y-%m-%d"]
deriving DecidableEq

namespace Culture

/-- The culture with a decimal point and commas between the items of a list. -/
def invariant : Culture := {}

/-- The invariant culture with other separators. -/
def withSeparators (decimalSeparator listSeparator : Char) : Culture :=
  { decimalSeparator, listSeparator }

/-- Reads a date between blanks. -/
def parseDate? (c : Culture) (text : List Char) : Option DateTime :=
  Calendar.readAny? (c.dateFormats.map fun format => .ofText format.toList) (Text.trim text)

end Culture

/-- Settings of the language. -/
structure Options where
  /-- Characters that `Contains` takes off the start of texts before it compares them. -/
  trimStart : List Char := []
  /-- Names that are never read as paths into the data. -/
  skipped : List String := []
deriving DecidableEq

/-- Whether a name is never read as a path. -/
def Options.isSkipped (o : Options) (name : String) : Bool :=
  o.skipped.any (Text.equalIgnoringAsciiCase · name)

end Formula
