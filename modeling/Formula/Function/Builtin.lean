import Formula.Function.Aggregate
import Formula.Function.Choice
import Formula.Function.Numeric
import Formula.Function.Sequence
import Formula.Function.Texts

/-!
# The built-in functions

Every function that the language has from the start, with its name, the number of its arguments and
its plan.  A filter of arrays goes by two names.
-/

namespace Formula

/-- A built-in function. -/
inductive Builtin where
  | and | or | not | choice | constant (b : Bool) | valueOr
  | abs | ceiling | floor | int | round | trunc | sign
  | sqrt | power | exp | ln | log | log10
  | pi | sin | cos | tan | asin | acos | atan | atan2
  | sum | max | min | average | averageAll | count | countAll | distinct
  | length | left | right | middle | upper | lower | trim | concatenate
  | find | search | substitute | repetition | character | value | padLeft | padRight
  | array | range | lookUp | contains
  /-- A filter by an order; `short` is its abbreviated name. -/
  | filter (op : OrderOp) (short : Bool)
deriving DecidableEq, Repr

namespace Builtin

/-- All built-in functions. -/
def all : List Builtin :=
  [and, or, not, choice, constant true, constant false, valueOr, abs, ceiling, floor, int, round,
   trunc, sign, sqrt, power, exp, ln, log, log10, pi, sin, cos, tan, asin, acos, atan, atan2, sum,
   max, min, average, averageAll, count, countAll, distinct, length, left, right, middle, upper,
   lower, trim, concatenate, find, search, substitute, repetition, character, value, padLeft,
   padRight, array, range, lookUp, contains, filter .less false, filter .less true,
   filter .lessEqual false, filter .lessEqual true, filter .greater false, filter .greater true,
   filter .greaterEqual false, filter .greaterEqual true]

/-- The name of a function. -/
def name : Builtin → String
  | and => "AND" | or => "OR" | not => "NOT" | choice => "IF"
  | constant true => "TRUE" | constant false => "FALSE" | valueOr => "ValueOr"
  | abs => "ABS" | ceiling => "CEILING" | floor => "FLOOR" | int => "INT" | round => "ROUND"
  | trunc => "TRUNC" | sign => "SIGN" | sqrt => "SQRT" | power => "POWER" | exp => "EXP"
  | ln => "LN" | log => "LOG" | log10 => "LOG10" | pi => "PI" | sin => "SIN" | cos => "COS"
  | tan => "TAN"
  | asin => "ASIN" | acos => "ACOS" | atan => "ATAN" | atan2 => "ATAN2"
  | sum => "SUM" | max => "MAX" | min => "MIN" | average => "AVERAGE" | averageAll => "AVERAGEA"
  | count => "COUNT" | countAll => "COUNTA" | distinct => "Map"
  | length => "LEN" | left => "LEFT" | right => "RIGHT" | middle => "MID" | upper => "UPPER"
  | lower => "LOWER" | trim => "TRIM" | concatenate => "CONCATENATE" | find => "FIND"
  | search => "SEARCH" | substitute => "SUBSTITUTE" | repetition => "REPT" | character => "CHAR"
  | value => "VALUE" | padLeft => "PadLeft" | padRight => "PadRight"
  | array => "Array" | range => "Range" | lookUp => "XLOOKUP" | contains => "Contains"
  | filter .less false => "LessThan" | filter .less true => "lt"
  | filter .lessEqual false => "LessOrEqual" | filter .lessEqual true => "le"
  | filter .greater false => "GreaterThan" | filter .greater true => "gt"
  | filter .greaterEqual false => "GreaterOrEqual" | filter .greaterEqual true => "ge"

/-- The number of arguments of a function. -/
def arity : Builtin → Arity
  | constant _ | pi => ⟨0, some 0⟩
  | array | distinct => ⟨0, none⟩
  | not | abs | int | sign | sqrt | exp | ln | log10 | sin | cos | tan | asin | acos | atan
  | length | upper | lower | trim | character | value => ⟨1, some 1⟩
  | valueOr | ceiling | floor | round | trunc | log | left | right => ⟨1, some 2⟩
  | and | or | sum | max | min | average | averageAll | count | countAll | concatenate => ⟨1, none⟩
  | power | atan2 | repetition | contains | filter _ _ => ⟨2, some 2⟩
  | choice | find | search | padLeft | padRight | range => ⟨2, some 3⟩
  | middle => ⟨3, some 3⟩
  | substitute | lookUp => ⟨3, some 4⟩

/-- Whether a function asks for more than its arguments. -/
def isContextual (b : Builtin) : Bool := b = contains

/-- What a function does with so many arguments. -/
def plan (b : Builtin) (args : Nat) : Plan Value :=
  match b with
  | and => .conjunction args
  | or => .disjunction args
  | not => .negation
  | choice => .choice args
  | constant b => .done (.boolean b)
  | valueOr => .valueOr args
  | abs => .absolute
  | ceiling => .ceiling args
  | floor => .floor args
  | int => .real (Number.round .down)
  | round => .toPlaces .halfAway args
  | trunc => .toPlaces .truncate args
  | sign => .sign
  | sqrt => .squareRoot
  | power => .power
  | exp => .real Float.exp
  | ln => .naturalLogarithm
  | log => .logarithm args
  | log10 => .decimalLogarithm
  | pi => .done (.number Plan.pi)
  | sin => .real Float.sin
  | cos => .real Float.cos
  | tan => .real Float.tan
  | asin => .arcSine
  | acos => .arcCosine
  | atan => .real Float.atan
  | atan2 => .angle
  | sum => .sum args
  | max => .maximum args
  | min => .minimum args
  | average => .average args
  | averageAll => .averageAll args
  | count => .countNumbers args
  | countAll => .countAll args
  | distinct => .distinct args
  | length => .textLength
  | left => .left args
  | right => .right args
  | middle => .middle args
  | upper => .mapText Text.upper
  | lower => .mapText Text.lower
  | trim => .mapText Text.trim
  | concatenate => .concatenate args
  | find => .find args
  | search => .search args
  | substitute => .substitute args
  | repetition => .repetition args
  | character => .character
  | value => .numericValue
  | padLeft => .pad args "PadLeft" fun filling s => filling ++ s
  | padRight => .pad args "PadRight" fun filling s => s ++ filling
  | array => .array args
  | range => .range args
  | lookUp => .lookUp args
  | contains => .contains
  | filter op _ => .filter op

end Builtin

end Formula
