import Formula.Value.Conversion

/-!
# Errors

What can go wrong when a formula is read or evaluated.  Each error names its cause; the wording is
in the `message` functions.
-/

namespace Formula

/-! ## Reading -/

/-- Why a formula cannot be read. -/
inductive SyntaxProblem where
  | unclosedText
  | unclosedDate
  | invalidDate
  | invalidNumber
  | identifierExpected
  | unexpectedToken
  | unexpectedEnd
  | unbalanced
  | unexpectedIdentifier
deriving DecidableEq, Repr

/-- The wording of a problem. -/
def SyntaxProblem.message : SyntaxProblem → String
  | .unclosedText => "Can't find final quote"
  | .unclosedDate => "Can't find final date delimiter ('#')"
  | .invalidDate => "Invalid date literal"
  | .invalidNumber => "Invalid number literal"
  | .identifierExpected => "Identifier expected"
  | .unexpectedToken => "Unexpected token"
  | .unexpectedEnd => "Unexpected end of expression"
  | .unbalanced => "Unbalanced parenthesis"
  | .unexpectedIdentifier => "Unexpected identifier"

/-- A problem, and the source with the place of the problem in brackets. -/
structure SyntaxError where
  problem : SyntaxProblem
  context : String
deriving DecidableEq

/-! ## Numbers of arguments -/

/-- How many arguments a function takes; without `max` there is no upper limit. -/
structure Arity where
  min : Nat := 0
  max : Option Nat := none
deriving DecidableEq, Repr

/-- Whether a number of arguments is right. -/
def Arity.accepts (a : Arity) (count : Nat) : Bool := a.min ≤ count && a.max.all (count ≤ ·)

/-- The wording of the number of arguments that is expected. -/
def Arity.text (a : Arity) : String :=
  match a.max with
  | none => "at least " ++ Number.integerText a.min
  | some max =>
    if max = a.min then Number.integerText max
    else Number.integerText a.min ++ " to " ++ Number.integerText max

/-! ## Paths -/

/-- Why a step of a path cannot be resolved. -/
inductive BindingProblem where
  /-- The value that the step is taken from, or its own value before indexing, is absent. -/
  | nullValue
  | unknownMember (name typeName : String)
  | notIndexable (name typeName : String)
  | missingKey (name description keys : String)
  /-- A position is none of an array's. -/
  | noPosition (name position : String) (count : Nat)
  /-- An object has no item under the keys. -/
  | noItem (name description keys : String)
  | noDataContext
deriving DecidableEq

/-- The kinds of problems that a caller can tell apart. -/
inductive BindingKind where
  | nullValue
  | unknownMember
  | missingKey
  | indexOutOfRange
  | noDataContext
deriving DecidableEq, Repr

/-- The kind of a problem. -/
def BindingProblem.kind : BindingProblem → BindingKind
  | .nullValue => .nullValue
  | .unknownMember _ _ | .notIndexable _ _ => .unknownMember
  | .missingKey _ _ _ => .missingKey
  | .noPosition _ _ _ | .noItem _ _ _ => .indexOutOfRange
  | .noDataContext => .noDataContext

/-- A path that cannot be resolved. -/
structure BindingError where
  problem : BindingProblem
  /-- The path as written. -/
  path : String
  /-- The steps as printed. -/
  steps : List String
  /-- The number of the step that failed. -/
  index : Nat
deriving DecidableEq

namespace BindingError

/-- The kind of the problem. -/
def kind (e : BindingError) : BindingKind := e.problem.kind

/-- The step that failed, or the whole path when there is nothing to resolve it against. -/
def segment (e : BindingError) : String :=
  match e.problem with
  | .noDataContext => e.path
  | _ => (e.steps[e.index]?).getD ""

/-- The steps with the one that failed in brackets. -/
def marked (e : BindingError) : String :=
  ".".intercalate (e.steps.mapIdx fun i step => if i = e.index then "[" ++ step ++ "]" else step)

/-- The wording of the error. -/
def message (e : BindingError) : String :=
  match e.problem with
  | .nullValue => "Binding path invalid (value is null): " ++ e.marked
  | .unknownMember name typeName =>
    "'" ++ name ++ "' is not a valid property of " ++ typeName ++ " in path '" ++ e.marked ++ "'"
  | .notIndexable name typeName =>
    "'" ++ name ++ "' (" ++ typeName ++ ") cannot be indexed in path '" ++ e.marked ++ "'"
  | .missingKey name description keys =>
    "'" ++ name ++ "' in path '" ++ e.marked ++ "' (" ++ description ++ ") has no key(s) '" ++ keys
      ++ "'"
  | .noPosition name position count =>
    "Index " ++ position ++ " is out of range for '" ++ name ++ "' (" ++ Number.integerText count
      ++ " items) in path '" ++ e.marked ++ "'"
  | .noItem name description keys =>
    "Index '" ++ keys ++ "' is out of range for '" ++ name ++ "' (" ++ description ++ ") in path '"
      ++ e.marked ++ "'"
  | .noDataContext => "No data context to resolve '" ++ e.path ++ "'"

end BindingError

/-! ## Evaluation -/

/-- Why an operation has no result. -/
inductive EvaluationProblem where
  | notNumber (kind : Kind) (text : String)
  | notBoolean (kind : Kind) (text : String)
  | notComparable (left right : Kind)
  | divisionByZero
  | dateOutOfRange
  | decimalOverflow
  | resultOutOfRange
  | rootOfNegative
  | notPositive (function : String)
  | invalidBase
  | outsideUnitInterval (function : String)
  /-- A function of the host failed, with its own wording. -/
  | host (text : String)
deriving DecidableEq

/-- The wording of a problem. -/
def EvaluationProblem.message : EvaluationProblem → String
  | .notNumber kind text => "Cannot convert " ++ kind.name ++ " '" ++ text ++ "' to number"
  | .notBoolean kind text => "Cannot convert " ++ kind.name ++ " '" ++ text ++ "' to boolean"
  | .notComparable left right => "Cannot compare " ++ left.name ++ " with " ++ right.name
  | .divisionByZero => "Division by zero"
  | .dateOutOfRange => "Date out of range"
  | .decimalOverflow => "Decimal overflow"
  | .resultOutOfRange => "Numeric result out of range"
  | .rootOfNegative => "SQRT of a negative number"
  | .notPositive function => function ++ " of a non-positive number"
  | .invalidBase => "Invalid logarithm base"
  | .outsideUnitInterval function => function ++ " argument outside [-1, 1]"
  | .host text => text

/-- The greatest number of characters that a text function gives. -/
def maxTextLength : Nat := 1000000

/-- The greatest number of items that `Range` gives. -/
def maxRangeLength : Nat := 1000000

/-- Why an argument is refused. -/
inductive ArgumentProblem where
  /-- There is no argument with this number, counted from zero. -/
  | missing (index : Nat)
  | conversion (error : ConversionError)
  | negativeCount (function : String)
  | tooLong (function : String)
  | startBelowOne
  | middleStartBelowOne
  | instanceBelowOne
  | invalidPattern
  | invalidCharacter (code : String)
  | zeroStep
  | rangeTooLong
  | lengthsDiffer (keys results : Nat)
deriving DecidableEq

/-- The wording of a problem. -/
def ArgumentProblem.message : ArgumentProblem → String
  | .missing index => "Missing argument " ++ Number.integerText (index + 1 : Nat)
  | .conversion error => error.message
  | .negativeCount function => function ++ " requires a non-negative count"
  | .tooLong function =>
    function ++ " would produce more than " ++ Number.integerText maxTextLength ++ " characters"
  | .startBelowOne => "Start position must be at least 1"
  | .middleStartBelowOne => "MID start must be at least 1"
  | .instanceBelowOne => "SUBSTITUTE instance must be at least 1"
  | .invalidPattern => "Invalid search pattern"
  | .invalidCharacter code => "Invalid character code: " ++ code
  | .zeroStep => "Range step cannot be zero"
  | .rangeTooLong =>
    "Range would produce more than " ++ Number.integerText maxRangeLength ++ " elements"
  | .lengthsDiffer keys results =>
    "XLOOKUP arrays differ in length (" ++ Number.integerText keys ++ " and "
      ++ Number.integerText results ++ ")"

/-- Why a formula has no value. -/
inductive CalcError where
  | invalidSyntax (error : SyntaxError)
  | argumentCount (function : String) (expected : Arity) (actual : Nat)
  | binding (error : BindingError)
  /-- The result is not of the type that was asked for. -/
  | cast (text : String) (kind : Kind) (target : String)
  | evaluation (problem : EvaluationProblem)
  | argument (problem : ArgumentProblem)
  | unknownVariable (name : String)
  | cancelled
deriving DecidableEq

/-- The wording of an error. -/
def CalcError.message : CalcError → String
  | .invalidSyntax e => "Syntax error: " ++ e.problem.message ++ " (at " ++ e.context ++ ")"
  | .argumentCount function expected actual =>
    "Wrong number of arguments for " ++ function ++ ": expected " ++ expected.text ++ ", got "
      ++ Number.integerText actual
  | .binding e => "Binding error: " ++ e.message
  | .cast text kind target =>
    "Cannot convert " ++ kind.name ++ " value '" ++ text ++ "' to " ++ target
  | .evaluation problem => "Evaluation error: " ++ problem.message
  | .argument problem => "Invalid argument: " ++ problem.message
  | .unknownVariable name => "Unknown variable: " ++ name
  | .cancelled => "Evaluation cancelled"

/-- Evaluation without state: a value or an error. -/
abbrev Outcome := Except CalcError

end Formula
