import Formula.Expr.Basic
import Formula.Token.Scan

/-!
# From tokens to expressions

Binary operators bind, from the loosest to the tightest, as follows, and all associate to the left:
`&&` and `||`; comparisons; `+` and `-`; `*`, `/` and `\`; `^`.  A sign binds tighter than any of
them.  A name is a function, or else a variable, or else an object from outside, or else the start
of a path.

Every reading function returns what is left of the tokens with the bound by which it is shorter;
that is why the functions end.
-/

namespace Formula

/-- What names stand for. -/
structure Names where
  function? : String → Option FunctionDef
  isVariable : String → Bool
  external? : String → Option Value
  /-- Whether a name can start a path. -/
  startsPath : String → Bool

/-- How loosely an operator binds, from 1 for powers to 5 for the operators on truth values. -/
def BinaryOp.looseness : BinaryOp → Nat
  | .arithmetic .power => 1
  | .arithmetic .multiply | .arithmetic .divide | .arithmetic .divideWhole => 2
  | .arithmetic .add | .arithmetic .subtract => 3
  | .equal | .notEqual | .order _ => 4
  | .and | .or => 5

namespace Parse

/-! ## Reading tokens -/

/-- What is fixed while a source is read. -/
structure Input where
  names : Names
  source : List Char
  /-- What is wrong with the source behind its last token, if anything. -/
  flaw : Option Flaw

/-- The place that the reading has come to. -/
structure Cursor where
  current : Token
  rest : List Token
  /-- Where the last token that was passed ends. -/
  passed : Nat
  /-- The number of the next call, variable or path. -/
  nextId : Nat

/-- The number of tokens that follow. -/
def Cursor.size (c : Cursor) : Nat := c.rest.length

/-- A result, and a place with fewer tokens to follow. -/
abbrev Shorter (α : Type) (c : Cursor) := { r : α × Cursor // r.2.size < c.size }

/-- A result, and a place with no more tokens to follow. -/
abbrev NotLonger (α : Type) (c : Cursor) := { r : α × Cursor // r.2.size ≤ c.size }

variable {α : Type}

/-- An error at some place of the source. -/
def failBetween (input : Input) (problem : SyntaxProblem) (start stop : Nat) : Outcome α :=
  .error (.invalidSyntax ⟨problem, markedSource input.source start stop⟩)

/-- An error at the current token. -/
def failAt (input : Input) (c : Cursor) (problem : SyntaxProblem) : Outcome α :=
  failBetween input problem c.current.start c.current.stop

/-- The error that ends the tokens.  The tokens of a source without flaw end with its end, which is
never passed. -/
def failBehind (input : Input) : Outcome α :=
  match input.flaw with
  | some flaw => failBetween input flaw.problem flaw.start flaw.stop
  | none => failBetween input .unexpectedEnd input.source.length input.source.length

/-- Passes the current token. -/
def advance (input : Input) (c : Cursor) : Outcome { next : Cursor // next.size < c.size } :=
  match _h : c.rest with
  | [] => failBehind input
  | token :: rest =>
    .ok ⟨{ c with current := token, rest, passed := c.current.stop }, by simp [Cursor.size, _h]⟩

/-- Passes the current token, which gets a number. -/
def advanceNumbered (input : Input) (c : Cursor) :
    Outcome { next : Cursor // next.size < c.size } := do
  let ⟨next, h⟩ ← advance input c
  return ⟨{ next with nextId := c.nextId + 1 }, h⟩

/-- The binary operator of some looseness that the current token is. -/
def operatorAt? (looseness : Nat) (c : Cursor) : Option BinaryOp :=
  match c.current.lexeme with
  | .operator op _ => if op.looseness = looseness then some op else none
  | _ => none

/-- The sign that the current token is. -/
def signAt? (c : Cursor) : Option UnaryOp :=
  match c.current.lexeme with
  | .operator (.arithmetic .add) _ => some .plus
  | .operator (.arithmetic .subtract) _ => some .negate
  | _ => none

/-- Whether the current token closes a bracket. -/
def closes (b : Bracket) (c : Cursor) : Bool :=
  match c.current.lexeme with
  | .closing other => other = b
  | _ => false

/-- The bracket that the current token opens. -/
def opens? (c : Cursor) : Option Bracket :=
  match c.current.lexeme with
  | .opening b => some b
  | _ => none

/-! ## Reading expressions -/

mutual

/-- Reads operands joined by operators up to some looseness. -/
def upTo (input : Input) (looseness : Nat) (c : Cursor) : Outcome (Shorter Expr c) :=
  match looseness with
  | 0 => signed input c
  | looseness + 1 => do
    let ⟨(left, c₁), h₁⟩ ← upTo input looseness c
    let ⟨r, h₂⟩ ← joined input looseness left c₁
    return ⟨r, Nat.lt_of_le_of_lt h₂ h₁⟩
termination_by (c.size, looseness + 4)

/-- Reads more operands after `left`, joined by operators of looseness `looseness + 1`. -/
def joined (input : Input) (looseness : Nat) (left : Expr) (c : Cursor) :
    Outcome (NotLonger Expr c) :=
  match operatorAt? (looseness + 1) c with
  | none => .ok ⟨(left, c), Nat.le_refl _⟩
  | some op => do
    let ⟨c₁, h₁⟩ ← advance input c
    let ⟨(right, c₂), h₂⟩ ← upTo input looseness c₁
    have h₂ : c₂.size < c₁.size := h₂
    let ⟨r, h₃⟩ ← joined input looseness (.binary op left right) c₂
    return ⟨r, by omega⟩
termination_by (c.size, 0)

/-- Reads an operand after its signs. -/
def signed (input : Input) (c : Cursor) : Outcome (Shorter Expr c) :=
  match signAt? c with
  | none => atom input c
  | some op => do
    let ⟨c₁, h₁⟩ ← advance input c
    let ⟨(e, c₂), h₂⟩ ← signed input c₁
    return ⟨(.unary op e, c₂), by simp only at h₂ ⊢; omega⟩
termination_by (c.size, 3)

/-- Reads an operand without a sign. -/
def atom (input : Input) (c : Cursor) : Outcome (Shorter Expr c) :=
  match c.current.lexeme with
  | .literal v => do
    let ⟨c₁, h₁⟩ ← advance input c
    return ⟨(.literal v, c₁), h₁⟩
  | .name s => named input s c
  | .opening b => do
    let ⟨c₁, h₁⟩ ← advance input c
    let ⟨(e, c₂), h₂⟩ ← upTo input 5 c₁
    if closes b c₂ then
      let ⟨c₃, h₃⟩ ← advance input c₂
      return ⟨(e, c₃), by simp only at h₂ ⊢; omega⟩
    else failAt input c₂ .unbalanced
  | .finish => failAt input c .unexpectedEnd
  | _ => failAt input c .unexpectedToken
termination_by (c.size, 2)

/-- Reads what a name starts. -/
def named (input : Input) (name : String) (c : Cursor) : Outcome (Shorter Expr c) :=
  match input.names.function? name with
  | some f => do
    let ⟨c₁, h₁⟩ ← advanceNumbered input c
    let ⟨(args, c₂), h₂⟩ ← listIf input (· = .round) c₁
    f.checkArity args.length
    return ⟨(.call c.nextId f args, c₂), Nat.lt_of_le_of_lt h₂ h₁⟩
  | none =>
    if input.names.isVariable name then do
      let ⟨c₁, h₁⟩ ← advanceNumbered input c
      let ⟨(index, c₂), h₂⟩ ← listIf input (· = .square) c₁
      return ⟨(.var c.nextId name index, c₂), Nat.lt_of_le_of_lt h₂ h₁⟩
    else
      match input.names.external? name with
      | some v => do
        let ⟨c₁, h₁⟩ ← advance input c
        return ⟨(.literal v, c₁), h₁⟩
      | none =>
        if input.names.startsPath name then do
          let ⟨c₁, h₁⟩ ← advanceNumbered input c
          let ⟨(steps, c₂), h₂⟩ ← stepsFrom input name c₁
          let text := (input.source.take c₂.passed).drop c.current.start
          return ⟨(.path c.nextId steps (String.ofList text), c₂), Nat.lt_of_le_of_lt h₂ h₁⟩
        else failAt input c .unexpectedIdentifier
termination_by (c.size, 1)

/-- Reads the rest of a path after the name of a step. -/
def stepsFrom (input : Input) (name : String) (c : Cursor) :
    Outcome (NotLonger (List (Step Expr)) c) := do
  let listed := (opens? c).any fun b => b = .round || b = .square
  let ⟨(keys, c₁), h₁⟩ ← listIf input (fun b => b = .round || b = .square) c
  have h₁ : c₁.size ≤ c.size := h₁
  let step : Step Expr := ⟨name, listed, keys⟩
  match c₁.current.lexeme with
  | .period => do
    let ⟨c₂, h₂⟩ ← advance input c₁
    match c₂.current.lexeme with
    | .name next => do
      let ⟨c₃, h₃⟩ ← advance input c₂
      let ⟨(steps, c₄), h₄⟩ ← stepsFrom input next c₃
      return ⟨(step :: steps, c₄), by simp only at h₄ ⊢; omega⟩
    | _ => failAt input c₂ .identifierExpected
  | _ => return ⟨([step], c₁), h₁⟩
termination_by (c.size, 1)

/-- Reads a list in brackets, if the current token opens one that is wanted. -/
def listIf (input : Input) (wanted : Bracket → Bool) (c : Cursor) :
    Outcome (NotLonger (List Expr) c) :=
  match opens? c with
  | none => .ok ⟨([], c), Nat.le_refl _⟩
  | some b =>
    if wanted b then do
      let ⟨c₁, h₁⟩ ← advance input c
      if closes b c₁ then
        let ⟨c₂, h₂⟩ ← advance input c₁
        return ⟨([], c₂), by simp only; omega⟩
      else
        let ⟨(items, c₂), h₂⟩ ← itemsUntil input b c₁
        return ⟨(items, c₂), by simp only at h₂ ⊢; omega⟩
    else .ok ⟨([], c), Nat.le_refl _⟩
termination_by (c.size, 0)

/-- Reads the items of a list and the bracket that closes it. -/
def itemsUntil (input : Input) (b : Bracket) (c : Cursor) : Outcome (Shorter (List Expr) c) := do
  let ⟨(e, c₁), h₁⟩ ← upTo input 5 c
  have h₁ : c₁.size < c.size := h₁
  match c₁.current.lexeme with
  | .separator _ => do
    let ⟨c₂, h₂⟩ ← advance input c₁
    let ⟨(items, c₃), h₃⟩ ← itemsUntil input b c₂
    return ⟨(e :: items, c₃), by simp only at h₃ ⊢; omega⟩
  | .closing other =>
    if other = b then do
      let ⟨c₂, h₂⟩ ← advance input c₁
      return ⟨([e], c₂), by simp only; omega⟩
    else failAt input c₁ .unbalanced
  | _ => failAt input c₁ .unbalanced
termination_by (c.size, 10)

end

end Parse

/-! ## Reading a source -/

/-- Reads a source without comments. -/
def parseSource (names : Names) (spelling : Spelling) (source : List Char) : Outcome Expr := do
  let scanned := scan spelling source
  let input : Parse.Input := ⟨names, source, scanned.flaw⟩
  match scanned.tokens with
  | [] => Parse.failBehind input
  | token :: rest =>
    let ⟨(e, c), _⟩ ← Parse.upTo input 5 ⟨token, rest, token.start, 0⟩
    match c.current.lexeme with
    | .finish => return e
    | _ => Parse.failAt input c .unexpectedToken

end Formula
