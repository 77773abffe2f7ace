import Formula.Expr.Parse

/-!
# The grammar of formulas

`Derives` says which sequences of tokens are which expressions.  It is stratified by how loosely
the operators bind, with the operators of each level joining from the left, and it does not know in
which order a reader looks at the tokens.  The numbers of calls, variables and paths count them in
the order in which they stand.
-/

namespace Formula

/-- The binary operator that is written like a sign. -/
def UnaryOp.asBinary : UnaryOp → BinaryOp
  | .plus => .arithmetic .add
  | .negate => .arithmetic .subtract

/-- Whether a bracket can stand around the keys of a step. -/
def Bracket.holdsKeys (b : Bracket) : Bool := b = .round || b = .square

namespace Parse

/-- The tokens of a source that has no flaw, without its end. -/
def Tokenizes (spelling : Spelling) (source : List Char) (ts : List Token) : Prop :=
  ∃ n, scan spelling source = ⟨ts ++ [⟨.finish, n, n⟩], none⟩

/-- What a sequence of tokens can be derived as. -/
inductive Phrase where
  /-- Operands joined by operators up to some looseness; at 0, an operand after its signs. -/
  | upTo (looseness : Nat) (e : Expr)
  /-- An operand without a sign. -/
  | atom (e : Expr)
  /-- A list in brackets of a sort that is wanted, or nothing at all. -/
  | listIf (wanted : Bracket → Bool) (listed : Bool) (items : List Expr)
  /-- The items of a list, at least one, with separators between them. -/
  | items (items : List Expr)
  /-- The rest of a path after the name of its first step. -/
  | steps (name : String) (steps : List (Step Expr))

/-- The nodes of the expressions of a phrase. -/
def Phrase.nodes : Phrase → List Expr
  | .upTo _ e | .atom e => e.nodes
  | .listIf _ _ es | .items es => Expr.nodesOfAll es
  | .steps _ path => Expr.nodesOfSteps path

/-- Where some tokens end that follow a place which was passed. -/
def stopAfter (passed : Nat) (tokens : List Token) : Nat := tokens.foldl (fun _ t => t.stop) passed

/-- The text of a path that starts with a token and goes on with others. -/
def pathText (source : List Char) (first : Token) (tokens : List Token) : String :=
  String.ofList ((source.take (stopAfter first.stop tokens)).drop first.start)

section
variable (names : Names) (source : List Char)

/-- Which tokens are which phrases.  The numbers are the first that the phrase may use and the first
that it leaves. -/
inductive Derives : Phrase → Nat → List Token → Nat → Prop where
  -- operators, level by level
  | operand {k : Nat} {e : Expr} {n n' : Nat} {ts : List Token} :
      Derives (.upTo k e) n ts n' → Derives (.upTo (k + 1) e) n ts n'
  | joined {k : Nat} {op : BinaryOp} {written : String} {l r : Expr} {n₁ n₂ n₃ : Nat}
      {ts us : List Token} {t : Token} :
      Derives (.upTo (k + 1) l) n₁ ts n₂ → t.lexeme = .operator op written →
      op.looseness = k + 1 → Derives (.upTo k r) n₂ us n₃ →
      Derives (.upTo (k + 1) (.binary op l r)) n₁ (ts ++ t :: us) n₃
  | signed {op : UnaryOp} {written : String} {e : Expr} {n n' : Nat} {ts : List Token}
      {t : Token} :
      t.lexeme = .operator op.asBinary written → Derives (.upTo 0 e) n ts n' →
      Derives (.upTo 0 (.unary op e)) n (t :: ts) n'
  | unsigned {e : Expr} {n n' : Nat} {ts : List Token} :
      Derives (.atom e) n ts n' → Derives (.upTo 0 e) n ts n'
  -- operands
  | literal {v : Value} {n : Nat} {t : Token} :
      t.lexeme = .literal v → Derives (.atom (.literal v)) n [t] n
  | group {b : Bracket} {e : Expr} {n n' : Nat} {ts : List Token} {t t' : Token} :
      t.lexeme = .opening b → Derives (.upTo 5 e) n ts n' → t'.lexeme = .closing b →
      Derives (.atom e) n (t :: ts ++ [t']) n'
  | call {s : String} {f : FunctionDef} {listed : Bool} {args : List Expr} {n n' : Nat}
      {ts : List Token} {t : Token} :
      t.lexeme = .name s → names.function? s = some f →
      Derives (.listIf (· = .round) listed args) (n + 1) ts n' →
      f.arity.accepts args.length = true →
      Derives (.atom (.call n f args)) n (t :: ts) n'
  | var {s : String} {listed : Bool} {index : List Expr} {n n' : Nat} {ts : List Token}
      {t : Token} :
      t.lexeme = .name s → names.function? s = none → names.isVariable s = true →
      Derives (.listIf (· = .square) listed index) (n + 1) ts n' →
      Derives (.atom (.var n s index)) n (t :: ts) n'
  | external {s : String} {v : Value} {n : Nat} {t : Token} :
      t.lexeme = .name s → names.function? s = none → names.isVariable s = false →
      names.external? s = some v →
      Derives (.atom (.literal v)) n [t] n
  | path {s : String} {steps : List (Step Expr)} {n n' : Nat} {ts : List Token} {t : Token} :
      t.lexeme = .name s → names.function? s = none → names.isVariable s = false →
      names.external? s = none → names.startsPath s = true →
      Derives (.steps s steps) (n + 1) ts n' →
      Derives (.atom (.path n steps (pathText source t ts))) n (t :: ts) n'
  -- lists
  | noList {wanted : Bracket → Bool} {n : Nat} : Derives (.listIf wanted false []) n [] n
  | emptyList {wanted : Bracket → Bool} {b : Bracket} {n : Nat} {t t' : Token} :
      t.lexeme = .opening b → wanted b = true → t'.lexeme = .closing b →
      Derives (.listIf wanted true []) n [t, t'] n
  | list {wanted : Bracket → Bool} {b : Bracket} {es : List Expr} {n n' : Nat}
      {ts : List Token} {t t' : Token} :
      t.lexeme = .opening b → wanted b = true → Derives (.items es) n ts n' →
      t'.lexeme = .closing b →
      Derives (.listIf wanted true es) n (t :: ts ++ [t']) n'
  | lastItem {e : Expr} {n n' : Nat} {ts : List Token} :
      Derives (.upTo 5 e) n ts n' → Derives (.items [e]) n ts n'
  | item {c : Char} {e : Expr} {es : List Expr} {n₁ n₂ n₃ : Nat} {ts us : List Token}
      {t : Token} :
      Derives (.upTo 5 e) n₁ ts n₂ → t.lexeme = .separator c → Derives (.items es) n₂ us n₃ →
      Derives (.items (e :: es)) n₁ (ts ++ t :: us) n₃
  -- paths
  | lastStep {s : String} {listed : Bool} {keys : List Expr} {n n' : Nat} {ts : List Token} :
      Derives (.listIf Bracket.holdsKeys listed keys) n ts n' →
      Derives (.steps s [⟨s, listed, keys⟩]) n ts n'
  | step {s s' : String} {listed : Bool} {keys : List Expr} {steps : List (Step Expr)}
      {n₁ n₂ n₃ : Nat} {ts us : List Token} {t t' : Token} :
      Derives (.listIf Bracket.holdsKeys listed keys) n₁ ts n₂ → t.lexeme = .period →
      t'.lexeme = .name s' → Derives (.steps s' steps) n₂ us n₃ →
      Derives (.steps s (⟨s, listed, keys⟩ :: steps)) n₁ (ts ++ t :: t' :: us) n₃

end

end Parse

end Formula
