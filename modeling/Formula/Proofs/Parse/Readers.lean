import Formula.Expr.Parse

/-!
# The readers without their bounds

The reading functions return a proof that fewer tokens are left.  Here each of them is given without
that proof, with one equation that says what it does.
-/

namespace Formula.Parse

variable (input : Input)

/-- Passes the current token. -/
def pass (c : Cursor) : Outcome Cursor := (advance input c).map (·.1)

/-- Reads operands joined by operators up to some looseness. -/
def readUpTo (looseness : Nat) (c : Cursor) : Outcome (Expr × Cursor) :=
  (upTo input looseness c).map (·.1)

/-- Reads more operands after `left`. -/
def readJoined (looseness : Nat) (left : Expr) (c : Cursor) : Outcome (Expr × Cursor) :=
  (joined input looseness left c).map (·.1)

/-- Reads an operand after its signs. -/
def readSigned (c : Cursor) : Outcome (Expr × Cursor) := (signed input c).map (·.1)

/-- Reads an operand without a sign. -/
def readAtom (c : Cursor) : Outcome (Expr × Cursor) := (atom input c).map (·.1)

/-- Reads what a name starts. -/
def readNamed (name : String) (c : Cursor) : Outcome (Expr × Cursor) :=
  (named input name c).map (·.1)

/-- Reads the rest of a path after the name of a step. -/
def readSteps (name : String) (c : Cursor) : Outcome (List (Step Expr) × Cursor) :=
  (stepsFrom input name c).map (·.1)

/-- Reads a list in brackets, if the current token opens one that is wanted. -/
def readList (wanted : Bracket → Bool) (c : Cursor) : Outcome (List Expr × Cursor) :=
  (listIf input wanted c).map (·.1)

/-- Reads the items of a list and the bracket that closes it. -/
def readItems (b : Bracket) (c : Cursor) : Outcome (List Expr × Cursor) :=
  (itemsUntil input b c).map (·.1)

/-! ## Passing tokens -/

/-- The cursor with a number used. -/
def Cursor.numbered (c : Cursor) (n : Nat) : Cursor := { c with nextId := n + 1 }

@[simp] theorem Cursor.numbered_current (c : Cursor) (n : Nat) :
    (c.numbered n).current = c.current := rfl

@[simp] theorem Cursor.numbered_rest (c : Cursor) (n : Nat) : (c.numbered n).rest = c.rest := rfl

@[simp] theorem Cursor.numbered_passed (c : Cursor) (n : Nat) :
    (c.numbered n).passed = c.passed := rfl

@[simp] theorem Cursor.numbered_nextId (c : Cursor) (n : Nat) :
    (c.numbered n).nextId = n + 1 := rfl

variable {input}

/-- If both together succeed, the first does, and the second with what it returns. -/
theorem exists_of_bind_eq_ok {α β : Type} {x : Outcome α} {f : α → Outcome β} {b : β}
    (h : x >>= f = .ok b) : ∃ a, x = .ok a ∧ f a = .ok b := by
  cases x with
  | error => cases h
  | ok a => exact ⟨a, rfl, h⟩

theorem exists_failBehind (α : Type) (input : Input) :
    ∃ error, (failBehind input : Outcome α) = .error error := by
  rw [failBehind]
  cases input.flaw <;> exact ⟨_, rfl⟩

theorem failBehind_bind {α β : Type} (input : Input) (f : α → Outcome β) :
    (failBehind input >>= f : Outcome β) = failBehind input := by
  rw [failBehind, failBehind]
  cases input.flaw <;> rfl

theorem map_failBehind {α β : Type} (input : Input) (f : α → β) :
    (failBehind input : Outcome α).map f = failBehind input := by
  rw [failBehind, failBehind]
  cases input.flaw <;> rfl

/-- Behind the last token there is nothing to pass, and the flaw of the source is told. -/
theorem pass_nil {c : Cursor} (h : c.rest = []) : pass input c = failBehind input := by
  rw [pass, advance]
  split
  · exact map_failBehind ..
  · next h' => rw [h'] at h; cases h

/-- Passing a token leads to the next, and keeps the place where the one passed ends. -/
theorem pass_cons {c : Cursor} {t : Token} {rest : List Token} (h : c.rest = t :: rest) :
    pass input c = .ok ⟨t, rest, c.current.stop, c.nextId⟩ := by
  rw [pass, advance]
  split
  · next h' => rw [h'] at h; cases h
  · next h' =>
    rw [h'] at h
    cases h
    rfl

/-- Passing succeeds only if there is another token. -/
theorem exists_of_pass {c c' : Cursor} (h : pass input c = .ok c') :
    ∃ t rest, c.rest = t :: rest ∧ c' = ⟨t, rest, c.current.stop, c.nextId⟩ := by
  cases hr : c.rest with
  | cons t rest =>
    rw [pass_cons hr] at h
    cases h
    exact ⟨t, rest, rfl, rfl⟩
  | nil =>
    obtain ⟨error, he⟩ := exists_failBehind Cursor input
    rw [pass_nil hr, he] at h
    cases h

/-! ## Equations -/

variable {k : Nat} {c : Cursor}

theorem readUpTo_zero : readUpTo input 0 c = readSigned input c := by
  rw [readUpTo, upTo, readSigned]

/-- Operands up to a looser level are those of the closer level, joined by operators of this one. -/
theorem readUpTo_succ : readUpTo input (k + 1) c = (do
    let (left, c₁) ← readUpTo input k c
    readJoined input k left c₁) := by
  rw [readUpTo, readUpTo, upTo]
  cases upTo input k c with
  | error => rfl
  | ok r =>
    obtain ⟨⟨left, c₁⟩, h₁⟩ := r
    simp only [bind, Except.bind, Except.map, readJoined]
    cases joined input k left c₁ <;> rfl

theorem readJoined_none {left : Expr} (h : operatorAt? (k + 1) c = none) :
    readJoined input k left c = .ok (left, c) := by
  rw [readJoined, joined, h]
  rfl

/-- Where an operator of the level follows, its right operand is read and joined to what was
read. -/
theorem readJoined_some {left : Expr} {op : BinaryOp} (h : operatorAt? (k + 1) c = some op) :
    readJoined input k left c = (do
      let c₁ ← pass input c
      let (right, c₂) ← readUpTo input k c₁
      readJoined input k (.binary op left right) c₂) := by
  rw [readJoined, joined, h, pass]
  simp only
  cases advance input c with
  | error => rfl
  | ok r =>
    obtain ⟨c₁, h₁⟩ := r
    simp only [bind, Except.bind, Except.map, readUpTo]
    cases upTo input k c₁ with
    | error => rfl
    | ok r =>
      obtain ⟨⟨right, c₂⟩, h₂⟩ := r
      simp only [readJoined]
      cases joined input k (.binary op left right) c₂ <;> rfl

theorem readSigned_none (h : signAt? c = none) : readSigned input c = readAtom input c := by
  rw [readSigned, signed, h, readAtom]

/-- Where a sign stands, it is passed and the operand is read behind it. -/
theorem readSigned_some {op : UnaryOp} (h : signAt? c = some op) :
    readSigned input c = (do
      let c₁ ← pass input c
      let (e, c₂) ← readSigned input c₁
      return (.unary op e, c₂)) := by
  rw [readSigned, signed, h, pass]
  simp only
  cases advance input c with
  | error => rfl
  | ok r =>
    obtain ⟨c₁, h₁⟩ := r
    simp only [bind, Except.bind, Except.map, readSigned]
    cases signed input c₁ <;> rfl

theorem readAtom_literal {v : Value} (h : c.current.lexeme = .literal v) :
    readAtom input c = (do return (.literal v, ← pass input c)) := by
  rw [readAtom, atom, h, pass]
  cases advance input c <;> rfl

theorem readAtom_name {s : String} (h : c.current.lexeme = .name s) :
    readAtom input c = readNamed input s c := by
  rw [readAtom, atom, h, readNamed]

/-- An opening bracket is passed, an expression is read, and the bracket must be closed. -/
theorem readAtom_opening {b : Bracket} (h : c.current.lexeme = .opening b) :
    readAtom input c = (do
      let c₁ ← pass input c
      let (e, c₂) ← readUpTo input 5 c₁
      if closes b c₂ then return (e, ← pass input c₂) else failAt input c₂ .unbalanced) := by
  rw [readAtom, atom, h, pass]
  simp only
  cases advance input c with
  | error => rfl
  | ok r =>
    obtain ⟨c₁, h₁⟩ := r
    simp only [bind, Except.bind, Except.map, readUpTo]
    cases upTo input 5 c₁ with
    | error => rfl
    | ok r =>
      obtain ⟨⟨e, c₂⟩, h₂⟩ := r
      by_cases hc : closes b c₂ = true
      · simp only [hc, pass]
        cases advance input c₂ <;> rfl
      · simp only [hc]
        rfl

theorem readAtom_finish (h : c.current.lexeme = .finish) :
    readAtom input c = failAt input c .unexpectedEnd := by
  rw [readAtom, atom, h]
  rfl

/-- A token that starts no operand. -/
theorem readAtom_other (hl : ∀ v, c.current.lexeme ≠ .literal v)
    (hn : ∀ s, c.current.lexeme ≠ .name s) (ho : ∀ b, c.current.lexeme ≠ .opening b)
    (hf : c.current.lexeme ≠ .finish) :
    readAtom input c = failAt input c .unexpectedToken := by
  rw [readAtom, atom]
  cases h : c.current.lexeme with
  | literal v => exact absurd h (hl v)
  | name s => exact absurd h (hn s)
  | opening b => exact absurd h (ho b)
  | finish => exact absurd h hf
  | operator | closing | period | separator => rfl

/-- The name of a function is passed and its arguments are read, and their number is checked. -/
theorem readNamed_function {s : String} {f : FunctionDef}
    (h : input.names.function? s = some f) :
    readNamed input s c = (do
      let c₁ ← pass input c
      let (args, c₂) ← readList input (· = .round) (c₁.numbered c.nextId)
      f.checkArity args.length
      return (.call c.nextId f args, c₂)) := by
  rw [readNamed, named, h, pass, advanceNumbered]
  simp only
  cases advance input c with
  | error => rfl
  | ok r =>
    obtain ⟨c₁, h₁⟩ := r
    simp only [bind, Except.bind, Except.map, pure, Except.pure, readList, Cursor.numbered]
    cases listIf input (fun b => decide (b = .round)) { c₁ with nextId := c.nextId + 1 } with
    | error => rfl
    | ok r =>
      obtain ⟨⟨args, c₂⟩, h₂⟩ := r
      simp only
      cases f.checkArity args.length <;> rfl

/-- The name of a variable is passed and its index is read. -/
theorem readNamed_variable {s : String} (hf : input.names.function? s = none)
    (h : input.names.isVariable s = true) :
    readNamed input s c = (do
      let c₁ ← pass input c
      let (index, c₂) ← readList input (· = .square) (c₁.numbered c.nextId)
      return (.var c.nextId s index, c₂)) := by
  rw [readNamed, named, hf, pass, advanceNumbered]
  simp only [h, if_true]
  cases advance input c with
  | error => rfl
  | ok r =>
    obtain ⟨c₁, h₁⟩ := r
    simp only [bind, Except.bind, Except.map, pure, Except.pure, readList, Cursor.numbered]
    cases listIf input (fun b => decide (b = .square)) { c₁ with nextId := c.nextId + 1 } <;> rfl

/-- The name of an object from outside is passed. -/
theorem readNamed_external {s : String} {v : Value} (hf : input.names.function? s = none)
    (hv : input.names.isVariable s = false) (h : input.names.external? s = some v) :
    readNamed input s c = (do return (.literal v, ← pass input c)) := by
  rw [readNamed, named, hf, pass]
  simp only [hv, h, Bool.false_eq_true, if_false]
  cases advance input c <;> rfl

/-- The name that starts a path is passed and its steps are read; its text ends where they do. -/
theorem readNamed_path {s : String} (hf : input.names.function? s = none)
    (hv : input.names.isVariable s = false) (hx : input.names.external? s = none)
    (h : input.names.startsPath s = true) :
    readNamed input s c = (do
      let c₁ ← pass input c
      let (steps, c₂) ← readSteps input s (c₁.numbered c.nextId)
      let text := (input.source.take c₂.passed).drop c.current.start
      return (.path c.nextId steps (String.ofList text), c₂)) := by
  rw [readNamed, named, hf, pass, advanceNumbered]
  simp only [hv, hx, h, Bool.false_eq_true, if_false, if_true]
  cases advance input c with
  | error => rfl
  | ok r =>
    obtain ⟨c₁, h₁⟩ := r
    simp only [bind, Except.bind, Except.map, pure, Except.pure, readSteps, Cursor.numbered]
    cases stepsFrom input s { c₁ with nextId := c.nextId + 1 } <;> rfl

/-- A name that means nothing is refused. -/
theorem readNamed_unknown {s : String} (hf : input.names.function? s = none)
    (hv : input.names.isVariable s = false) (hx : input.names.external? s = none)
    (h : input.names.startsPath s = false) :
    readNamed input s c = failAt input c .unexpectedIdentifier := by
  rw [readNamed, named, hf]
  simp only [hv, hx, h, Bool.false_eq_true, if_false]
  rfl

/-- The keys of a step are read, and if a period follows, the steps behind it. -/
theorem readSteps_eq {s : String} :
    readSteps input s c = (do
      let (keys, c₁) ← readList input (fun b => b = .round || b = .square) c
      let step : Step Expr :=
        ⟨s, (opens? c).any fun b => b = .round || b = .square, keys⟩
      match c₁.current.lexeme with
      | .period => do
        let c₂ ← pass input c₁
        match c₂.current.lexeme with
        | .name next => do
          let c₃ ← pass input c₂
          let (steps, c₄) ← readSteps input next c₃
          return (step :: steps, c₄)
        | _ => failAt input c₂ .identifierExpected
      | _ => return ([step], c₁)) := by
  rw [readSteps, stepsFrom, readList]
  simp only
  cases listIf input (fun b => b = .round || b = .square) c with
  | error => rfl
  | ok r =>
    obtain ⟨⟨keys, c₁⟩, h₁⟩ := r
    simp only [bind, Except.bind, Except.map]
    cases c₁.current.lexeme with
    | period =>
      simp only [pass]
      cases advance input c₁ with
      | error => rfl
      | ok r =>
        obtain ⟨c₂, h₂⟩ := r
        simp only [Except.map]
        cases c₂.current.lexeme with
        | name next =>
          simp only
          cases advance input c₂ with
          | error => rfl
          | ok r =>
            obtain ⟨c₃, h₃⟩ := r
            simp only [readSteps]
            cases stepsFrom input next c₃ <;> rfl
        | _ => rfl
    | _ => rfl

/-- Where no bracket that is wanted opens, there is no list. -/
theorem readList_none {wanted : Bracket → Bool} (h : (opens? c).any wanted = false) :
    readList input wanted c = .ok ([], c) := by
  rw [readList, listIf]
  cases ho : opens? c with
  | none => rfl
  | some b =>
    simp only [ho, Option.any_some] at h
    simp only [h]
    rfl

/-- Where one does, it is passed, and the items are read unless it is closed at once. -/
theorem readList_some {wanted : Bracket → Bool} {b : Bracket} (ho : opens? c = some b)
    (h : wanted b = true) :
    readList input wanted c = (do
      let c₁ ← pass input c
      if closes b c₁ then return ([], ← pass input c₁) else readItems input b c₁) := by
  rw [readList, listIf, ho, pass]
  simp only [h, if_true]
  cases advance input c with
  | error => rfl
  | ok r =>
    obtain ⟨c₁, h₁⟩ := r
    simp only [bind, Except.bind, Except.map, pass, readItems]
    by_cases hc : closes b c₁ = true
    · simp only [hc, if_true]
      cases advance input c₁ <;> rfl
    · simp only [hc]
      cases itemsUntil input b c₁ <;> rfl

/-- An item is read and what stands behind it: a separator and more items, or the closing
bracket. -/
theorem readItems_eq {b : Bracket} :
    readItems input b c = (do
      let (e, c₁) ← readUpTo input 5 c
      match c₁.current.lexeme with
      | .separator _ => do
        let c₂ ← pass input c₁
        let (items, c₃) ← readItems input b c₂
        return (e :: items, c₃)
      | .closing other =>
        if other = b then return ([e], ← pass input c₁) else failAt input c₁ .unbalanced
      | _ => failAt input c₁ .unbalanced) := by
  rw [readItems, itemsUntil, readUpTo]
  cases upTo input 5 c with
  | error => rfl
  | ok r =>
    obtain ⟨⟨e, c₁⟩, h₁⟩ := r
    simp only [bind, Except.bind, Except.map]
    cases c₁.current.lexeme with
    | separator s =>
      simp only [pass]
      cases advance input c₁ with
      | error => rfl
      | ok r =>
        obtain ⟨c₂, h₂⟩ := r
        simp only [Except.map, readItems]
        cases itemsUntil input b c₂ <;> rfl
    | closing other =>
      by_cases hb : other = b
      · simp only [hb, if_true, pass]
        cases advance input c₁ <;> rfl
      · simp only [hb, if_false]
        rfl
    | _ => rfl

end Formula.Parse
