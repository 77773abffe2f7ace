import Formula.Proofs.Parse.Exact

/-!
# Where a reading stops

A reader looks at one token after another and at none behind its current token.  So it comes to
some token whatever stands behind that, it fails there whatever stands behind it, or it asks for
more tokens than there are (`Settles`).  The end of a source is never passed, so that only a source
with a flaw can have too few tokens.
-/

namespace Formula.Parse

variable {α β : Type} {names : Names} {source : List Char}

/-! ## What readers do with more or fewer tokens -/

section
variable (names : Names) (source : List Char) (current : Token)
  (x : Option Flaw → List Token → Outcome (α × Cursor)) (rest : List Token)

/-- A reader, at a token with others behind it, comes to another token: the tokens before are not
the end of a source, and if there are no more than these, it asks for more. -/
structure Reaches (passed : List Token) (t : Token) (us : List Token) : Prop where
  tokens : current :: rest = passed ++ t :: us
  inner : ∀ p ∈ passed, p.lexeme ≠ .finish
  asks : ∀ flaw us, current :: us = passed → x flaw us = failBehind ⟨names, source, flaw⟩

/-- What a reader does at a token with others behind it, whatever flaw the source has. -/
inductive Settles : Prop
  /-- It comes to a token, whatever stands behind that. -/
  | done (a : α) {passed : List Token} {c : Cursor} :
      Reaches names source current x rest passed c.current c.rest →
      (∀ flaw us us', current :: us = passed ++ c.current :: us' →
        x flaw us = .ok (a, { c with rest := us' })) → Settles
  /-- It fails at a token, whatever stands behind that. -/
  | stuck (problem : SyntaxProblem) {passed us : List Token} {t : Token} :
      Reaches names source current x rest passed t us →
      (∀ flaw us us', current :: us = passed ++ t :: us' →
        x flaw us = failBetween ⟨names, source, flaw⟩ problem t.start t.stop) → Settles
  /-- It refuses what it has read. -/
  | refused {error : CalcError} : (∀ e, error ≠ .invalidSyntax e) →
      (∀ flaw, x flaw rest = .error error) → Settles
  /-- It asks for more tokens. -/
  | ended : (∀ t ∈ current :: rest, t.lexeme ≠ .finish) →
      (∀ flaw, x flaw rest = failBehind ⟨names, source, flaw⟩) → Settles

end

variable {current : Token} {x y : Option Flaw → List Token → Outcome (α × Cursor)}
  {rest : List Token}

theorem Reaches.nil (t : Token) (x : Option Flaw → List Token → Outcome (α × Cursor))
    (us : List Token) : Reaches names source t x us [] t us :=
  ⟨rfl, List.forall_mem_nil _, nofun⟩

/-- Other tokens can stand behind one that a reader comes to. -/
theorem Reaches.exists_tokens {passed us : List Token} {t : Token}
    (h : Reaches names source current x rest passed t us) (us' : List Token) :
    ∃ vs, current :: vs = passed ++ t :: us' := by
  cases passed with
  | nil =>
    obtain ⟨rfl, -⟩ := List.cons.inj h.tokens
    exact ⟨us', rfl⟩
  | cons p ps =>
    obtain ⟨rfl, -⟩ := List.cons.inj h.tokens
    exact ⟨ps ++ t :: us', rfl⟩

namespace Settles

theorem congr (h : ∀ flaw us, x flaw us = y flaw us)
    (hy : Settles names source current y rest) : Settles names source current x rest := by
  rwa [funext fun flaw => funext (h flaw)]

/-- A reader that passes nothing. -/
theorem ok (a : α) (c : Cursor) :
    Settles names source c.current (fun _ us => .ok (a, { c with rest := us })) c.rest := by
  refine .done a (.nil ..) ?_
  rintro flaw us us' htokens
  cases htokens
  rfl

theorem fail (c : Cursor) (problem : SyntaxProblem) :
    Settles names source c.current
      (fun flaw us => (failAt ⟨names, source, flaw⟩ { c with rest := us } problem :
        Outcome (α × Cursor))) c.rest :=
  .stuck problem (.nil ..) fun _ _ _ _ => rfl

/-! ## One reader after another -/

section
variable {passed passed' us : List Token} {a : α} {c : Cursor} {t : Token}
  {k : Option Flaw → α × Cursor → Outcome (β × Cursor)}
  (hreads : ∀ flaw us us', current :: us = passed ++ c.current :: us' →
    x flaw us = .ok (a, { c with rest := us' }))
  (hbehind : Reaches names source c.current (fun flaw us => k flaw (a, { c with rest := us }))
    c.rest passed' t us)
include hreads hbehind

/-- Where the second reader comes to another token, the first has come to the one before. -/
theorem bind_eq {flaw : Option Flaw} {vs us' : List Token}
    (htokens : current :: vs = (passed ++ passed') ++ t :: us') :
    ∃ ws, c.current :: ws = passed' ++ t :: us' ∧
      x flaw vs >>= k flaw = k flaw (a, { c with rest := ws }) := by
  obtain ⟨ws, hws⟩ := hbehind.exists_tokens us'
  rw [List.append_assoc, ← hws] at htokens
  refine ⟨ws, hws, ?_⟩
  rw [hreads flaw vs ws htokens]
  rfl

/-- A reader that comes to a token comes to those that the reader after it comes to from there. -/
theorem reaches_bind (h : Reaches names source current x rest passed c.current c.rest) :
    Reaches names source current (fun flaw us => x flaw us >>= k flaw) rest
      (passed ++ passed') t us where
  tokens := by rw [h.tokens, hbehind.tokens, List.append_assoc]
  inner p hp := (List.mem_append.mp hp).elim (h.inner p) (hbehind.inner p)
  asks flaw vs htokens := by
    cases passed' with
    | nil =>
      rw [List.append_nil] at htokens
      rw [h.asks flaw vs htokens, failBehind_bind]
    | cons p ps =>
      obtain ⟨rfl, -⟩ := List.cons.inj hbehind.tokens
      rw [hreads flaw vs ps htokens]
      exact hbehind.asks flaw ps rfl

end

/-- A reader settles that is put together from one that does and others that do behind it. -/
theorem bind {k : Option Flaw → α × Cursor → Outcome (β × Cursor)}
    (h : Settles names source current x rest)
    (hk : ∀ a c, x none rest = .ok (a, c) → Settles names source c.current
      (fun flaw us => k flaw (a, { c with rest := us })) c.rest) :
    Settles names source current (fun flaw us => x flaw us >>= k flaw) rest := by
  cases h with
  | refused hother hfails => exact .refused hother fun flaw => by rw [hfails]; rfl
  | ended hinner hasks => exact .ended hinner fun flaw => by rw [hasks, failBehind_bind]
  | stuck problem hreaches hfails =>
    refine .stuck problem ⟨hreaches.tokens, hreaches.inner, fun flaw us htokens => ?_⟩
      fun flaw us us' htokens => ?_
    · rw [hreaches.asks flaw us htokens, failBehind_bind]
    · rw [hfails flaw us us' htokens]
      rfl
  | @done a passed c hreaches hreads =>
    have hread : ∀ flaw, x flaw rest = .ok (a, c) := fun flaw =>
      hreads flaw rest c.rest hreaches.tokens
    cases hk a c (hread none) with
    | refused hother hfails => exact .refused hother fun flaw => by rw [hread]; exact hfails flaw
    | ended hinner hasks =>
      refine .ended ?_ fun flaw => by rw [hread]; exact hasks flaw
      rw [hreaches.tokens]
      exact fun t ht => (List.mem_append.mp ht).elim (hreaches.inner t) (hinner t)
    | stuck problem hbehind hfails =>
      refine .stuck problem (reaches_bind hreads hbehind hreaches) fun flaw us us' htokens => ?_
      obtain ⟨ws, hws, heq⟩ := bind_eq hreads hbehind htokens
      rw [heq]
      exact hfails flaw ws us' hws
    | done b hbehind hreads' =>
      refine .done b (reaches_bind hreads hbehind hreaches) fun flaw us us' htokens => ?_
      obtain ⟨ws, hws, heq⟩ := bind_eq hreads hbehind htokens
      rw [heq]
      exact hreads' flaw ws us' hws

/-- The current token is passed if another stands behind it. -/
theorem pass {c : Cursor} (hne : c.current.lexeme ≠ .finish) :
    Settles names source c.current (fun flaw us => do
      let c' ← Parse.pass ⟨names, source, flaw⟩ { c with rest := us }
      return ((), c')) c.rest := by
  have hinner : ∀ t ∈ [c.current], t.lexeme ≠ .finish := List.forall_mem_singleton.mpr hne
  have hnone : ∀ flaw, (do
      let c' ← Parse.pass ⟨names, source, flaw⟩ { c with rest := [] }
      return ((), c') : Outcome (Unit × Cursor)) = failBehind ⟨names, source, flaw⟩ := by
    intro flaw
    rw [pass_nil rfl, failBehind_bind]
  cases hrest : c.rest with
  | nil => exact .ended hinner hnone
  | cons t us =>
    have hreaches : Reaches names source c.current (fun flaw us => do
        let c' ← Parse.pass ⟨names, source, flaw⟩ { c with rest := us }
        return ((), c')) (t :: us) [c.current] t us := by
      refine ⟨rfl, hinner, ?_⟩
      rintro flaw us' htokens
      cases htokens
      exact hnone flaw
    refine @done _ _ _ _ _ _ () _ ⟨t, us, c.current.stop, c.nextId⟩ hreaches ?_
    rintro flaw us' us'' htokens
    cases htokens
    rw [pass_cons rfl]
    rfl

/-- What settles behind the current token settles after this is passed. -/
theorem pass_bind {c : Cursor} {k : Option Flaw → Cursor → Outcome (β × Cursor)}
    (hne : c.current.lexeme ≠ .finish)
    (hk : ∀ c' : Cursor, c'.size < c.size →
      Settles names source c'.current (fun flaw us => k flaw { c' with rest := us }) c'.rest) :
    Settles names source c.current
      (fun flaw us => Parse.pass ⟨names, source, flaw⟩ { c with rest := us } >>= k flaw)
      c.rest := by
  have hbind : Settles names source c.current (fun flaw us =>
      (do
        let c' ← Parse.pass ⟨names, source, flaw⟩ { c with rest := us }
        return ((), c')) >>= fun r => k flaw r.2) c.rest := by
    refine (pass hne).bind fun _ c' hread => hk c' ?_
    obtain ⟨c'', hread, hsame⟩ := exists_of_bind_eq_ok hread
    cases hsame
    exact Passes.size_lt_of_pass hread
  refine hbind.congr fun flaw us => ?_
  cases Parse.pass ⟨names, source, flaw⟩ { c with rest := us } <;> rfl

end Settles

/-! ## The readers -/

/-- What is read at some place settles there. -/
abbrev Settled (names : Names) (source : List Char) (c : Cursor)
    (read : Input → Cursor → Outcome (α × Cursor)) : Prop :=
  Settles names source c.current
    (fun flaw us => read ⟨names, source, flaw⟩ { c with rest := us }) c.rest

/-- Every reader settles at some place. -/
structure SettledAt (names : Names) (source : List Char) (c : Cursor) : Prop where
  upTo : ∀ k, Settled names source c fun input c => readUpTo input k c
  joined : ∀ k left, Settled names source c fun input c => readJoined input k left c
  list : ∀ wanted, Settled names source c fun input c => readList input wanted c
  items : ∀ b, Settled names source c fun input c => readItems input b c
  steps : ∀ s, Settled names source c fun input c => readSteps input s c

theorem opens?_behind (c : Cursor) (us : List Token) : opens? { c with rest := us } = opens? c :=
  rfl

section
variable {size : Nat} (ih : ∀ c, c.size < size → SettledAt names source c) {c : Cursor}
  (hc : c.size ≤ size)
include ih hc

/-- Reading a list settles: no list, an empty one or one with items. -/
theorem settled_list (wanted : Bracket → Bool) :
    Settled names source c fun input c => readList input wanted c := by
  by_cases ho : (opens? c).any wanted = true
  · obtain ⟨b, hb, hwanted⟩ := (Option.any_eq_true _ _).mp ho
    have hopening := opens?_eq_some hb
    refine .congr (fun flaw us => readList_some hb hwanted)
      (.pass_bind (by simp [hopening]) fun c₁ hlt => ?_)
    by_cases hcloses : closes b c₁ = true
    · have hclosing := closes_eq_true hcloses
      refine .congr (fun flaw us => if_pos hcloses)
        (.pass_bind (by simp [hclosing]) fun c₂ _ => ?_)
      exact .ok [] c₂
    · refine .congr (fun flaw us => if_neg hcloses) ?_
      exact (ih c₁ (Nat.lt_of_lt_of_le hlt hc)).items b
  · rw [Bool.not_eq_true] at ho
    exact .congr (fun flaw us => readList_none ho) (.ok [] c)

theorem settled_steps (s : String) :
    Settled names source c fun input c => readSteps input s c := by
  refine .congr (fun flaw us => readSteps_eq) ?_
  simp only [opens?_behind]
  refine (settled_list ih hc _).bind fun keys c₁ hread => ?_
  obtain ⟨ts, hp, -⟩ := (soundAt _ _).list _ _ _ hread
  have hle : c₁.size ≤ c.size := hp.size_le
  cases hperiod : c₁.current.lexeme with
  | period =>
    simp only [hperiod]
    refine .pass_bind (by simp [hperiod]) fun c₂ hlt₂ => ?_
    cases hname : c₂.current.lexeme with
    | name next =>
      simp only [hname]
      refine .pass_bind (by simp [hname]) fun c₃ hlt₃ => ?_
      have hsteps := (ih c₃ (by omega)).steps next
      exact hsteps.bind fun steps c₄ _ => .ok (_ :: steps) c₄
    | _ =>
      simp only [hname]
      exact .fail c₂ .identifierExpected
  | _ =>
    simp only [hperiod]
    exact .ok [_] c₁

/-- Reading what a name starts settles for each meaning of the name. -/
theorem settled_named {s : String} (hs : c.current.lexeme = .name s) :
    Settled names source c fun input c => readNamed input s c := by
  have hne : c.current.lexeme ≠ .finish := by simp [hs]
  cases hf : names.function? s with
  | some f =>
    refine .congr (fun flaw us => readNamed_function hf) ?_
    dsimp only
    refine .pass_bind hne fun c₁ hlt => ?_
    have hargs := (ih (c₁.numbered c.nextId) (Nat.lt_of_lt_of_le hlt hc)).list (· = .round)
    refine hargs.bind fun args c₂ _ => ?_
    cases harity : f.arity.accepts args.length with
    | true =>
      simp only [FunctionDef.checkArity, harity, if_true]
      exact .ok (Expr.call c.nextId f args) c₂
    | false =>
      simp only [FunctionDef.checkArity, harity, Bool.false_eq_true, if_false]
      exact .refused (fun _ => CalcError.noConfusion) fun _ => rfl
  | none =>
    cases hv : names.isVariable s with
    | true =>
      refine .congr (fun flaw us => readNamed_variable hf hv) ?_
      dsimp only
      refine .pass_bind hne fun c₁ hlt => ?_
      have hindex := (ih (c₁.numbered c.nextId) (Nat.lt_of_lt_of_le hlt hc)).list (· = .square)
      exact hindex.bind fun index c₂ _ => .ok (Expr.var c.nextId s index) c₂
    | false =>
      cases hx : names.external? s with
      | some v =>
        refine .congr (fun flaw us => readNamed_external hf hv hx) (.pass_bind hne fun c₁ _ => ?_)
        exact .ok (Expr.literal v) c₁
      | none =>
        cases hstarts : names.startsPath s with
        | true =>
          refine .congr (fun flaw us => readNamed_path hf hv hx hstarts) ?_
          dsimp only
          refine .pass_bind hne fun c₁ hlt => ?_
          have hsteps := (ih (c₁.numbered c.nextId) (Nat.lt_of_lt_of_le hlt hc)).steps s
          refine hsteps.bind fun steps c₂ _ => ?_
          let text := (source.take c₂.passed).drop c.current.start
          exact .ok (Expr.path c.nextId steps (String.ofList text)) c₂
        | false =>
          exact .congr (fun flaw us => readNamed_unknown hf hv hx hstarts) (.fail c _)

/-- Reading an operand without a sign settles for each first token. -/
theorem settled_atom : Settled names source c fun input c => readAtom input c := by
  cases hl : c.current.lexeme with
  | literal v =>
    refine .congr (fun flaw us => readAtom_literal hl)
      (.pass_bind (by simp [hl]) fun c₁ _ => ?_)
    exact .ok (Expr.literal v) c₁
  | name s => exact .congr (fun flaw us => readAtom_name hl) (settled_named ih hc hl)
  | opening b =>
    refine .congr (fun flaw us => readAtom_opening hl)
      (.pass_bind (by simp [hl]) fun c₁ hlt => ?_)
    refine ((ih c₁ (Nat.lt_of_lt_of_le hlt hc)).upTo 5).bind fun e c₂ _ => ?_
    by_cases hcloses : closes b c₂ = true
    · have hclosing := closes_eq_true hcloses
      refine .congr (fun flaw us => if_pos hcloses)
        (.pass_bind (by simp [hclosing]) fun c₃ _ => ?_)
      exact .ok e c₃
    · exact .congr (fun flaw us => if_neg hcloses) (.fail c₂ .unbalanced)
  | finish => exact .congr (fun flaw us => readAtom_finish hl) (.fail c .unexpectedEnd)
  | operator | closing | period | separator =>
    refine .congr (fun flaw us => ?_) (.fail c .unexpectedToken)
    exact readAtom_other (by simp [hl]) (by simp [hl]) (by simp [hl]) (by simp [hl])

theorem settled_signed : Settled names source c fun input c => readSigned input c := by
  cases hs : signAt? c with
  | none => exact .congr (fun flaw us => readSigned_none hs) (settled_atom ih hc)
  | some op =>
    obtain ⟨written, hsign⟩ := signAt?_eq_some hs
    refine .congr (fun flaw us => readSigned_some hs)
      (.pass_bind (by simp [hsign]) fun c₁ hlt => ?_)
    have hsigned := (ih c₁ (Nat.lt_of_lt_of_le hlt hc)).upTo 0
    simp only [Settled, readUpTo_zero] at hsigned
    exact hsigned.bind fun e c₂ _ => .ok (Expr.unary op e) c₂

theorem settled_joined (k : Nat) (left : Expr) :
    Settled names source c fun input c => readJoined input k left c := by
  cases ho : operatorAt? (k + 1) c with
  | none => exact .congr (fun flaw us => readJoined_none ho) (.ok left c)
  | some op =>
    obtain ⟨⟨written, hop⟩, -⟩ := operatorAt?_eq_some ho
    refine .congr (fun flaw us => readJoined_some ho)
      (.pass_bind (by simp [hop]) fun c₁ hlt => ?_)
    refine ((ih c₁ (Nat.lt_of_lt_of_le hlt hc)).upTo k).bind fun right c₂ hread => ?_
    obtain ⟨ts, hp, -⟩ := (soundAt _ _).upTo _ _ _ hread
    have hle : c₂.size ≤ c₁.size := hp.size_le
    exact (ih c₂ (by omega)).joined k (.binary op left right)

/-- Reading operands up to some level settles, by induction on the level. -/
theorem settled_upTo (k : Nat) : Settled names source c fun input c => readUpTo input k c := by
  -- The first operand is read at the same place, so the levels need an induction of their own.
  induction k with
  | zero => exact .congr (fun flaw us => readUpTo_zero) (settled_signed ih hc)
  | succ k ihk =>
    refine .congr (fun flaw us => readUpTo_succ) (ihk.bind fun left c₁ hread => ?_)
    obtain ⟨ts, hp, -⟩ := (soundAt _ _).upTo _ _ _ hread
    exact settled_joined ih (Nat.le_trans hp.size_le hc) k left

theorem settled_items (b : Bracket) :
    Settled names source c fun input c => readItems input b c := by
  refine .congr (fun flaw us => readItems_eq) ((settled_upTo ih hc 5).bind fun e c₁ hread => ?_)
  obtain ⟨ts, hp, -⟩ := (soundAt _ _).upTo _ _ _ hread
  have hle : c₁.size ≤ c.size := hp.size_le
  cases hl : c₁.current.lexeme with
  | separator s =>
    simp only [hl]
    refine .pass_bind (by simp [hl]) fun c₂ hlt => ?_
    exact ((ih c₂ (by omega)).items b).bind fun es c₃ _ => .ok (e :: es) c₃
  | closing other =>
    simp only [hl]
    by_cases hb : other = b
    · simp only [if_pos hb]
      exact .pass_bind (by simp [hl]) fun c₂ _ => .ok [e] c₂
    · simp only [if_neg hb]
      exact .fail c₁ .unbalanced
  | _ =>
    simp only [hl]
    exact .fail c₁ .unbalanced

end

/-- Every reader settles at every place. -/
theorem settledAt (names : Names) (source : List Char) (c : Cursor) : SettledAt names source c := by
  have hall : ∀ size c, c.size ≤ size → SettledAt names source c := by
    intro size
    -- Every reader calls others at places with fewer tokens to follow.
    induction size using Nat.strongRecOn with
    | ind size ih =>
      intro c hc
      have hbelow : ∀ c', c'.size < size → SettledAt names source c' :=
        fun c' hlt => ih c'.size hlt c' (Nat.le_refl _)
      exact
        { upTo := settled_upTo hbelow hc
          joined := settled_joined hbelow hc
          list := settled_list hbelow hc
          items := settled_items hbelow hc
          steps := settled_steps hbelow hc }
  exact hall c.size c (Nat.le_refl _)

/-! ## The reading of a source -/

/-- Reads an expression behind which the source ends. -/
def readAll (input : Input) (c : Cursor) : Outcome (Expr × Cursor) := do
  let (e, c) ← readUpTo input 5 c
  match c.current.lexeme with
  | .finish => return (e, c)
  | _ => failAt input c .unexpectedToken

/-- Reading a whole source settles: behind the expression the source ends, or the token there is
refused. -/
theorem settled_all (names : Names) (source : List Char) (c : Cursor) :
    Settled names source c readAll := by
  refine ((settledAt names source c).upTo 5).bind fun e c _ => ?_
  cases hl : c.current.lexeme with
  | finish =>
    simp only [hl]
    exact .ok e c
  | _ =>
    simp only [hl]
    exact .fail c .unexpectedToken

/-- Reads tokens of a source, and finds its flaw if it asks for more. -/
def readTokens (names : Names) (source : List Char) (flaw : Option Flaw) : List Token → Outcome Expr
  | [] => failBehind ⟨names, source, flaw⟩
  | token :: rest =>
    (readAll ⟨names, source, flaw⟩ ⟨token, rest, token.start, 0⟩).map (·.1)

/-- Parsing a source is reading the tokens that it is cut into, before its flaw. -/
theorem parseSource_eq_readTokens (names : Names) (spelling : Spelling) (source : List Char) :
    parseSource names spelling source =
      readTokens names source (scan spelling source).flaw (scan spelling source).tokens := by
  rw [parseSource_eq]
  cases (scan spelling source).tokens with
  | nil => rfl
  | cons token rest =>
    dsimp only
    rw [readTokens, readAll]
    cases readUpTo ⟨names, source, (scan spelling source).flaw⟩ 5
        ⟨token, rest, token.start, 0⟩ with
    | error => rfl
    | ok r =>
      show (match r.2.current.lexeme with | .finish => _ | _ => _) =
        Except.map _ (match r.2.current.lexeme with | .finish => _ | _ => _)
      cases r.2.current.lexeme <;> rfl

/-- The reading of a source asks for more than some tokens, so that its flaw is found. -/
def AsksBehind (names : Names) (source : List Char) (ts : List Token) : Prop :=
  ∀ flaw, readTokens names source flaw ts = failBehind ⟨names, source, flaw⟩

/-- The reading of a source fails when a token is the current one: it asks for that token behind
some others, and then fails whatever stands behind it, with an error that marks it. -/
structure FailsAt (names : Names) (source : List Char) (ts : List Token) (t : Token)
    (problem : SyntaxProblem) : Prop where
  asks : AsksBehind names source ts
  fails : ∀ flaw us, readTokens names source flaw (ts ++ t :: us) =
    .error (.invalidSyntax ⟨problem, markedSource source t.start t.stop⟩)

/-- Tokens that are not read are refused at one of them, or more of them are asked for. -/
theorem failsAt_or_asksBehind {flaw : Option Flaw} {tokens : List Token} {error : SyntaxError}
    (h : readTokens names source flaw tokens = .error (.invalidSyntax error)) :
    (∃ ts t us, tokens = ts ++ t :: us ∧ FailsAt names source ts t error.problem ∧
      error.context = markedSource source t.start t.stop) ∨
    (∀ t ∈ tokens, t.lexeme ≠ .finish) ∧ AsksBehind names source tokens := by
  cases tokens with
  | nil => exact .inr ⟨List.forall_mem_nil _, fun _ => rfl⟩
  | cons token rest =>
  have hx : ∀ flaw us, readTokens names source flaw (token :: us) =
      (readAll ⟨names, source, flaw⟩ ⟨token, us, token.start, 0⟩).map (·.1) := fun _ _ => rfl
  rw [hx] at h
  cases settled_all names source ⟨token, rest, token.start, 0⟩ with
  | done e hreaches hreads =>
    rw [hreads flaw rest _ hreaches.tokens] at h
    cases h
  | refused hother hfails =>
    rw [hfails] at h
    cases h
    exact absurd rfl (hother error)
  | ended hinner hasks =>
    refine .inr ⟨hinner, fun flaw => ?_⟩
    rw [hx, hasks, map_failBehind]
  | @stuck problem passed us t hreaches hfails =>
    rw [hfails flaw rest us hreaches.tokens] at h
    cases h
    refine .inl ⟨passed, t, us, hreaches.tokens, ⟨fun flaw => ?_, fun flaw us' => ?_⟩, rfl⟩
    · cases passed with
      | nil => rfl
      | cons p ps =>
        obtain ⟨rfl, -⟩ := List.cons.inj hreaches.tokens
        rw [hx, hreaches.asks flaw ps rfl, map_failBehind]
    · obtain ⟨vs, hvs⟩ := hreaches.exists_tokens us'
      rw [← hvs, hx, hfails flaw vs us' hvs]
      rfl

end Formula.Parse
