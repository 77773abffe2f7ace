import Formula.Proofs.Parse.Sound

/-!
# What can be derived is read

A reader stops where it should only if the token behind a phrase cannot go on with it; `Follows`
says which tokens can stand there.  The operators of one level join from the left, so the reader of
a level is not finished with its first operand when the derivation is: `Phrase.Read` says where the
reader is then.
-/

namespace Formula

namespace Lexeme

/-- Whether an operand without a sign can start with a token. -/
def startsAtom : Lexeme → Bool
  | literal _ | name _ | opening _ => true
  | _ => false

/-- Whether an operand can start with a token. -/
def startsOperand : Lexeme → Bool
  | operator (.arithmetic .add) _ | operator (.arithmetic .subtract) _ => true
  | l => l.startsAtom

/-- Whether a token closes a bracket. -/
def isClosing : Lexeme → Bool
  | closing _ => true
  | _ => false

/-- Whether a token opens a bracket. -/
def isOpening : Lexeme → Bool
  | opening _ => true
  | _ => false

/-- Whether a token can follow operands that are joined by operators up to some looseness. -/
def Follows (looseness : Nat) : Lexeme → Prop
  | operator op _ => looseness < op.looseness
  | closing _ | separator _ | finish => True
  | _ => False

/-- What starts an operand without a sign starts an operand. -/
theorem startsOperand_of_startsAtom {l : Lexeme} (h : l.startsAtom = true) :
    l.startsOperand = true := by
  cases l with
  | literal | name | opening => rfl
  | operator | closing | period | separator | finish => cases h

/-- An operand does not start with a closing bracket. -/
theorem isClosing_of_startsOperand {l : Lexeme} (h : l.startsOperand = true) :
    l.isClosing = false := by
  cases l with
  | closing => cases h
  | _ => rfl

/-- What can follow loosely joined operands can follow those that are joined more closely. -/
theorem Follows.mono {k k' : Nat} {l : Lexeme} (h : l.Follows k) (hle : k' ≤ k) : l.Follows k' := by
  cases l with
  | operator op => exact Nat.lt_of_le_of_lt hle h
  | closing | separator | finish => trivial
  | opening | period | literal | name => exact h

/-- What can follow operands opens no bracket. -/
theorem Follows.isOpening_eq_false {k : Nat} {l : Lexeme} (h : l.Follows k) :
    l.isOpening = false := by
  cases l with
  | opening => exact h.elim
  | _ => rfl

end Lexeme

namespace Parse

/-! ## Where phrases start -/

/-- With what tokens a phrase starts. -/
def Phrase.Starts : Phrase → List Token → Prop
  | .atom _, ts => ∃ t us, ts = t :: us ∧ t.lexeme.startsAtom = true
  | .upTo _ _, ts | .items _, ts => ∃ t us, ts = t :: us ∧ t.lexeme.startsOperand = true
  | .listIf _ _ _, _ | .steps _ _, _ => True

/-- Each phrase starts as it should, by induction on the derivation. -/
theorem Derives.starts {names : Names} {source : List Char} {p : Phrase} {n n' : Nat}
    {ts : List Token} (h : Derives names source p n ts n') : p.Starts ts := by
  induction h with
  | operand _ ih | lastItem _ ih => exact ih
  | joined _ _ _ _ ih | item _ _ _ ih =>
    obtain ⟨t, us, rfl, ht⟩ := ih
    exact ⟨t, _, List.cons_append, ht⟩
  | @signed op _ _ _ _ _ _ ht => exact ⟨_, _, rfl, by rw [ht]; cases op <;> rfl⟩
  | unsigned _ ih =>
    obtain ⟨t, us, rfl, ht⟩ := ih
    exact ⟨t, us, rfl, Lexeme.startsOperand_of_startsAtom ht⟩
  | literal ht | group ht | call ht | var ht | external ht | path ht =>
    exact ⟨_, _, rfl, by rw [ht]; rfl⟩
  | noList | emptyList | list | lastStep | step => trivial

/-! ## Passing tokens -/

namespace Passes

variable {c c' : Cursor} {t : Token} {ts us : List Token}

/-- Between a place and itself lie no tokens. -/
theorem eq_of_nil (h : Passes c [] c') (hn : c.nextId = c'.nextId) : c = c' := by
  obtain ⟨htokens, hpassed⟩ := h
  obtain ⟨current, rest, passed, nextId⟩ := c
  obtain ⟨current', rest', passed', nextId'⟩ := c'
  simp only [List.nil_append, List.cons.injEq] at htokens
  obtain ⟨rfl, rfl⟩ := htokens
  obtain rfl : nextId = nextId' := hn
  obtain rfl : passed' = passed := hpassed
  rfl

/-- Where a token lies ahead, it is the current one, and passing it leads to the next. -/
theorem exists_pass (input : Input) (h : Passes c (t :: us) c') : c.current = t ∧
    ∃ c₁, pass input c = .ok c₁ ∧ Passes c₁ us c' ∧ c₁.nextId = c.nextId := by
  obtain ⟨htokens, hpassed⟩ := h
  rw [List.cons_append, List.cons.injEq] at htokens
  obtain ⟨hcurrent, hrest⟩ := htokens
  refine ⟨hcurrent, ?_⟩
  cases us with
  | nil => exact ⟨_, pass_cons hrest, ⟨rfl, by rw [hcurrent]; exact hpassed⟩, rfl⟩
  | cons u us => exact ⟨_, pass_cons hrest, ⟨rfl, by rw [hcurrent]; exact hpassed⟩, rfl⟩

/-- The place between some tokens and others, with any number. -/
theorem exists_between (n : Nat) (h : Passes c (ts ++ us) c') :
    ∃ c₁, Passes c ts c₁ ∧ Passes c₁ us c' ∧ c₁.nextId = n := by
  obtain ⟨htokens, hpassed⟩ := h
  rw [stopAfter_append] at hpassed
  cases us with
  | nil =>
    rw [List.append_nil] at htokens
    exact ⟨⟨c'.current, c'.rest, c'.passed, n⟩, ⟨htokens, hpassed⟩, ⟨rfl, rfl⟩, rfl⟩
  | cons u us =>
    rw [List.append_assoc] at htokens
    exact ⟨⟨u, us ++ c'.current :: c'.rest, stopAfter c.passed ts, n⟩, ⟨htokens, rfl⟩,
      ⟨rfl, hpassed⟩, rfl⟩

end Passes

/-! ## The current token -/

/-- A token that can follow operands up to level `k` is no operator of this level. -/
theorem operatorAt?_of_follows {k : Nat} {c : Cursor} (h : c.current.lexeme.Follows k) :
    operatorAt? k c = none := by
  rw [operatorAt?]
  cases hl : c.current.lexeme with
  | operator op =>
    rw [hl] at h
    exact if_neg (Nat.ne_of_gt h)
  | _ => rfl

theorem operatorAt?_of_operator {k : Nat} {c : Cursor} {op : BinaryOp} {written : String}
    (h : c.current.lexeme = .operator op written) (hk : op.looseness = k) :
    operatorAt? k c = some op := by
  rw [operatorAt?, h]
  exact if_pos hk

/-- What starts an operand without a sign is none. -/
theorem signAt?_of_startsAtom {c : Cursor} (h : c.current.lexeme.startsAtom = true) :
    signAt? c = none := by
  rw [signAt?]
  cases hl : c.current.lexeme with
  | operator op => rw [hl] at h; cases h
  | _ => rfl

theorem signAt?_of_sign {c : Cursor} {op : UnaryOp} {written : String}
    (h : c.current.lexeme = .operator op.asBinary written) : signAt? c = some op := by
  rw [signAt?, h]
  cases op <;> rfl

theorem closes_of_closing {c : Cursor} {b : Bracket} (h : c.current.lexeme = .closing b) :
    closes b c = true := by
  rw [closes, h]
  exact decide_eq_true rfl

/-- A bracket is not closed by a token that closes none. -/
theorem closes_eq_false {c : Cursor} {b : Bracket} (h : c.current.lexeme.isClosing = false) :
    closes b c = false := by
  rw [closes]
  cases hl : c.current.lexeme with
  | closing other => rw [hl] at h; cases h
  | _ => rfl

theorem opens?_of_opening {c : Cursor} {b : Bracket} (h : c.current.lexeme = .opening b) :
    opens? c = some b := by
  rw [opens?, h]

/-- A list is not opened by a token that opens no bracket. -/
theorem opens?_eq_none {c : Cursor} (h : c.current.lexeme.isOpening = false) :
    opens? c = none := by
  rw [opens?]
  cases hl : c.current.lexeme with
  | opening b => rw [hl] at h; cases h
  | _ => rfl

/-! ## Completeness -/

/-- What the reader of a phrase does at some place, if the phrase ends at another. -/
def Phrase.Read (input : Input) (c c' : Cursor) : Phrase → Prop
  | .upTo 0 e => c'.current.lexeme.Follows 0 → readSigned input c = .ok (e, c')
  -- `e` can still be the first operand of an operator of this level.
  | .upTo (k + 1) e => c'.current.lexeme.Follows k →
      readUpTo input (k + 1) c = readJoined input k e c'
  | .atom e => c'.current.lexeme.Follows 0 → readAtom input c = .ok (e, c')
  | .listIf wanted listed es => c'.current.lexeme.isOpening = false →
      (opens? c).any wanted = listed ∧ readList input wanted c = .ok (es, c')
  | .items es => ∀ b c'', c'.current.lexeme = .closing b → pass input c' = .ok c'' →
      readItems input b c = .ok (es, c'')
  | .steps s read => c'.current.lexeme.Follows 0 → readSteps input s c = .ok (read, c')

/-- Once a token stands behind it that can follow, a phrase of any level is read. -/
theorem Phrase.Read.upTo {input : Input} {c c' : Cursor} {k : Nat} {e : Expr}
    (h : (Phrase.upTo k e).Read input c c') (hf : c'.current.lexeme.Follows k) :
    readUpTo input k c = .ok (e, c') := by
  cases k with
  | zero =>
    rw [readUpTo_zero]
    exact h hf
  | succ k =>
    rw [h (hf.mono (Nat.le_succ k))]
    exact readJoined_none (operatorAt?_of_follows hf)

/-- Whether the reader of a phrase reads it wherever some tokens stand. -/
def Phrase.IsRead (input : Input) (p : Phrase) (n : Nat) (ts : List Token) (n' : Nat) : Prop :=
  ∀ c c', Passes c ts c' → c.nextId = n → c'.nextId = n' → p.Read input c c'

namespace Phrase.IsRead

variable {input : Input} {k n n' n₁ n₂ n₃ : Nat} {ts us : List Token} {t t' : Token} {b : Bracket}
  {s s' : String} {wanted : Bracket → Bool} {listed : Bool} {e l r : Expr} {es : List Expr}
  {steps : List (Step Expr)}

/-! ### Operators -/

/-- An operand of a closer level is one of a looser level to begin with. -/
theorem operand (h : IsRead input (.upTo k e) n ts n') :
    IsRead input (.upTo (k + 1) e) n ts n' := by
  intro c c' hp hn hn' hf
  rw [readUpTo_succ, (h c c' hp hn hn').upTo hf]
  rfl

/-- The operand read so far becomes the left one of the operator that follows, and is not
finished. -/
theorem joined {op : BinaryOp} {written : String} (hl : IsRead input (.upTo (k + 1) l) n₁ ts n₂)
    (ht : t.lexeme = .operator op written) (hk : op.looseness = k + 1)
    (hr : IsRead input (.upTo k r) n₂ us n₃) :
    IsRead input (.upTo (k + 1) (.binary op l r)) n₁ (ts ++ t :: us) n₃ := by
  intro c c' hp hn hn' hf
  obtain ⟨c₁, hp₁, hp₂, hn₁⟩ := hp.exists_between n₂
  obtain ⟨hcurrent, c₂, hpass, hp₃, hn₂⟩ := hp₂.exists_pass input
  rw [← hcurrent] at ht
  -- The operator that follows has the looseness of the level, so the left operand can end there.
  have hleft := hl c c₁ hp₁ hn hn₁ (by rw [ht]; exact Nat.lt_of_lt_of_eq k.lt_succ_self hk.symm)
  have hright := (hr c₂ c' hp₃ (hn₂.trans hn₁) hn').upTo hf
  rw [hleft, readJoined_some (operatorAt?_of_operator ht hk), hpass]
  show (readUpTo input k c₂ >>= _) = _
  rw [hright]
  rfl

/-- A sign is passed before the operand that it stands before. -/
theorem signed {op : UnaryOp} {written : String} (ht : t.lexeme = .operator op.asBinary written)
    (h : IsRead input (.upTo 0 e) n ts n') :
    IsRead input (.upTo 0 (.unary op e)) n (t :: ts) n' := by
  intro c c' hp hn hn' hf
  obtain ⟨hcurrent, c₁, hpass, hp₁, hn₁⟩ := hp.exists_pass input
  rw [← hcurrent] at ht
  have hoperand := h c₁ c' hp₁ (hn₁.trans hn) hn' hf
  rw [readSigned_some (signAt?_of_sign ht), hpass]
  show (readSigned input c₁ >>= _) = _
  rw [hoperand]
  rfl

/-- What starts without a sign is read as an atom. -/
theorem unsigned (hstarts : (Phrase.atom e).Starts ts) (h : IsRead input (.atom e) n ts n') :
    IsRead input (.upTo 0 e) n ts n' := by
  intro c c' hp hn hn' hf
  obtain ⟨t, us, rfl, ht⟩ := hstarts
  have hcurrent := (hp.exists_pass input).1
  rw [← hcurrent] at ht
  rw [readSigned_none (signAt?_of_startsAtom ht)]
  exact h c c' hp hn hn' hf

/-! ### Operands -/

/-- A literal is read by passing its token. -/
theorem literal {v : Value} (ht : t.lexeme = .literal v) :
    IsRead input (.atom (.literal v)) n [t] n := by
  intro c c' hp hn hn' _
  obtain ⟨hcurrent, c₁, hpass, hp₁, hn₁⟩ := hp.exists_pass input
  rw [← hcurrent] at ht
  rw [readAtom_literal ht, hpass, hp₁.eq_of_nil (by rw [hn₁, hn, hn'])]
  rfl

/-- What stands in brackets is read up to the closing one, whatever operators it has. -/
theorem group (ht : t.lexeme = .opening b) (h : IsRead input (.upTo 5 e) n ts n')
    (ht' : t'.lexeme = .closing b) : IsRead input (.atom e) n (t :: ts ++ [t']) n' := by
  intro c c' hp hn hn' _
  obtain ⟨hcurrent, c₁, hpass, hp₁, hn₁⟩ := hp.exists_pass input
  obtain ⟨c₂, hp₂, hp₃, hn₂⟩ := hp₁.exists_between n'
  obtain ⟨hcurrent₂, c₃, hpass₃, hp₄, hn₃⟩ := hp₃.exists_pass input
  rw [← hcurrent] at ht
  rw [← hcurrent₂] at ht'
  have hread := (h c₁ c₂ hp₂ (hn₁.trans hn) hn₂).upTo (by rw [ht']; trivial)
  rw [readAtom_opening ht, hpass]
  show (readUpTo input 5 c₁ >>= _) = _
  rw [hread]
  show (if closes b c₂ then _ else _) = _
  rw [closes_of_closing ht', if_pos rfl, hpass₃, hp₄.eq_of_nil (by rw [hn₃, hn₂, hn'])]
  rfl

/-- The name of a function is read as a call, which takes its number before its arguments do. -/
theorem call {f : FunctionDef} (ht : t.lexeme = .name s) (hf : input.names.function? s = some f)
    (h : IsRead input (.listIf (· = .round) listed es) (n + 1) ts n')
    (harity : f.arity.accepts es.length = true) :
    IsRead input (.atom (.call n f es)) n (t :: ts) n' := by
  intro c c' hp hn hn' hfollows
  obtain ⟨hcurrent, c₁, hpass, hp₁, hn₁⟩ := hp.exists_pass input
  rw [← hcurrent] at ht
  have hlist := h (c₁.numbered n) c' hp₁.to_numbered rfl hn' hfollows.isOpening_eq_false
  rw [readAtom_name ht, readNamed_function hf, hpass, hn]
  show (readList input _ (c₁.numbered n) >>= _) = _
  rw [hlist.2]
  show (f.checkArity es.length >>= _) = _
  rw [FunctionDef.checkArity, if_pos harity]
  rfl

/-- A name that is no function, but a variable, takes its number and then its index, if it has
one. -/
theorem var (ht : t.lexeme = .name s) (hf : input.names.function? s = none)
    (hv : input.names.isVariable s = true)
    (h : IsRead input (.listIf (· = .square) listed es) (n + 1) ts n') :
    IsRead input (.atom (.var n s es)) n (t :: ts) n' := by
  intro c c' hp hn hn' hfollows
  obtain ⟨hcurrent, c₁, hpass, hp₁, hn₁⟩ := hp.exists_pass input
  rw [← hcurrent] at ht
  have hlist := h (c₁.numbered n) c' hp₁.to_numbered rfl hn' hfollows.isOpening_eq_false
  rw [readAtom_name ht, readNamed_variable hf hv, hpass, hn]
  show (readList input _ (c₁.numbered n) >>= _) = _
  rw [hlist.2]
  rfl

/-- A name that is neither, but an object from outside, is read as its value. -/
theorem external {v : Value} (ht : t.lexeme = .name s) (hf : input.names.function? s = none)
    (hv : input.names.isVariable s = false) (hx : input.names.external? s = some v) :
    IsRead input (.atom (.literal v)) n [t] n := by
  intro c c' hp hn hn' _
  obtain ⟨hcurrent, c₁, hpass, hp₁, hn₁⟩ := hp.exists_pass input
  rw [← hcurrent] at ht
  rw [readAtom_name ht, readNamed_external hf hv hx, hpass, hp₁.eq_of_nil (by rw [hn₁, hn, hn'])]
  rfl

/-- Any other name starts a path, if paths may start with it; the text of the path is that of the
tokens passed. -/
theorem path (ht : t.lexeme = .name s) (hf : input.names.function? s = none)
    (hv : input.names.isVariable s = false) (hx : input.names.external? s = none)
    (hstarts : input.names.startsPath s = true)
    (h : IsRead input (.steps s steps) (n + 1) ts n') :
    IsRead input (.atom (.path n steps (pathText input.source t ts))) n (t :: ts) n' := by
  intro c c' hp hn hn' hfollows
  obtain ⟨hcurrent, c₁, hpass, hp₁, hn₁⟩ := hp.exists_pass input
  have hread := h (c₁.numbered n) c' hp₁.to_numbered rfl hn' hfollows
  rw [readAtom_name (hcurrent ▸ ht), readNamed_path hf hv hx hstarts, hpass, hn]
  show (readSteps input s (c₁.numbered n) >>= _) = _
  rw [hread, pathText, ← hcurrent]
  show Except.ok _ = _
  -- The text ends where the last token of the path does.
  rw [hp.passed, ← hcurrent]
  rfl

/-! ### Lists -/

/-- A list that is not written is read as none. -/
theorem noList : IsRead input (.listIf wanted false []) n [] n := by
  intro c c' hp hn hn' hopening
  obtain rfl := hp.eq_of_nil (hn.trans hn'.symm)
  have hany : (opens? c).any wanted = false := by simp [opens?_eq_none hopening]
  exact ⟨hany, readList_none hany⟩

/-- Brackets with nothing between them are an empty list. -/
theorem emptyList (ht : t.lexeme = .opening b) (hwanted : wanted b = true)
    (ht' : t'.lexeme = .closing b) : IsRead input (.listIf wanted true []) n [t, t'] n := by
  intro c c' hp hn hn' _
  obtain ⟨hcurrent, c₁, hpass, hp₁, hn₁⟩ := hp.exists_pass input
  obtain ⟨hcurrent₁, c₂, hpass₂, hp₂, hn₂⟩ := hp₁.exists_pass input
  rw [← hcurrent] at ht
  rw [← hcurrent₁] at ht'
  refine ⟨by simp [opens?_of_opening ht, hwanted], ?_⟩
  rw [readList_some (opens?_of_opening ht) hwanted, hpass]
  show (if closes b c₁ then _ else _) = _
  rw [closes_of_closing ht', if_pos rfl, hpass₂, hp₂.eq_of_nil (by rw [hn₂, hn₁, hn, hn'])]
  rfl

/-- A list is read item by item up to its closing bracket. -/
theorem list (ht : t.lexeme = .opening b) (hwanted : wanted b = true)
    (hstarts : (Phrase.items es).Starts ts) (h : IsRead input (.items es) n ts n')
    (ht' : t'.lexeme = .closing b) :
    IsRead input (.listIf wanted true es) n (t :: ts ++ [t']) n' := by
  intro c c' hp hn hn' _
  obtain ⟨hcurrent, c₁, hpass, hp₁, hn₁⟩ := hp.exists_pass input
  obtain ⟨c₂, hp₂, hp₃, hn₂⟩ := hp₁.exists_between n'
  obtain ⟨hcurrent₂, c₃, hpass₃, hp₄, hn₃⟩ := hp₃.exists_pass input
  obtain rfl := hp₄.eq_of_nil (by rw [hn₃, hn₂, hn'])
  obtain ⟨u, us, rfl, hu⟩ := hstarts
  have hcurrent₁ := (hp₂.exists_pass input).1
  rw [← hcurrent] at ht
  rw [← hcurrent₁] at hu
  rw [← hcurrent₂] at ht'
  refine ⟨by simp [opens?_of_opening ht, hwanted], ?_⟩
  rw [readList_some (opens?_of_opening ht) hwanted, hpass]
  show (if closes b c₁ then _ else _) = _
  -- An item starts here, so the list is not empty.
  rw [closes_eq_false (Lexeme.isClosing_of_startsOperand hu), if_neg Bool.false_ne_true]
  exact h c₁ c₂ hp₂ (hn₁.trans hn) hn₂ b c₃ ht' hpass₃

/-- The last item of a list ends at the closing bracket. -/
theorem lastItem (h : IsRead input (.upTo 5 e) n ts n') : IsRead input (.items [e]) n ts n' := by
  intro c c' hp hn hn' b c'' ht hpass
  have hread := (h c c' hp hn hn').upTo (by rw [ht]; trivial)
  rw [readItems_eq, hread]
  dsimp only [bind, Except.bind]
  rw [ht]
  show (if b = b then _ else _) = _
  rw [if_pos rfl, hpass]
  rfl

/-- An item ends at the separator, behind which the others are read. -/
theorem item {separator : Char} (h : IsRead input (.upTo 5 e) n₁ ts n₂)
    (ht : t.lexeme = .separator separator) (hes : IsRead input (.items es) n₂ us n₃) :
    IsRead input (.items (e :: es)) n₁ (ts ++ t :: us) n₃ := by
  intro c c' hp hn hn' b c'' ht' hpass'
  obtain ⟨c₁, hp₁, hp₂, hn₁⟩ := hp.exists_between n₂
  obtain ⟨hcurrent, c₂, hpass, hp₃, hn₂⟩ := hp₂.exists_pass input
  rw [← hcurrent] at ht
  have hread := (h c c₁ hp₁ hn hn₁).upTo (by rw [ht]; trivial)
  have hrest := hes c₂ c' hp₃ (hn₂.trans hn₁) hn' b c'' ht' hpass'
  rw [readItems_eq, hread]
  dsimp only [bind, Except.bind]
  rw [ht]
  show (pass input c₁ >>= _) = _
  rw [hpass]
  show (readItems input b c₂ >>= _) = _
  rw [hrest]
  rfl

/-! ### Paths -/

/-- The last step of a path ends where no period follows. -/
theorem lastStep (h : IsRead input (.listIf Bracket.holdsKeys listed es) n ts n') :
    IsRead input (.steps s [⟨s, listed, es⟩]) n ts n' := by
  intro c c' hp hn hn' hf
  have hlist := h c c' hp hn hn' hf.isOpening_eq_false
  rw [readSteps_eq]
  show (readList input Bracket.holdsKeys c >>= _) = _
  rw [hlist.2]
  dsimp only [bind, Except.bind]
  cases hl : c'.current.lexeme with
  | period =>
    rw [hl] at hf
    exact hf.elim
  | _ =>
    rw [← hlist.1]
    rfl

/-- Behind a period the name of the next step is passed. -/
theorem step (h : IsRead input (.listIf Bracket.holdsKeys listed es) n₁ ts n₂)
    (ht : t.lexeme = .period) (ht' : t'.lexeme = .name s')
    (hsteps : IsRead input (.steps s' steps) n₂ us n₃) :
    IsRead input (.steps s (⟨s, listed, es⟩ :: steps)) n₁ (ts ++ t :: t' :: us) n₃ := by
  intro c c' hp hn hn' hf
  obtain ⟨c₁, hp₁, hp₂, hn₁⟩ := hp.exists_between n₂
  obtain ⟨hcurrent₁, c₂, hpass₂, hp₃, hn₂⟩ := hp₂.exists_pass input
  obtain ⟨hcurrent₂, c₃, hpass₃, hp₄, hn₃⟩ := hp₃.exists_pass input
  rw [← hcurrent₁] at ht
  rw [← hcurrent₂] at ht'
  have hlist := h c c₁ hp₁ hn hn₁ (by rw [ht]; rfl)
  have hrest := hsteps c₃ c' hp₄ (by rw [hn₃, hn₂, hn₁]) hn' hf
  rw [readSteps_eq]
  show (readList input Bracket.holdsKeys c >>= _) = _
  rw [hlist.2]
  dsimp only [bind, Except.bind]
  rw [ht]
  show (pass input c₁ >>= _) = _
  rw [hpass₂]
  dsimp only [bind, Except.bind]
  rw [ht']
  show (pass input c₂ >>= _) = _
  rw [hpass₃]
  show (readSteps input s' c₃ >>= _) = _
  rw [hrest, ← hlist.1]
  rfl

end Phrase.IsRead

/-! ### All phrases -/

/-- Every reader reads what can be derived from the tokens ahead. -/
theorem Derives.read {input : Input} {p : Phrase} {n n' : Nat} {ts : List Token}
    (h : Derives input.names input.source p n ts n') : p.IsRead input n ts n' := by
  induction h with
  | operand _ ih => exact ih.operand
  | joined _ ht hk _ ihl ihr => exact ihl.joined ht hk ihr
  | signed ht _ ih => exact ih.signed ht
  | unsigned h ih => exact ih.unsigned h.starts
  | literal ht => exact .literal ht
  | group ht _ ht' ih => exact .group ht ih ht'
  | call ht hf _ harity ih => exact .call ht hf ih harity
  | var ht hf hv _ ih => exact .var ht hf hv ih
  | external ht hf hv hx => exact .external ht hf hv hx
  | path ht hf hv hx hstarts _ ih => exact .path ht hf hv hx hstarts ih
  | noList => exact .noList
  | emptyList ht hwanted ht' => exact .emptyList ht hwanted ht'
  | list ht hwanted h ht' ih => exact .list ht hwanted h.starts ih ht'
  | lastItem _ ih => exact ih.lastItem
  | item _ ht _ ihe ihes => exact ihe.item ht ihes
  | lastStep _ ih => exact ih.lastStep
  | step _ ht ht' _ ihkeys ihsteps => exact ihkeys.step ht ht' ihsteps

end Parse

end Formula
