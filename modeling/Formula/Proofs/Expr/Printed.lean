import Formula.Expr.Text
import Formula.Proofs.Parse.Moved
import Formula.Proofs.Token.Literals

/-!
# Printed expressions

`Parse.Prints` says that a text is a phrase wherever it stands before the end of a token: it is cut
into tokens of its own, and these derive the phrase.  A text put together from those of the parts of
an expression is that expression, at the level of its operator, if they are those parts.
-/

namespace Formula

/-- How loosely the parts of an expression are joined; 0 without a binary operator. -/
def Expr.looseness : Expr → Nat
  | binary op _ _ => op.looseness
  | _ => 0

theorem BinaryOp.looseness_mem (op : BinaryOp) : 1 ≤ op.looseness ∧ op.looseness ≤ 5 := by
  rw [BinaryOp.looseness.eq_def]
  split <;> decide

/-- No operator joins its parts more loosely than level 5. -/
theorem Expr.looseness_le (e : Expr) : e.looseness ≤ 5 := by
  cases e with
  | binary op => exact op.looseness_mem.2
  | _ => exact Nat.zero_le 5

/-- What is not an operator between two parts is not joined loosely. -/
theorem Expr.looseness_of_not_isBinary {e : Expr} (h : e.isBinary = false) : e.looseness = 0 := by
  cases e with
  | binary => cases h
  | _ => rfl

namespace Parse

variable {names : Names} {source : List Char} {n n' : Nat} {ts : List Token}

/-- Operands of a tight level are also those of a looser one. -/
theorem Derives.loosen {e : Expr} {k k' : Nat} (h : Derives names source (.upTo k e) n ts n')
    (hle : k ≤ k') : Derives names source (.upTo k' e) n ts n' := by
  induction hle with
  | refl => exact h
  | step _ ih => exact ih.operand

/-- Whether a text is a phrase wherever it stands before the end of a token. -/
def Prints (s : Spelling) (names : Names) (u : List Char) (p : Phrase) (n n' : Nat) : Prop :=
  ∀ source x v, source = x ++ u ++ v → EndsToken s v → ∃ ts endsLiteral,
    Scans s false x.length u v ts endsLiteral ∧ Derives names source p n ts n'

/-- Whether a text is the items of a list, if there are any. -/
def PrintsList (s : Spelling) (names : Names) (u : List Char) : List Expr → Nat → Nat → Prop
  | [], n, n' => u = [] ∧ n = n'
  | e :: es, n, n' => Prints s names u (.items (e :: es)) n n'

namespace Prints

variable {s : Spelling} {e l r : Expr} {n₁ n₂ n₃ : Nat} {u w : List Char} {p : Phrase}

/-- What stands at a level stands at every looser one. -/
theorem loosen {k k' : Nat} (h : Prints s names u (.upTo k e) n n') (hle : k ≤ k') :
    Prints s names u (.upTo k' e) n n' := by
  intro source x v hsource hv
  obtain ⟨ts, endsLiteral, hscans, hderives⟩ := h source x v hsource hv
  exact ⟨ts, endsLiteral, hscans, hderives.loosen hle⟩

/-- What needs no sign stands where one may be. -/
theorem unsigned (h : Prints s names u (.atom e) n n') : Prints s names u (.upTo 0 e) n n' := by
  intro source x v hsource hv
  obtain ⟨ts, endsLiteral, hscans, hderives⟩ := h source x v hsource hv
  exact ⟨ts, endsLiteral, hscans, hderives.unsigned⟩

/-- An expression alone is a list of one item. -/
theorem lastItem (h : Prints s names u (.upTo e.looseness e) n n') :
    Prints s names u (.items [e]) n n' := by
  intro source x v hsource hv
  obtain ⟨ts, endsLiteral, hscans, hderives⟩ := h source x v hsource hv
  exact ⟨ts, endsLiteral, hscans, .lastItem (hderives.loosen e.looseness_le)⟩

/-- A name and what is written behind it. -/
theorem named {name : String} (hname : s.Reads name) {q : Phrase} {m : Nat}
    (hu : ∀ v, EndsToken s v → EndsToken s (u ++ v)) (h : Prints s names u p m n')
    (hq : ∀ {source t ts}, t.lexeme = .name name → Derives names source p m ts n' →
      Derives names source q n (t :: ts) n') : Prints s names (name.toList ++ u) q n n' := by
  intro source x v hsource hv
  obtain ⟨ts, endsLiteral, hscans, hderives⟩ := h source (x ++ name.toList) v (by simp [hsource]) hv
  rw [List.length_append, String.length_toList] at hscans
  obtain ⟨t, ht, hnamed⟩ := Scans.named hname (hu v hv) hscans
  exact ⟨t :: ts, endsLiteral, hnamed, hq ht hderives⟩

/-- A variable without an index. -/
theorem var {name : String} (hname : s.Reads name) (hf : names.function? name = none)
    (hvar : names.isVariable name = true) :
    Prints s names name.toList (.upTo 0 (.var n name [])) n (n + 1) := by
  have hnone : Prints s names [] (.listIf (· = .square) false []) (n + 1) (n + 1) :=
    fun _ _ _ _ _ => ⟨[], false, .nil, .noList⟩
  have hall : Prints s names (name.toList ++ []) (.upTo 0 (.var n name [])) n (n + 1) :=
    hnone.named hname (fun _ hv => hv) fun ht hindex => .unsigned (.var ht hf hvar hindex)
  rwa [List.append_nil] at hall

/-- The text of a path is a part of its source, which is the same path wherever it stands. -/
theorem path {t : Token} {steps : List (Step Expr)} {text : String}
    (h : Derives names source (.atom (.path n steps text)) n (t :: ts) n')
    (htext : text = pathText source t ts) (ht : t.lexeme.isName = true)
    (hpart : t :: ts <:+: (scan s source).tokens) :
    Prints s names text.toList (.upTo 0 (.path n steps text)) n n' := by
  obtain ⟨x, u, y, endsLiteral, rfl, hu, hscans⟩ := exists_part hpart ht h.endsOperand
  rintro _ x' v rfl hv
  rw [htext, hu, String.toList_ofList]
  have hmoved := hscans.move x'.length hv (Nat.le_refl _)
  rw [Nat.sub_self, Nat.zero_add] at hmoved
  rw [htext, hu] at h
  exact ⟨_, endsLiteral, hmoved, .unsigned (h.moved hscans.bounds)⟩

/-! ## Texts with marks

Between the parts stand the marks of the printed form, which set them off. -/

variable (hs : s.Clear)
include hs

/-- A literal is printed as a text that is read back as it. -/
theorem literal {v : Value} (h : v.ReadsBack) :
    Prints s names v.literalText.toList (.upTo 0 (.literal v)) n n := by
  intro source x w _ hw
  obtain ⟨t, ht, hscans⟩ := Scans.literal hs.culture hw h
  exact ⟨[t], true, hscans, .unsigned (.literal ht)⟩

/-- Brackets make an atom of an expression of any level. -/
theorem inBrackets (h : Prints s names u (.upTo 5 e) n n') :
    Prints s names ('(' :: (u ++ [')'])) (.atom e) n n' := by
  intro source x v hsource hv
  obtain ⟨ts, endsLiteral, hscans, hderives⟩ := h source (x ++ ['(']) (')' :: v)
    (by simpa using hsource) (.cons (hs.setsOff (by decide)))
  rw [List.length_append] at hscans
  obtain ⟨t, t', ht, ht', henclosed⟩ := Scans.enclosed (b := .round) hs.culture (by decide) hscans
  exact ⟨t :: ts ++ [t'], false, henclosed, .group ht hderives ht'⟩

/-- An operand is in brackets if it needs them. -/
theorem bracketed {text : String} (h : Prints s names text.toList (.upTo e.looseness e) n n') :
    Prints s names (e.bracketed text).toList (.upTo 0 e) n n' := by
  rw [Expr.bracketed]
  split
  · have htext : ("(" ++ text ++ ")").toList = '(' :: (text.toList ++ [')']) := by simp
    rw [htext]
    exact ((h.loosen e.looseness_le).inBrackets hs).unsigned
  · next hbinary =>
    rw [Bool.not_eq_true] at hbinary
    rwa [Expr.looseness_of_not_isBinary hbinary] at h

/-- A sign before a text is an operator on its expression. -/
theorem unary {op : UnaryOp} (h : Prints s names u (.upTo 0 e) n n') :
    Prints s names (op.symbol.toList ++ u) (.upTo 0 (.unary op e)) n n' := by
  intro source x v hsource hv
  have hsign : op.symbol.toList.length = 1 := by cases op <;> rfl
  obtain ⟨ts, endsLiteral, hscans, hderives⟩ := h source (x ++ op.symbol.toList) v
    (by simp [hsource]) hv
  rw [List.length_append, hsign] at hscans
  obtain ⟨t, written, ht, hsigned⟩ := Scans.signed hs.culture op hscans
  exact ⟨t :: ts, endsLiteral, hsigned, .signed ht hderives⟩

/-- Two operands with the symbol between them are the operator at its level: each operand is at
level 0, so nothing is joined across them. -/
theorem binary {op : BinaryOp} (hl : Prints s names u (.upTo 0 l) n₁ n₂)
    (hr : Prints s names w (.upTo 0 r) n₂ n₃) :
    Prints s names (u ++ ' ' :: (op.symbol.toList ++ ' ' :: w))
      (.upTo op.looseness (.binary op l r)) n₁ n₃ := by
  intro source x v hsource hv
  obtain ⟨k, hk⟩ := Nat.exists_eq_add_of_le' op.looseness_mem.1
  obtain ⟨ts, middle, hscans, hderives⟩ := hl source x (' ' :: (op.symbol.toList ++ ' ' :: w) ++ v)
    (by simp [hsource]) (.cons (hs.setsOff (by decide)))
  obtain ⟨us, endsLiteral, hscans', hderives'⟩ := hr source
    (x ++ u ++ ' ' :: (op.symbol.toList ++ [' '])) v (by simp [hsource]) hv
  -- The operator stands with a blank on either side between the two operands.
  obtain ⟨t', us', rfl, -⟩ := hderives'.starts
  have hlength : (x ++ u ++ ' ' :: (op.symbol.toList ++ [' '])).length =
      x.length + u.length + op.symbol.length + 2 := by
    simp only [List.length_append, List.length_cons, List.length_nil, String.length_toList]
    omega
  rw [hlength] at hscans'
  obtain ⟨t, written, ht, hjoined⟩ :=
    Scans.joined hs.culture op (List.cons_ne_nil t' us') hscans hscans'
  refine ⟨ts ++ t :: t' :: us', endsLiteral, hjoined, ?_⟩
  rw [hk]
  exact .joined (hderives.loosen (Nat.zero_le _)) ht hk (hderives'.loosen (Nat.zero_le _))

/-- An item with a comma behind it is the first of a list. -/
theorem item {es : List Expr} (h : Prints s names u (.upTo e.looseness e) n₁ n₂)
    (h' : Prints s names w (.items es) n₂ n₃) :
    Prints s names (u ++ ',' :: ' ' :: w) (.items (e :: es)) n₁ n₃ := by
  intro source x v hsource hv
  obtain ⟨ts, middle, hscans, hderives⟩ := h source x (',' :: ' ' :: w ++ v)
    (by simp [hsource]) (.cons (hs.setsOff (by decide)))
  obtain ⟨us, endsLiteral, hscans', hderives'⟩ := h' source (x ++ u ++ [',', ' ']) v
    (by simp [hsource]) hv
  obtain ⟨t', us', rfl, -⟩ := hderives'.starts
  rw [List.length_append, List.length_append] at hscans'
  obtain ⟨t, ht, hseparated⟩ :=
    Scans.separated hs.culture (List.cons_ne_nil t' us') hscans hscans'
  exact ⟨ts ++ t :: t' :: us', endsLiteral, hseparated,
    .item (hderives.loosen e.looseness_le) ht hderives'⟩

/-- Items in brackets of a sort that is wanted. -/
theorem list {es : List Expr} {b : Bracket} {wanted : Bracket → Bool} (hb : b ≠ .curly)
    (hwanted : wanted b = true) (h : PrintsList s names u es n n') :
    Prints s names (b.opening :: (u ++ [b.closing])) (.listIf wanted true es) n n' := by
  intro source x v hsource hv
  have hends : EndsToken s (b.closing :: v) := by
    cases b with
    | round | square => exact .cons (hs.setsOff (by decide))
    | curly => exact absurd rfl hb
  cases es with
  | nil =>
    obtain ⟨rfl, rfl⟩ : u = [] ∧ n = n' := h
    obtain ⟨t, t', ht, ht', henclosed⟩ :=
      @Scans.enclosed s false false x.length [] v [] hs.culture b hb .nil
    exact ⟨[t, t'], false, henclosed, .emptyList ht hwanted ht'⟩
  | cons e es =>
    obtain ⟨ts, endsLiteral, hscans, hderives⟩ := h source (x ++ [b.opening]) (b.closing :: v)
      (by simp [hsource]) hends
    rw [List.length_append] at hscans
    obtain ⟨t, t', ht, ht', henclosed⟩ := Scans.enclosed hs.culture hb hscans
    exact ⟨t :: ts ++ [t'], false, henclosed, .list ht hwanted hderives ht'⟩

/-- A name with a list in brackets is a call of the function, if it takes so many arguments. -/
theorem call {f : FunctionDef} {args : List Expr} (hname : s.Reads f.name)
    (hf : names.function? f.name = some f) (harity : f.arity.accepts args.length = true)
    (h : PrintsList s names u args (n + 1) n') :
    Prints s names (f.name.toList ++ '(' :: (u ++ [')'])) (.upTo 0 (.call n f args)) n n' := by
  have hlist : Prints s names ('(' :: (u ++ [')'])) (.listIf (· = .round) true args) (n + 1) n' :=
    list (b := .round) hs (by decide) rfl h
  refine hlist.named hname (fun _ _ => .cons (hs.setsOff (by decide))) ?_
  intro source t ts ht hderives
  exact .unsigned (.call ht hf hderives harity)

/-- A variable with an index. -/
theorem varWithIndex {name : String} {index : List Expr} (hname : s.Reads name)
    (hf : names.function? name = none) (hvar : names.isVariable name = true)
    (h : PrintsList s names u index (n + 1) n') :
    Prints s names (name.toList ++ '[' :: (u ++ [']'])) (.upTo 0 (.var n name index)) n n' := by
  have hlist : Prints s names ('[' :: (u ++ [']'])) (.listIf (· = .square) true index) (n + 1) n' :=
    list (b := .square) hs (by decide) rfl h
  refine hlist.named hname (fun _ _ => .cons (hs.setsOff (by decide))) ?_
  intro source t ts ht hderives
  exact .unsigned (.var ht hf hvar hderives)

end Prints

end Parse

end Formula
