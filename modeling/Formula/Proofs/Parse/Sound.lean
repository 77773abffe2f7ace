import Formula.Proofs.Parse.Grammar
import Formula.Proofs.Parse.Readers

/-!
# What is read can be derived

Each reader passes tokens that derive what it returns.  The readers call each other, so this is
shown of all of them at once, by induction on the number of tokens that are left; `SoundAt` is the
statement at one place.
-/

namespace Formula.Parse

/-! ## Passing tokens -/

theorem stopAfter_append (passed : Nat) (ts us : List Token) :
    stopAfter passed (ts ++ us) = stopAfter (stopAfter passed ts) us :=
  List.foldl_append

/-- Between two places lie exactly some tokens. -/
structure Passes (c : Cursor) (ts : List Token) (c' : Cursor) : Prop where
  tokens : c.current :: c.rest = ts ++ c'.current :: c'.rest
  passed : c'.passed = stopAfter c.passed ts

namespace Passes

variable {c c₁ c₂ : Cursor} {ts us : List Token}

theorem refl (c : Cursor) : Passes c [] c := ⟨rfl, rfl⟩

theorem trans (h₁ : Passes c ts c₁) (h₂ : Passes c₁ us c₂) : Passes c (ts ++ us) c₂ where
  tokens := by rw [h₁.tokens, h₂.tokens, List.append_assoc]
  passed := by rw [h₂.passed, h₁.passed, stopAfter_append]

theorem to_numbered {n : Nat} (h : Passes c ts c₁) : Passes (c.numbered n) ts c₁ :=
  ⟨h.tokens, h.passed⟩

theorem of_numbered {n : Nat} (h : Passes (c.numbered n) ts c₁) : Passes c ts c₁ :=
  ⟨h.tokens, h.passed⟩

/-- The tokens that were passed are not left any more. -/
theorem size_add (h : Passes c ts c₁) : c₁.size + ts.length = c.size := by
  have hlen := congrArg List.length h.tokens
  simp only [List.length_cons, List.length_append] at hlen
  simp only [Cursor.size]
  omega

theorem size_le (h : Passes c ts c₁) : c₁.size ≤ c.size := by
  have := h.size_add
  omega

theorem of_pass {input : Input} (h : pass input c = .ok c₁) :
    Passes c [c.current] c₁ ∧ c₁.nextId = c.nextId := by
  obtain ⟨t, rest, hrest, rfl⟩ := exists_of_pass h
  exact ⟨⟨by simp [hrest], rfl⟩, rfl⟩

/-- Fewer tokens are left when one is passed. -/
theorem size_lt_of_pass {input : Input} (h : pass input c = .ok c₁) : c₁.size < c.size := by
  have := (of_pass h).1.size_add
  simp only [List.length_singleton] at this
  omega

end Passes

/-! ## The current token -/

/-- An operator of a level is the current token, and joins as loosely as the level says. -/
theorem operatorAt?_eq_some {k : Nat} {c : Cursor} {op : BinaryOp}
    (h : operatorAt? k c = some op) :
    (∃ written, c.current.lexeme = .operator op written) ∧ op.looseness = k := by
  rw [operatorAt?] at h
  split at h
  · next written hc =>
    split at h
    · next hk =>
      cases h
      exact ⟨⟨written, hc⟩, hk⟩
    · cases h
  · cases h

/-- A sign is an operator that is written as one between two operands. -/
theorem signAt?_eq_some {c : Cursor} {op : UnaryOp} (h : signAt? c = some op) :
    ∃ written, c.current.lexeme = .operator op.asBinary written := by
  rw [signAt?] at h
  split at h
  · next written hc => cases h; exact ⟨written, hc⟩
  · next written hc => cases h; exact ⟨written, hc⟩
  · cases h

theorem opens?_eq_some {c : Cursor} {b : Bracket} (h : opens? c = some b) :
    c.current.lexeme = .opening b := by
  rw [opens?] at h
  split at h
  · next hc => cases h; exact hc
  · cases h

theorem closes_eq_true {c : Cursor} {b : Bracket} (h : closes b c = true) :
    c.current.lexeme = .closing b := by
  rw [closes] at h
  split at h
  · next other hc =>
    rw [hc, of_decide_eq_true h]
  · cases h

/-! ## Soundness -/

/-- What every reader returns at some place can be derived from the tokens that it passes. -/
structure SoundAt (input : Input) (c : Cursor) : Prop where
  upTo : ∀ k e c', readUpTo input k c = .ok (e, c') → ∃ ts, Passes c ts c' ∧
    Derives input.names input.source (.upTo k e) c.nextId ts c'.nextId
  joined : ∀ k left e c', readJoined input k left c = .ok (e, c') → ∃ us, Passes c us c' ∧
    ∀ n ts, Derives input.names input.source (.upTo (k + 1) left) n ts c.nextId →
      Derives input.names input.source (.upTo (k + 1) e) n (ts ++ us) c'.nextId
  list : ∀ wanted es c', readList input wanted c = .ok (es, c') → ∃ ts, Passes c ts c' ∧
    Derives input.names input.source (.listIf wanted ((opens? c).any wanted) es) c.nextId ts
      c'.nextId
  items : ∀ b es c', readItems input b c = .ok (es, c') → ∃ ts t, Passes c (ts ++ [t]) c' ∧
    t.lexeme = .closing b ∧ Derives input.names input.source (.items es) c.nextId ts c'.nextId
  steps : ∀ s steps c', readSteps input s c = .ok (steps, c') → ∃ ts, Passes c ts c' ∧
    Derives input.names input.source (.steps s steps) c.nextId ts c'.nextId

section
variable {input : Input} {size : Nat} (ih : ∀ c, c.size < size → SoundAt input c)
  {c c' : Cursor} (hc : c.size ≤ size)
include ih hc

/-- A list that is read is derived from its brackets and items, or from no token if there is
none. -/
theorem sound_list {wanted : Bracket → Bool} {es : List Expr}
    (h : readList input wanted c = .ok (es, c')) : ∃ ts, Passes c ts c' ∧
      Derives input.names input.source (.listIf wanted ((opens? c).any wanted) es) c.nextId ts
        c'.nextId := by
  by_cases ho : (opens? c).any wanted = true
  · obtain ⟨b, hb, hwanted⟩ := (Option.any_eq_true _ _).mp ho
    have hopening := opens?_eq_some hb
    rw [readList_some hb hwanted] at h
    obtain ⟨c₁, hpass, h⟩ := exists_of_bind_eq_ok h
    obtain ⟨hp₁, hn₁⟩ := Passes.of_pass hpass
    rw [ho]
    by_cases hcloses : closes b c₁ = true
    · rw [if_pos hcloses] at h
      obtain ⟨c₂, hpass₂, h⟩ := exists_of_bind_eq_ok h
      cases h
      obtain ⟨hp₂, hn₂⟩ := Passes.of_pass hpass₂
      refine ⟨_, hp₁.trans hp₂, ?_⟩
      rw [hn₂, hn₁]
      exact .emptyList hopening hwanted (closes_eq_true hcloses)
    · rw [if_neg hcloses] at h
      have hlt := Passes.size_lt_of_pass hpass
      obtain ⟨ts, t, hp₂, hclosing, hitems⟩ := (ih c₁ (by omega)).items b es c' h
      refine ⟨_, hp₁.trans hp₂, ?_⟩
      rw [hn₁] at hitems
      exact .list hopening hwanted hitems hclosing
  · rw [Bool.not_eq_true] at ho
    rw [readList_none ho] at h
    cases h
    rw [ho]
    exact ⟨[], .refl c, .noList⟩

/-- The steps that are read are derived from the keys of the first one and, behind a period, the
others. -/
theorem sound_steps {s : String} {steps : List (Step Expr)}
    (h : readSteps input s c = .ok (steps, c')) : ∃ ts, Passes c ts c' ∧
      Derives input.names input.source (.steps s steps) c.nextId ts c'.nextId := by
  rw [readSteps_eq] at h
  obtain ⟨⟨keys, c₁⟩, hlist, h⟩ := exists_of_bind_eq_ok h
  obtain ⟨ts, hp₁, hkeys⟩ := sound_list ih hc hlist
  have hle := hp₁.size_le
  simp only at h
  split at h
  · next hperiod =>
    obtain ⟨c₂, hpass₂, h⟩ := exists_of_bind_eq_ok h
    obtain ⟨hp₂, hn₂⟩ := Passes.of_pass hpass₂
    have hlt₂ := Passes.size_lt_of_pass hpass₂
    split at h
    · next next hname =>
      obtain ⟨c₃, hpass₃, h⟩ := exists_of_bind_eq_ok h
      obtain ⟨hp₃, hn₃⟩ := Passes.of_pass hpass₃
      have hlt₃ := Passes.size_lt_of_pass hpass₃
      obtain ⟨⟨rest, c₄⟩, hsteps, h⟩ := exists_of_bind_eq_ok h
      cases h
      obtain ⟨us, hp₄, hrest⟩ := (ih c₃ (by omega)).steps next rest c₄ hsteps
      refine ⟨_, hp₁.trans (hp₂.trans (hp₃.trans hp₄)), ?_⟩
      rw [hn₃, hn₂] at hrest
      exact .step hkeys hperiod hname hrest
    · cases h
  · cases h
    exact ⟨ts, hp₁, .lastStep hkeys⟩

/-- What is read from a name is derived by the rule for what the name means, in the order in which
its meanings are tried. -/
theorem sound_named {s : String} {e : Expr} (hs : c.current.lexeme = .name s)
    (h : readNamed input s c = .ok (e, c')) : ∃ ts, Passes c ts c' ∧
      Derives input.names input.source (.atom e) c.nextId ts c'.nextId := by
  cases hf : input.names.function? s with
  | some f =>
    rw [readNamed_function hf] at h
    obtain ⟨c₁, hpass, h⟩ := exists_of_bind_eq_ok h
    obtain ⟨⟨args, c₂⟩, hlist, h⟩ := exists_of_bind_eq_ok h
    obtain ⟨_, harity, h⟩ := exists_of_bind_eq_ok h
    cases h
    have hlt := Passes.size_lt_of_pass hpass
    obtain ⟨ts, hp₂, hargs⟩ :=
      (ih (c₁.numbered c.nextId) (Nat.lt_of_lt_of_le hlt hc)).list _ _ _ hlist
    refine ⟨_, (Passes.of_pass hpass).1.trans hp₂.of_numbered, .call hs hf hargs ?_⟩
    rw [FunctionDef.checkArity] at harity
    by_cases haccepts : f.arity.accepts args.length = true
    · exact haccepts
    · rw [if_neg haccepts] at harity
      cases harity
  | none =>
    by_cases hv : input.names.isVariable s = true
    · rw [readNamed_variable hf hv] at h
      obtain ⟨c₁, hpass, h⟩ := exists_of_bind_eq_ok h
      obtain ⟨⟨index, c₂⟩, hlist, h⟩ := exists_of_bind_eq_ok h
      cases h
      have hlt := Passes.size_lt_of_pass hpass
      obtain ⟨ts, hp₂, hindex⟩ :=
        (ih (c₁.numbered c.nextId) (Nat.lt_of_lt_of_le hlt hc)).list _ _ _ hlist
      exact ⟨_, (Passes.of_pass hpass).1.trans hp₂.of_numbered, .var hs hf hv hindex⟩
    · rw [Bool.not_eq_true] at hv
      cases hx : input.names.external? s with
      | some v =>
        rw [readNamed_external hf hv hx] at h
        obtain ⟨c₁, hpass, h⟩ := exists_of_bind_eq_ok h
        cases h
        obtain ⟨hp₁, hn₁⟩ := Passes.of_pass hpass
        rw [hn₁]
        exact ⟨_, hp₁, .external hs hf hv hx⟩
      | none =>
        by_cases hstarts : input.names.startsPath s = true
        · rw [readNamed_path hf hv hx hstarts] at h
          obtain ⟨c₁, hpass, h⟩ := exists_of_bind_eq_ok h
          obtain ⟨⟨steps, c₂⟩, hread, h⟩ := exists_of_bind_eq_ok h
          cases h
          have hlt := Passes.size_lt_of_pass hpass
          obtain ⟨ts, hp₂, hsteps⟩ :=
            (ih (c₁.numbered c.nextId) (Nat.lt_of_lt_of_le hlt hc)).steps _ _ _ hread
          -- The text of the path ends where its last token was passed.
          have hp := (Passes.of_pass hpass).1.trans hp₂.of_numbered
          refine ⟨_, hp, ?_⟩
          rw [hp.passed]
          exact .path hs hf hv hx hstarts hsteps
        · rw [Bool.not_eq_true] at hstarts
          rw [readNamed_unknown hf hv hx hstarts] at h
          cases h

/-- An operand without a sign is derived by the rule for its first token. -/
theorem sound_atom {e : Expr} (h : readAtom input c = .ok (e, c')) : ∃ ts, Passes c ts c' ∧
    Derives input.names input.source (.atom e) c.nextId ts c'.nextId := by
  cases hl : c.current.lexeme with
  | literal v =>
    rw [readAtom_literal hl] at h
    obtain ⟨c₁, hpass, h⟩ := exists_of_bind_eq_ok h
    cases h
    obtain ⟨hp₁, hn₁⟩ := Passes.of_pass hpass
    rw [hn₁]
    exact ⟨_, hp₁, .literal hl⟩
  | name s =>
    rw [readAtom_name hl] at h
    exact sound_named ih hc hl h
  | opening b =>
    rw [readAtom_opening hl] at h
    obtain ⟨c₁, hpass, h⟩ := exists_of_bind_eq_ok h
    obtain ⟨hp₁, hn₁⟩ := Passes.of_pass hpass
    have hlt := Passes.size_lt_of_pass hpass
    obtain ⟨⟨e, c₂⟩, hread, h⟩ := exists_of_bind_eq_ok h
    obtain ⟨ts, hp₂, hderives⟩ := (ih c₁ (by omega)).upTo _ _ _ hread
    by_cases hcloses : closes b c₂ = true
    · simp only [hcloses, if_true] at h
      obtain ⟨c₃, hpass₃, h⟩ := exists_of_bind_eq_ok h
      cases h
      obtain ⟨hp₃, hn₃⟩ := Passes.of_pass hpass₃
      refine ⟨_, hp₁.trans (hp₂.trans hp₃), ?_⟩
      rw [hn₁] at hderives
      rw [hn₃]
      exact .group hl hderives (closes_eq_true hcloses)
    · simp only [hcloses] at h
      cases h
  | finish =>
    rw [readAtom_finish hl] at h
    cases h
  | operator | closing | period | separator =>
    rw [readAtom_other (by simp [hl]) (by simp [hl]) (by simp [hl]) (by simp [hl])] at h
    cases h

/-- An operand is derived from its signs and the one without. -/
theorem sound_signed {e : Expr} (h : readSigned input c = .ok (e, c')) : ∃ ts, Passes c ts c' ∧
    Derives input.names input.source (.upTo 0 e) c.nextId ts c'.nextId := by
  cases hs : signAt? c with
  | none =>
    rw [readSigned_none hs] at h
    obtain ⟨ts, hp, hderives⟩ := sound_atom ih hc h
    exact ⟨ts, hp, .unsigned hderives⟩
  | some op =>
    rw [readSigned_some hs] at h
    obtain ⟨c₁, hpass, h⟩ := exists_of_bind_eq_ok h
    obtain ⟨hp₁, hn₁⟩ := Passes.of_pass hpass
    have hlt := Passes.size_lt_of_pass hpass
    obtain ⟨⟨e, c₂⟩, hread, h⟩ := exists_of_bind_eq_ok h
    cases h
    rw [← readUpTo_zero] at hread
    obtain ⟨ts, hp₂, hderives⟩ := (ih c₁ (by omega)).upTo _ _ _ hread
    obtain ⟨written, hsign⟩ := signAt?_eq_some hs
    rw [hn₁] at hderives
    exact ⟨_, hp₁.trans hp₂, .signed hsign hderives⟩

/-- If what was read so far is derived, so is what is read when more operands are joined to it. -/
theorem sound_joined {k : Nat} {left e : Expr} (h : readJoined input k left c = .ok (e, c')) :
    ∃ us, Passes c us c' ∧ ∀ n ts,
      Derives input.names input.source (.upTo (k + 1) left) n ts c.nextId →
      Derives input.names input.source (.upTo (k + 1) e) n (ts ++ us) c'.nextId := by
  cases ho : operatorAt? (k + 1) c with
  | none =>
    rw [readJoined_none ho] at h
    cases h
    exact ⟨[], .refl c, fun n ts hleft => by rwa [List.append_nil]⟩
  | some op =>
    rw [readJoined_some ho] at h
    obtain ⟨⟨written, hop⟩, hk⟩ := operatorAt?_eq_some ho
    obtain ⟨c₁, hpass, h⟩ := exists_of_bind_eq_ok h
    obtain ⟨hp₁, hn₁⟩ := Passes.of_pass hpass
    have hlt := Passes.size_lt_of_pass hpass
    obtain ⟨⟨right, c₂⟩, hread, h⟩ := exists_of_bind_eq_ok h
    obtain ⟨us, hp₂, hright⟩ := (ih c₁ (by omega)).upTo _ _ _ hread
    have hle := hp₂.size_le
    -- What was read so far is the left operand of the operators that follow.
    obtain ⟨vs, hp₃, hrest⟩ := (ih c₂ (by omega)).joined _ _ _ _ h
    refine ⟨_, hp₁.trans (hp₂.trans hp₃), fun n ts hleft => ?_⟩
    rw [hn₁] at hright
    have hderives := hrest n _ (.joined hleft hop hk hright)
    simpa using hderives

/-- Operands up to some level are derived, by induction on the level. -/
theorem sound_upTo {k : Nat} {e : Expr} (h : readUpTo input k c = .ok (e, c')) :
    ∃ ts, Passes c ts c' ∧
      Derives input.names input.source (.upTo k e) c.nextId ts c'.nextId := by
  -- The first operand is read at the same place, so the levels need an induction of their own.
  induction k generalizing e c' with
  | zero =>
    rw [readUpTo_zero] at h
    exact sound_signed ih hc h
  | succ k ihk =>
    rw [readUpTo_succ] at h
    obtain ⟨⟨left, c₁⟩, hread, h⟩ := exists_of_bind_eq_ok h
    obtain ⟨ts, hp₁, hleft⟩ := ihk hread
    obtain ⟨us, hp₂, hrest⟩ := sound_joined ih (Nat.le_trans hp₁.size_le hc) h
    exact ⟨_, hp₁.trans hp₂, hrest _ _ (.operand hleft)⟩

/-- Items and the closing bracket are derived, one item after another. -/
theorem sound_items {b : Bracket} {es : List Expr} (h : readItems input b c = .ok (es, c')) :
    ∃ ts t, Passes c (ts ++ [t]) c' ∧ t.lexeme = .closing b ∧
      Derives input.names input.source (.items es) c.nextId ts c'.nextId := by
  rw [readItems_eq] at h
  obtain ⟨⟨e, c₁⟩, hread, h⟩ := exists_of_bind_eq_ok h
  obtain ⟨ts, hp₁, hderives⟩ := sound_upTo ih hc hread
  have hle := hp₁.size_le
  simp only at h
  split at h
  · next s hs =>
    obtain ⟨c₂, hpass, h⟩ := exists_of_bind_eq_ok h
    obtain ⟨hp₂, hn₂⟩ := Passes.of_pass hpass
    have hlt := Passes.size_lt_of_pass hpass
    obtain ⟨⟨rest, c₃⟩, hitems, h⟩ := exists_of_bind_eq_ok h
    cases h
    obtain ⟨us, t, hp₃, hclosing, hrest⟩ := (ih c₂ (by omega)).items _ _ _ hitems
    rw [hn₂] at hrest
    refine ⟨ts ++ c₁.current :: us, t, ?_, hclosing, .item hderives hs hrest⟩
    simpa using hp₁.trans (hp₂.trans hp₃)
  · next other hs =>
    by_cases hb : other = b
    · rw [if_pos hb] at h
      obtain ⟨c₂, hpass, h⟩ := exists_of_bind_eq_ok h
      cases h
      obtain ⟨hp₂, hn₂⟩ := Passes.of_pass hpass
      rw [hn₂]
      exact ⟨ts, c₁.current, hp₁.trans hp₂, hb ▸ hs, .lastItem hderives⟩
    · rw [if_neg hb] at h
      cases h
  · cases h

end

/-- Every reader is sound at every place. -/
theorem soundAt (input : Input) (c : Cursor) : SoundAt input c := by
  have hall : ∀ size c, c.size ≤ size → SoundAt input c := by
    intro size
    -- Every reader calls others at places with fewer tokens to follow.
    induction size using Nat.strongRecOn with
    | ind size ih =>
      intro c hc
      have hbelow : ∀ c', c'.size < size → SoundAt input c' :=
        fun c' hlt => ih c'.size hlt c' (Nat.le_refl _)
      exact
        { upTo := fun k e c' => sound_upTo hbelow hc
          joined := fun k left e c' => sound_joined hbelow hc
          list := fun wanted es c' => sound_list hbelow hc
          items := fun b es c' => sound_items hbelow hc
          steps := fun s steps c' => sound_steps hbelow hc }
  exact hall c.size c (Nat.le_refl _)

end Formula.Parse
