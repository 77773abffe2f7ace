import Formula.Engine.Basic
import Formula.Proofs.Parse.Complete
import Formula.Proofs.Token.Scan

/-!
# A source is read exactly as the grammar says

The reading of a source succeeds with an expression if and only if the whole source is cut into
tokens and the grammar derives the expression from them.  No tokens derive two expressions.
-/

namespace Formula

namespace Parse

variable {names : Names} {spelling : Spelling} {source : List Char}

/-- Parsing a source scans it and reads an expression from the tokens, behind which the source
ends. -/
theorem parseSource_eq :
    parseSource names spelling source =
      let input : Input := ⟨names, source, (scan spelling source).flaw⟩
      match (scan spelling source).tokens with
      | [] => failBehind input
      | token :: rest => (do
        let (e, c) ← readUpTo input 5 ⟨token, rest, token.start, 0⟩
        match c.current.lexeme with
        | .finish => return e
        | _ => failAt input c .unexpectedToken) := by
  rw [parseSource]
  cases (scan spelling source).tokens with
  | nil => rfl
  | cons token rest =>
    simp only [readUpTo]
    cases upTo ⟨names, source, (scan spelling source).flaw⟩ 5 ⟨token, rest, token.start, 0⟩ <;> rfl

/-- What is read from a source can be derived from its tokens. -/
theorem derives_of_parseSource {e : Expr} (h : parseSource names spelling source = .ok e) :
    ∃ ts n, Tokenizes spelling source ts ∧ Derives names source (.upTo 5 e) 0 ts n := by
  rw [parseSource_eq] at h
  have hends := scan_ends spelling source
  cases htokens : (scan spelling source).tokens with
  | nil =>
    rw [htokens] at h
    obtain ⟨error, he⟩ := exists_failBehind Expr ⟨names, source, (scan spelling source).flaw⟩
    exact absurd (he.symm.trans h) (by simp)
  | cons token rest =>
    rw [htokens] at h
    obtain ⟨⟨e', c⟩, hread, h⟩ := exists_of_bind_eq_ok h
    obtain ⟨ts, hp, hderives⟩ := (soundAt _ _).upTo _ _ _ hread
    have hsplit : (scan spelling source).tokens = ts ++ c.current :: c.rest :=
      htokens.trans hp.tokens
    simp only at h
    split at h
    · next hfinish =>
      cases h
      -- The end of the source was reached, so it is the last token.
      obtain ⟨n, hscan⟩ := hends.eq_of_finish hsplit hfinish
      exact ⟨ts, c.nextId, ⟨n, hscan⟩, hderives⟩
    · cases h

/-- Tokens that derive an expression are read as that expression if nothing follows them. -/
theorem Derives.readWhole {input : Input} {t : Token} {us : List Token} {e : Expr} {n m : Nat}
    (h : Derives input.names input.source (.upTo 5 e) n (t :: us) m) (stop : Nat) :
    readUpTo input 5 ⟨t, us ++ [⟨.finish, stop, stop⟩], t.start, n⟩ =
      .ok (e, ⟨⟨.finish, stop, stop⟩, [], stopAfter t.start (t :: us), m⟩) := by
  have hread := h.read ⟨t, us ++ [⟨.finish, stop, stop⟩], t.start, n⟩
    ⟨⟨.finish, stop, stop⟩, [], stopAfter t.start (t :: us), m⟩ ⟨rfl, rfl⟩ rfl rfl
  exact hread.upTo trivial

/-- What can be derived from the tokens of a source is read from it. -/
theorem parseSource_of_derives {e : Expr} {ts : List Token} {n : Nat}
    (htokens : Tokenizes spelling source ts)
    (h : Derives names source (.upTo 5 e) 0 ts n) : parseSource names spelling source = .ok e := by
  obtain ⟨stop, hscan⟩ := htokens
  rw [parseSource_eq, hscan]
  obtain ⟨t, us, rfl, -⟩ := h.starts
  have hread :
      readUpTo ⟨names, source, none⟩ 5 ⟨t, us ++ [⟨.finish, stop, stop⟩], t.start, 0⟩ = _ :=
    Derives.readWhole h stop
  show (readUpTo ⟨names, source, none⟩ 5 ⟨t, us ++ [⟨.finish, stop, stop⟩], t.start, 0⟩ >>= _) = _
  rw [hread]
  rfl

/-- The grammar is unambiguous. -/
theorem Derives.unique {ts : List Token} {e e' : Expr} {n m m' : Nat}
    (h : Derives names source (.upTo 5 e) n ts m) (h' : Derives names source (.upTo 5 e') n ts m') :
    e = e' := by
  obtain ⟨t, us, rfl, -⟩ := h.starts
  have hread : readUpTo ⟨names, source, none⟩ 5 ⟨t, us ++ [⟨.finish, 0, 0⟩], t.start, n⟩ = _ :=
    Derives.readWhole h 0
  have hread' : readUpTo ⟨names, source, none⟩ 5 ⟨t, us ++ [⟨.finish, 0, 0⟩], t.start, n⟩ = _ :=
    Derives.readWhole h' 0
  rw [hread] at hread'
  simp only [Except.ok.injEq, Prod.mk.injEq] at hread'
  exact hread'.1

end Parse

open Parse in
/-- An engine reads an expression from a source if and only if the whole source is cut into tokens
that derive it, with calls, variables and paths numbered from 0; and no tokens derive two
expressions. -/
theorem Engine.parseSource_eq_ok_iff (e : Engine) (source : List Char) :
    (∀ t, parseSource e.names e.spelling source = .ok t ↔
      ∃ ts n, Tokenizes e.spelling source ts ∧ Derives e.names source (.upTo 5 t) 0 ts n) ∧
    ∀ ts t t' n n', Derives e.names source (.upTo 5 t) 0 ts n →
      Derives e.names source (.upTo 5 t') 0 ts n' → t = t' := by
  refine ⟨fun t => ⟨derives_of_parseSource, ?_⟩, fun ts t t' n n' => Derives.unique⟩
  rintro ⟨ts, n, htokens, hderives⟩
  exact parseSource_of_derives htokens hderives

end Formula
