import Formula.Proofs.Parse.Moved
import Formula.Proofs.Parse.Stopping
import Formula.Proofs.Token.Missed

/-!
# What syntax errors show

An error that refuses a source shows all of it, with some of its characters in brackets: those that
were passed in search of a token that is missed, or those of the token that was the current one when
the reading failed (`Engine.errors_mark_source`).
-/

namespace Formula

open Parse

variable {names : Names} {spelling : Spelling} {source : List Char}

/-! ## Tokens and paths -/

/-- The tokens of a source are stretches of it. -/
theorem isStretch_of_mem {t : Token} (ht : t ∈ (scan spelling source).tokens) :
    IsStretch source t.start t.stop :=
  (Scanner.standsIn_start source).tokens (Scanner.run_start spelling source) t ht

/-- The text of a path is a stretch of the source, from the start of its first token to the end of
its last. -/
theorem isStretch_pathText {before ts us : List Token} {t : Token}
    (htokens : (scan spelling source).tokens = before ++ t :: ts ++ us) :
    IsStretch source t.start (stopAfter t.stop ts) := by
  have hmem : ∀ u ∈ t :: ts, u ∈ (scan spelling source).tokens := by
    intro u hu
    rw [htokens]
    exact List.mem_append_left _ (List.mem_append_right _ hu)
  have hordered := (scan_covers spelling source).2.ordered
  rw [htokens, List.append_assoc, List.cons_append] at hordered
  have hbehind : ∀ u ∈ ts, t.stop ≤ u.start := by
    intro u hu
    have hpairs := List.pairwise_cons.mp (List.pairwise_append.mp hordered).2.1
    exact hpairs.1 u (List.mem_append_left _ hu)
  have ht := isStretch_of_mem (hmem t List.mem_cons_self)
  have hspan : t.start + (source.length - t.start) = source.length :=
    Nat.add_sub_of_le (Nat.le_trans ht.le ht.le_length)
  have hwithin : Within t.start (source.length - t.start) ts := by
    intro u hu
    have hstretch := isStretch_of_mem (hmem u (List.mem_cons_of_mem t hu))
    rw [hspan]
    exact ⟨Nat.le_trans ht.le (hbehind u hu), hstretch.le, hstretch.le_length⟩
  have hstop := le_stopAfter hwithin ⟨ht.le, by rw [hspan]; exact ht.le_length⟩
  rw [hspan] at hstop
  exact .of_le hstop.1 hstop.2

/-! ## Errors -/

/-- A step of the scan that misses a token finds the flaw of a source. -/
theorem exists_missing_step {flaw : Flaw} (hflaw : (scan spelling source).flaw = some flaw) :
    flaw.MissedIn spelling source ∧ ∃ scanner, Scanner.Comes spelling (.start source) scanner ∧
      scanner.next spelling = .error flaw := by
  obtain ⟨scanner, hcomes, hnext⟩ :=
    Scanner.exists_next_error (Scanner.run_start spelling source) hflaw
  exact ⟨((Scanner.standsIn_start source).comes hcomes).missedIn hnext, scanner, hcomes, hnext⟩

/-- Why a source is refused over some of its characters. -/
inductive RefusedOver (names : Names) (spelling : Spelling) (source : List Char)
    (problem : SyntaxProblem) : Nat → Nat → Prop
  /-- The reading asks for a token, and that is missed. -/
  | missed {flaw : Flaw} : (scan spelling source).flaw = some flaw → flaw.problem = problem →
      AsksBehind names source (scan spelling source).tokens →
      RefusedOver names spelling source problem flaw.start flaw.stop
  /-- The reading fails when a token is the current one. -/
  | token {ts us : List Token} {t : Token} : (scan spelling source).tokens = ts ++ t :: us →
      FailsAt names source ts t problem →
      RefusedOver names spelling source problem t.start t.stop

/-- A syntax error of a source marks the characters over which it is refused: those over which a
token is missed that is asked for, or the token at which the reading fails. -/
theorem exists_refusedOver {error : SyntaxError}
    (h : parseSource names spelling source = .error (.invalidSyntax error)) :
    ∃ start stop, Marks source start stop error.context ∧
      RefusedOver names spelling source error.problem start stop := by
  rw [parseSource_eq_readTokens] at h
  rcases failsAt_or_asksBehind h with ⟨ts, t, us, hsplit, hfails, hcontext⟩ | ⟨hinner, hasks⟩
  · have ht : t ∈ (scan spelling source).tokens := by
      rw [hsplit]
      exact List.mem_append_right _ List.mem_cons_self
    exact ⟨t.start, t.stop, hcontext ▸ (isStretch_of_mem ht).marks, .token hsplit hfails⟩
  · rw [hasks] at h
    cases hflaw : (scan spelling source).flaw with
    | none =>
      -- The tokens of a source without flaw end with its end, which is never passed.
      obtain ⟨ts, -, hended⟩ := (scan_covers spelling source).2.ended hflaw
      exact absurd rfl (hinner _ (by rw [hended]; exact List.mem_append_right _ List.mem_cons_self))
    | some flaw =>
      rw [hflaw] at h
      cases h
      exact ⟨flaw.start, flaw.stop, (exists_missing_step hflaw).1.isStretch.marks,
        .missed hflaw rfl hasks⟩

/-- Every syntax error shows the whole source with a stretch of it in brackets: from the first
character of a token that is missed to the last one that was passed in search of it, or the token
that was the current one when the reading failed.  Wherever the scan stands on the way, what is ahead
is the source from there on, and every token, every text of a path and every flaw is a stretch of the
source, so nothing is ever cut off beyond its end or within a character. -/
theorem Engine.errors_mark_source (e : Engine) (source : List Char) :
    (∀ scanner, Scanner.Comes e.spelling (.start source) scanner →
      scanner.StandsIn source ∧ IsStretch source scanner.position source.length) ∧
    (∀ before t ts us, (scan e.spelling source).tokens = before ++ t :: ts ++ us →
      IsStretch source t.start t.stop ∧ IsStretch source t.start (stopAfter t.stop ts)) ∧
    (∀ flaw ∈ (scan e.spelling source).flaw, flaw.MissedIn e.spelling source ∧
      Marks source flaw.start flaw.stop (markedSource source flaw.start flaw.stop) ∧
      ∃ scanner, Scanner.Comes e.spelling (.start source) scanner ∧
        scanner.next e.spelling = .error flaw) ∧
    ∀ error, parseSource e.names e.spelling source = .error (.invalidSyntax error) →
      ∃ start stop, Marks source start stop error.context ∧
        RefusedOver e.names e.spelling source error.problem start stop := by
  refine ⟨?_, ?_, ?_, fun error => exists_refusedOver⟩
  · intro scanner hcomes
    have hstands := (Scanner.standsIn_start source).comes hcomes
    exact ⟨hstands, .of_le hstands.le_length (Nat.le_refl _)⟩
  · intro before t ts us htokens
    have ht : t ∈ (scan e.spelling source).tokens := by simp [htokens]
    exact ⟨isStretch_of_mem ht, isStretch_pathText htokens⟩
  · intro flaw hflaw
    obtain ⟨hmissed, hstep⟩ := exists_missing_step hflaw
    exact ⟨hmissed, hmissed.isStretch.marks, hstep⟩

/-- A bracket that nothing opens, and a text that nothing closes. -/
theorem Engine.errors_mark_source_umlauts :
    let e : Engine := {}
    (parseSource e.names e.spelling "\"ä\")".toList =
        .error (.invalidSyntax ⟨.unexpectedToken, "\"ä\"[)]"⟩) ∧
      ∃ start stop, Marks "\"ä\")".toList start stop "\"ä\"[)]" ∧
        RefusedOver e.names e.spelling "\"ä\")".toList .unexpectedToken start stop) ∧
    parseSource e.names e.spelling "\"ä\" + \"ö".toList =
        .error (.invalidSyntax ⟨.unclosedText, "\"ä\" + [\"ö]"⟩) ∧
      ∃ start stop, Marks "\"ä\" + \"ö".toList start stop "\"ä\" + [\"ö]" ∧
        RefusedOver e.names e.spelling "\"ä\" + \"ö".toList .unclosedText start stop := by
  intro e
  -- No name is looked up, so it is of no account what names stand for.
  have hbracket : ∀ names, parseSource names {} "\"ä\")".toList =
      .error (.invalidSyntax ⟨.unexpectedToken, "\"ä\"[)]"⟩) := by
    intro names
    cbv
  have htext : ∀ names, parseSource names {} "\"ä\" + \"ö".toList =
      .error (.invalidSyntax ⟨.unclosedText, "\"ä\" + [\"ö]"⟩) := by
    intro names
    cbv
  exact ⟨⟨hbracket e.names, (Engine.errors_mark_source e _).2.2.2 _ (hbracket e.names)⟩,
    htext e.names, (Engine.errors_mark_source e _).2.2.2 _ (htext e.names)⟩

end Formula
