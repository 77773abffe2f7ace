import Formula.Proofs.Text.Occurrences
import Formula.Text.Wildcard

/-!
# Matches of wildcard patterns

A pattern's text is turned into an expression by escaping it and replacing the escaped wildcards.
No backslash of the text is mistaken for one that escapes a wildcard, and no special character is
left alone, so the expression can be read and says of each character what it means alone
(`Wildcard.ofText_eq_map`).  `Matches` says which texts a pattern's
text describes; matching finds out whether a beginning of a text is one (`matchesStart_iff`).
-/

namespace Formula.Text

/-! ## Replacing escaped characters -/

/-- Whether a backslash and the character `w` side by side stand for `w` alone where each character
is written in its own way. -/
structure Escapes (written : Char → List Char) (w : Char) : Prop where
  self : written w = ['\\', w]
  others : ∀ c, c ≠ w → '\\' ∉ written c ∨ written c = ['\\', c]
  start : ∀ c, ∃ a rest, written c = a :: rest ∧ a ≠ w

section
variable {w : Char} {new : List Char}

/-- Where no backslash is, there is nothing to replace. -/
theorem replaceAll_plain {plain : List Char} (hplain : '\\' ∉ plain) (text : List Char) :
    replaceAll ['\\', w] new (plain ++ text) = plain ++ replaceAll ['\\', w] new text := by
  induction plain with
  | nil => rfl
  | cons c plain ih =>
    rw [List.mem_cons, not_or] at hplain
    have hmissed : ¬['\\', w] <+: c :: (plain ++ text) := fun h =>
      hplain.1 (List.cons_prefix_cons.mp h).1
    rw [List.cons_append, replaceAll_cons _ hmissed, ih hplain.2]
    rfl

/-- The backslash before another character is not taken for one before `w`, nor is that character,
if it is a backslash. -/
theorem replaceAll_escaped {c : Char} (hne : c ≠ w) {text : List Char} (htext : ¬[w] <+: text) :
    replaceAll ['\\', w] new ('\\' :: c :: text) = '\\' :: c :: replaceAll ['\\', w] new text := by
  have hmissed : ¬['\\', w] <+: '\\' :: c :: text := fun h =>
    hne (List.cons_prefix_cons.mp (List.cons_prefix_cons.mp h).2).1.symm
  have hmissed' : ¬['\\', w] <+: c :: text := fun h => htext (List.cons_prefix_cons.mp h).2
  rw [replaceAll_cons _ hmissed, replaceAll_cons _ hmissed']

end

/-- If nothing is written with `w` first, no written text starts with `w`. -/
theorem not_prefix_flatMap {written : Char → List Char} {w : Char}
    (hstart : ∀ c, ∃ a rest, written c = a :: rest ∧ a ≠ w) (text : List Char) :
    ¬[w] <+: text.flatMap written := by
  cases text with
  | nil => exact fun hprefix => List.cons_ne_nil _ _ (List.prefix_nil.mp hprefix)
  | cons c text =>
    obtain ⟨a, rest, hwritten, hne⟩ := hstart c
    rw [List.flatMap_cons, hwritten]
    exact fun hprefix => hne (List.cons_prefix_cons.mp hprefix).1.symm

/-- Replacing the escaped `w` changes how `w` is written and nothing else. -/
theorem Escapes.replaceAll_flatMap {written : Char → List Char} {w : Char} (h : Escapes written w)
    (text new : List Char) :
    replaceAll ['\\', w] new (text.flatMap written) =
      text.flatMap fun c => if c = w then new else written c := by
  induction text with
  | nil => rfl
  | cons c text ih =>
    rw [List.flatMap_cons, List.flatMap_cons, ← ih]
    by_cases hc : c = w
    · rw [hc, h.self, if_pos rfl, replaceAll_append (List.cons_ne_nil _ _)]
    · rw [if_neg hc]
      rcases h.others c hc with hplain | hescaped
      · rw [replaceAll_plain hplain]
      · rw [hescaped]
        exact replaceAll_escaped hc (not_prefix_flatMap h.start text)

namespace Wildcard

/-! ## Expressions -/

theorem escaped_cases (c : Char) :
    special.contains c = true ∧ escaped c = ['\\', c] ∨
      special.contains c = false ∧ escaped c = [c] := by
  rw [escaped]
  cases special.contains c with
  | true => exact .inl ⟨rfl, rfl⟩
  | false => exact .inr ⟨rfl, rfl⟩

theorem ne_of_contains_special {a c : Char} (ha : special.contains a = true)
    (hc : special.contains c = false) : c ≠ a := by
  rintro rfl
  cases ha.symm.trans hc

/-- A special character is escaped by a backslash of its own, so one before `w` escapes `w`. -/
theorem escapes_escaped {w : Char} (hw : special.contains w = true) (hne : '\\' ≠ w) :
    Escapes escaped w where
  self := if_pos hw
  others c _ := by
    rcases escaped_cases c with ⟨-, h⟩ | ⟨hplain, h⟩
    · exact .inr h
    · rw [h, List.mem_singleton]
      exact .inl (ne_of_contains_special rfl hplain).symm
  start c := by
    rcases escaped_cases c with ⟨-, h⟩ | ⟨hplain, h⟩
    · exact ⟨_, _, h, hne⟩
    · exact ⟨_, _, h, ne_of_contains_special hw hplain⟩

/-- How a character is written once the runs are. -/
def writtenWithRuns (c : Char) : List Char := if c = '*' then ['.', '*'] else escaped c

/-- Once the runs are written, a backslash before a question mark still escapes it. -/
theorem escapes_writtenWithRuns : Escapes writtenWithRuns '?' where
  self := rfl
  others c hc := by
    rw [writtenWithRuns]
    split
    · exact .inl (by decide)
    · exact (escapes_escaped rfl (by decide)).others c hc
  start c := by
    rw [writtenWithRuns]
    split
    · exact ⟨_, _, rfl, by decide⟩
    · exact (escapes_escaped rfl (by decide)).start c

/-- How a character of a pattern's text is written in the expression. -/
def written (c : Char) : List Char := if c = '?' then ['.'] else writtenWithRuns c

/-- The expression is written character by character. -/
theorem expression_eq (text : List Char) : expression text = text.flatMap written := by
  have hruns := (escapes_escaped (w := '*') rfl (by decide)).replaceAll_flatMap text ['.', '*']
  rw [expression, escape, hruns]
  exact escapes_writtenWithRuns.replaceAll_flatMap text ['.']

theorem start_written (c : Char) : ∃ a rest, written c = a :: rest ∧ a ≠ '*' := by
  rw [written, writtenWithRuns]
  split
  · exact ⟨_, _, rfl, by decide⟩
  split
  · exact ⟨_, _, rfl, by decide⟩
  · exact (escapes_escaped (w := '*') rfl (by decide)).start c

/-! ### Reading -/

/-- A dot that no star follows is any one character. -/
theorem read_dot {rest : List Char} (h : ¬['*'] <+: rest) :
    read ('.' :: rest) = (.anyOne :: ·) <$> read rest := by
  cases rest with
  | nil => rfl
  | cons c rest =>
    have hc : c ≠ '*' := by
      rintro rfl
      exact h (List.prefix_append ['*'] rest)
    simp [read, hc]

/-- An escaped character is read as itself, special or not. -/
theorem read_escaped (c : Char) (rest : List Char) :
    read (escaped c ++ rest) = (.letter c :: ·) <$> read rest := by
  rcases escaped_cases c with ⟨hspecial, h⟩ | ⟨hplain, h⟩
  · rw [h, List.cons_append, List.singleton_append, read.eq_1, if_pos hspecial]
  · have hescape : c ≠ '\\' := ne_of_contains_special rfl hplain
    have hdot : c ≠ '.' := ne_of_contains_special rfl hplain
    have hplain : c ∉ special := by simpa using hplain
    rw [h, List.singleton_append]
    simp [read, hescape, hdot, hplain]

/-- What a character of a pattern's text means. -/
def ofChar (c : Char) : Wildcard :=
  if c = '?' then .anyOne else if c = '*' then .anyRun else .letter c

/-- Every pattern's text can be read: its expression leaves no special character without a backslash
other than the dots and stars put there.  Each character means what it means alone, whatever stands
before and behind it. -/
theorem ofText_eq_map (text : List Char) : ofText text = some (text.map ofChar) := by
  rw [ofText, expression_eq]
  induction text with
  | nil => rfl
  | cons c text ih =>
    have hread : read (written c ++ text.flatMap written) =
        (ofChar c :: ·) <$> read (text.flatMap written) := by
      rw [written, writtenWithRuns, ofChar]
      split
      · -- What comes behind is not written with a star first, so the dot is not read as a run.
        exact read_dot (not_prefix_flatMap start_written text)
      split
      · rfl
      · exact read_escaped c _
    rw [List.flatMap_cons, hread, ih, List.map_cons]
    rfl

/-! ## Matches -/

/-- Whether a pattern's text describes a text: a star any run of characters, a question mark any one
character, neither of them line feeds, and every other character itself in either case. -/
inductive Matches : List Char → List Char → Prop
  | nil : Matches [] []
  | anyRun {pattern run text : List Char} (hrun : '\n' ∉ run) (h : Matches pattern text) :
    Matches ('*' :: pattern) (run ++ text)
  | anyOne {pattern text : List Char} {c : Char} (hc : c ≠ '\n') (h : Matches pattern text) :
    Matches ('?' :: pattern) (c :: text)
  | letter {a c : Char} {pattern text : List Char} (hone : a ≠ '?') (hrun : a ≠ '*')
    (hsame : a.toLower = c.toLower) (h : Matches pattern text) :
    Matches (a :: pattern) (c :: text)

/-- Whether a pattern's text describes a beginning of a text. -/
def MatchesStart (pattern text : List Char) : Prop :=
  ∃ start, start <+: text ∧ Matches pattern start

theorem matchesStart_nil (text : List Char) : MatchesStart [] text :=
  ⟨[], List.nil_prefix, .nil⟩

/-- A star describes any run of characters, behind which the rest of the pattern goes on. -/
theorem matchesStart_anyRun_iff {pattern text : List Char} :
    MatchesStart ('*' :: pattern) text ↔
      ∃ run rest, text = run ++ rest ∧ '\n' ∉ run ∧ MatchesStart pattern rest := by
  constructor
  · rintro ⟨start, ⟨rest, rfl⟩, h⟩
    cases h with
    | @anyRun _ run start hrun h =>
      exact ⟨run, start ++ rest, List.append_assoc .., hrun, start, List.prefix_append _ _, h⟩
    | letter _ hrun => exact absurd rfl hrun
  · rintro ⟨run, rest, rfl, hrun, start, hstart, h⟩
    exact ⟨run ++ start, (List.prefix_append_right_inj run).mpr hstart, .anyRun hrun h⟩

/-- A question mark describes one character. -/
theorem matchesStart_anyOne_iff {pattern text : List Char} :
    MatchesStart ('?' :: pattern) text ↔
      ∃ c rest, text = c :: rest ∧ c ≠ '\n' ∧ MatchesStart pattern rest := by
  constructor
  · rintro ⟨start, ⟨rest, rfl⟩, h⟩
    cases h with
    | @anyOne _ start c hc h =>
      exact ⟨c, start ++ rest, rfl, hc, start, List.prefix_append _ _, h⟩
    | letter hone => exact absurd rfl hone
  · rintro ⟨c, rest, rfl, hc, start, hstart, h⟩
    exact ⟨c :: start, List.cons_prefix_cons.mpr ⟨rfl, hstart⟩, .anyOne hc h⟩

/-- Any other character describes itself in either case. -/
theorem matchesStart_letter_iff {a : Char} (hone : a ≠ '?') (hrun : a ≠ '*')
    {pattern text : List Char} : MatchesStart (a :: pattern) text ↔
      ∃ c rest, text = c :: rest ∧ a.toLower = c.toLower ∧ MatchesStart pattern rest := by
  constructor
  · rintro ⟨start, ⟨rest, rfl⟩, h⟩
    cases h with
    | anyRun => exact absurd rfl hrun
    | anyOne => exact absurd rfl hone
    | @letter _ c _ start _ _ hsame h =>
      exact ⟨c, start ++ rest, rfl, hsame, start, List.prefix_append _ _, h⟩
  · rintro ⟨c, rest, rfl, hsame, start, hstart, h⟩
    exact ⟨c :: start, List.cons_prefix_cons.mpr ⟨rfl, hstart⟩, .letter hone hrun hsame h⟩

/-! ## Matching -/

/-- A run may end wherever the test holds, up to the first line feed. -/
theorem anyRest_iff {test : List Char → Bool} {text : List Char} : anyRest test text = true ↔
    ∃ run rest, text = run ++ rest ∧ '\n' ∉ run ∧ test rest = true := by
  induction text with
  | nil =>
    constructor
    · exact fun h => ⟨[], [], rfl, List.not_mem_nil, h⟩
    · rintro ⟨run, rest, htext, -, h⟩
      obtain ⟨rfl, rfl⟩ := List.append_eq_nil_iff.mp htext.symm
      exact h
  | cons c text ih =>
    rw [anyRest, Bool.or_eq_true, Bool.and_eq_true, bne_iff_ne, ih]
    constructor
    · rintro (h | ⟨hc, run, rest, rfl, hrun, h⟩)
      · exact ⟨[], _, rfl, List.not_mem_nil, h⟩
      · exact ⟨c :: run, rest, rfl, by simp [hc.symm, hrun], h⟩
    · rintro ⟨_ | ⟨d, run⟩, rest, htext, hrun, h⟩
      · obtain rfl : c :: text = rest := htext
        exact .inl h
      · obtain ⟨rfl, rfl⟩ := List.cons.inj htext
        rw [List.mem_cons, not_or] at hrun
        exact .inr ⟨Ne.symm hrun.1, run, rest, rfl, hrun.2, h⟩

/-- Two ASCII characters are the same letter if they are equal in lower case. -/
theorem sameLetter_iff {a c : Char} (ha : a.toNat < 128) (hc : c.toNat < 128) :
    sameLetter a c = true ↔ a.toLower = c.toLower := by
  rw [sameLetter, decide_eq_true_iff, foldCase, foldCase, if_pos ha, if_pos hc, Char.toNat_inj]

/-- Matching finds out whether a beginning of a text is one that the pattern's text describes. -/
theorem matchesStart_iff {pattern text : List Char} (hpattern : ∀ c ∈ pattern, c.toNat < 128)
    (htext : ∀ c ∈ text, c.toNat < 128) :
    matchesStart (pattern.map ofChar) text = true ↔ MatchesStart pattern text := by
  induction pattern generalizing text with
  | nil => exact ⟨fun _ => matchesStart_nil text, fun _ => by rw [List.map_nil, matchesStart]⟩
  | cons a pattern ih =>
    obtain ⟨ha, hpattern⟩ := List.forall_mem_cons.mp hpattern
    have ih {rest : List Char} (h : ∀ c ∈ rest, c.toNat < 128) := ih hpattern h
    rw [List.map_cons, ofChar]
    split
    · next hone =>
      rw [hone, matchesStart_anyOne_iff]
      cases text with
      | nil => exact ⟨nofun, fun ⟨_, _, h, _⟩ => nomatch h⟩
      | cons c text =>
        rw [matchesStart, Bool.and_eq_true, bne_iff_ne, ih (List.forall_mem_cons.mp htext).2]
        constructor
        · exact fun h => ⟨c, text, rfl, h⟩
        · rintro ⟨_, _, ⟨⟩, h⟩
          exact h
    split
    · next hrun =>
      rw [hrun, matchesStart_anyRun_iff, matchesStart, anyRest_iff]
      refine exists_congr fun run => exists_congr fun rest => and_congr_right fun hsplit => ?_
      subst hsplit
      rw [ih fun c hc => htext c (List.mem_append_right _ hc)]
    · next hone hrun =>
      rw [matchesStart_letter_iff hone hrun]
      cases text with
      | nil => exact ⟨nofun, fun ⟨_, _, h, _⟩ => nomatch h⟩
      | cons c text =>
        obtain ⟨hc, htext⟩ := List.forall_mem_cons.mp htext
        rw [matchesStart, Bool.and_eq_true, sameLetter_iff ha hc, ih htext]
        constructor
        · exact fun h => ⟨c, text, rfl, h⟩
        · rintro ⟨_, _, ⟨⟩, h⟩
          exact h

end Wildcard

end Formula.Text
