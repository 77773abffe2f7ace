import Formula.Proofs.Token.Rescan

/-!
# What a scan covers

`Scanner.next` takes one token.  It may give a multiplication that is understood and stay where it
is, but only behind a literal, so that a scan comes to its end or to a flaw within twice as many
tokens as the source has characters and one more.  The tokens of a source lie in order and apart
from each other, and between them there are only characters that are skipped.
-/

namespace Formula

/-! ## Token by token -/

/-- Where a scan stands: how many characters were passed, which are ahead, and whether the token
before is a literal. -/
structure Scanner where
  position : Nat
  ahead : List Char
  afterLiteral : Bool

namespace Scanner

/-- The start of a source, behind an equals sign if there is one. -/
def start (source : List Char) : Scanner :=
  match source with
  | '=' :: rest => ⟨1, rest, false⟩
  | text => ⟨0, text, false⟩

/-- The next token, and where the scan stands then. -/
def next (s : Spelling) (scanner : Scanner) : Except Flaw (Token × Scanner) :=
  let start := scanner.position + (scanner.ahead.takeWhile isSkipped).length
  match scanner.ahead.dropWhile isSkipped with
  | [] => .ok (⟨.finish, start, start⟩, ⟨start, [], false⟩)
  | c :: rest =>
    match lexemeFrom s c rest with
    | .error found => .error ⟨found.item, start, start + found.length⟩
    | .ok found =>
      if scanner.afterLiteral && found.item.isName then
        .ok (⟨.times, start, start⟩, ⟨start, c :: rest, false⟩)
      else
        .ok (⟨found.item, start, start + found.length⟩,
          ⟨start + found.length, rest.drop (found.length - 1), found.item.isLiteral⟩)

/-- The tokens up to the end of the source or a flaw, if that comes within so many tokens. -/
def run (s : Spelling) : Nat → Scanner → Option Scan
  | 0, _ => none
  | count + 1, scanner =>
    match scanner.next s with
    | .error flaw => some ⟨[], some flaw⟩
    | .ok (⟨.finish, start, stop⟩, _) => some ⟨[⟨.finish, start, stop⟩], none⟩
    | .ok (token, behind) => (run s count behind).map (.prepend [token])

/-- What every token but the last makes smaller: a character counts twice, and a literal before the
place counts once, for a multiplication may be understood behind it. -/
def measure (scanner : Scanner) : Nat := 2 * scanner.ahead.length + scanner.afterLiteral.toNat

variable {s : Spelling}

/-- The next token starts behind the blanks, and is made by what is found there. -/
theorem next_eq (position : Nat) {ahead rest : List Char} {afterLiteral : Bool} {c : Char}
    {found : Found Lexeme} (hahead : ahead.dropWhile isSkipped = c :: rest)
    (hfound : lexemeFrom s c rest = .ok found) :
    next s ⟨position, ahead, afterLiteral⟩ =
      let start := position + (ahead.takeWhile isSkipped).length
      if afterLiteral && found.item.isName then
        .ok (⟨.times, start, start⟩, ⟨start, c :: rest, false⟩)
      else
        .ok (⟨found.item, start, start + found.length⟩,
          ⟨start + found.length, rest.drop (found.length - 1), found.item.isLiteral⟩) := by
  rw [next]
  dsimp only
  rw [hahead]
  dsimp only
  rw [hfound]

/-- Unless the source ends, the run of a scanner is its next token and the run behind that. -/
theorem run_succ_of_ne_finish {count : Nat} {scanner behind : Scanner} {token : Token}
    (h : scanner.next s = .ok (token, behind)) (hne : token.lexeme ≠ .finish) :
    run s (count + 1) scanner = (run s count behind).map (.prepend [token]) := by
  rw [run, h]
  obtain ⟨lexeme, start, stop⟩ := token
  cases lexeme with
  | finish => exact absurd rfl hne
  | _ => rfl

/-- Token by token a scan gives the tokens of the text that is ahead. -/
theorem run_eq_scanFrom (count : Nat) (scanner : Scanner) (hcount : scanner.measure < count) :
    run s count scanner =
      some (scanFrom s scanner.afterLiteral scanner.position scanner.ahead) := by
  induction count generalizing scanner with
  | zero => exact absurd hcount (Nat.not_lt_zero _)
  | succ count ih =>
  obtain ⟨position, ahead, afterLiteral⟩ := scanner
  rw [measure] at hcount
  dsimp only at hcount ⊢
  cases hahead : ahead.dropWhile isSkipped with
  | nil =>
    rw [run, next, scanFrom]
    dsimp only
    rw [hahead]
  | cons c rest =>
  obtain ⟨hc, htext⟩ := blanks_append hahead
  have hlength := length_dropWhile_le isSkipped ahead
  rw [hahead, List.length_cons] at hlength
  cases hfound : lexemeFrom s c rest with
  | error found =>
    rw [run, next, scanFrom]
    dsimp only
    rw [hahead]
    dsimp only
    rw [hfound]
  | ok found =>
  obtain ⟨hpos, hle⟩ := length_lexemeFrom hfound
  have hscan := @scanFrom_ok s found afterLiteral position (ahead.takeWhile isSkipped) rest c
    (fun b hb => List.mem_takeWhile_imp hb) hc hfound
  rw [htext] at hscan
  rw [hscan]
  by_cases htimes : (afterLiteral && found.item.isName) = true
  · -- The multiplication passes only blanks, and the name is found again in the next step.
    have hnext := (next_eq position hahead hfound).trans (if_pos htimes)
    have hscan' := @scanFrom_ok s found false (position + (ahead.takeWhile isSkipped).length) []
      rest c (List.forall_mem_nil _) hc hfound
    rw [run_succ_of_ne_finish hnext (by simp [Lexeme.times]), ih]
    · rw [List.nil_append] at hscan'
      rw [hscan', tokensOf, tokensOf, htimes]
      rfl
    · rw [Bool.and_eq_true] at htimes
      rw [htimes.1] at hcount
      simp only [measure, List.length_cons, Bool.toNat_true, Bool.toNat_false] at hcount ⊢
      omega
  · have hnext := (next_eq position hahead hfound).trans (if_neg htimes)
    have hne : found.item ≠ .finish := by
      intro hfinish
      have hwritten := isWritten_lexemeFrom hfound
      rw [hfinish] at hwritten
      exact hwritten
    rw [run_succ_of_ne_finish hnext hne, ih]
    · rw [tokensOf, if_neg htimes]
      rfl
    · have hflag : found.item.isLiteral.toNat ≤ 1 := Bool.toNat_le _
      simp only [measure, List.length_drop]
      omega

/-- What is passed at the start and what is ahead make up the source. -/
theorem length_start (source : List Char) :
    (start source).position + (start source).ahead.length = source.length ∧
      source.drop (start source).position = (start source).ahead ∧
      (start source).afterLiteral = false := by
  rw [start.eq_def]
  split
  · exact ⟨Nat.add_comm .., rfl, rfl⟩
  · exact ⟨Nat.zero_add _, rfl, rfl⟩

/-- A source is scanned from its start, behind an equals sign if there is one. -/
theorem scan_eq_start (s : Spelling) (source : List Char) :
    scan s source = scanFrom s false (start source).position (start source).ahead := by
  rw [scan.eq_def]
  split
  · rfl
  · next hsource =>
    rw [start.eq_def]
    split
    · exact absurd rfl (hsource _)
    · rfl

/-- A scan of a source ends in time. -/
theorem run_start (s : Spelling) (source : List Char) :
    run s (2 * source.length + 1) (start source) = some (scan s source) := by
  obtain ⟨hlength, -, hliteral⟩ := length_start source
  rw [scan_eq_start, ← hliteral]
  apply run_eq_scanFrom
  rw [measure, hliteral, Bool.toNat_false]
  omega

end Scanner

/-! ## The characters of tokens -/

/-- Whether a token covers the character at a place. -/
def Token.covers (t : Token) (i : Nat) : Bool := decide (t.start ≤ i) && decide (i < t.stop)

/-- Where the tokens of a scan end: at the end of the text or at the flaw. -/
def Scan.reach (scan : Scan) (stop : Nat) : Nat := (scan.flaw.map (·.start)).getD stop

/-- Whether the tokens of a scan cover a source from some place on, up to its end or its flaw. -/
structure Scan.Covers (scan : Scan) (source : List Char) (start : Nat) : Prop where
  /-- The tokens stand in order and apart from each other. -/
  ordered : scan.tokens.Pairwise fun a b => a.stop ≤ b.start
  within : ∀ t ∈ scan.tokens,
    start ≤ t.start ∧ t.start ≤ t.stop ∧ t.stop ≤ scan.reach source.length
  /-- A character is in one token, or in none, and then it is skipped. -/
  covered : ∀ i (h : i < source.length), start ≤ i → i < scan.reach source.length →
    scan.tokens.countP (·.covers i) = 1 ∨
      scan.tokens.countP (·.covers i) = 0 ∧ isSkipped source[i] = true
  /-- The last token of a source without flaw is its end, which stands nowhere else. -/
  ended : scan.flaw = none → ∃ ts, (∀ t ∈ ts, t.lexeme ≠ .finish) ∧
    scan.tokens = ts ++ [⟨.finish, source.length, source.length⟩]
  /-- Any other token without characters is a multiplication that is understood, right between a
  literal and a name. -/
  understood : ∀ ts t us, scan.tokens = ts ++ t :: us → t.start = t.stop → t.lexeme ≠ .finish →
    t.lexeme = .times ∧ (∃ ts' l, ts = ts' ++ [l] ∧ l.lexeme.isLiteral = true) ∧
      ∃ us' r, us = r :: us' ∧ r.lexeme.isName = true ∧ r.start = t.start

section
variable {s : Spelling} {afterLiteral : Bool} {start : Nat} {found : Found Lexeme}

theorem pairwise_tokensOf :
    (tokensOf afterLiteral start found).Pairwise fun a b => a.stop ≤ b.start := by
  rw [tokensOf]
  split <;> simp

/-- A multiplication that is understood covers nothing. -/
theorem countP_tokensOf (i : Nat) : (tokensOf afterLiteral start found).countP (·.covers i) =
    if start ≤ i ∧ i < start + found.length then 1 else 0 := by
  have hnone : ¬ (start ≤ i ∧ i < start) := by omega
  rw [tokensOf]
  split <;> simp [Token.covers, List.countP_cons, hnone]

end

/-! ## The tokens of a text -/

section
variable {s : Spelling} {scan : Scan} {ts : List Token} {stop : Nat}

@[simp] theorem Scan.reach_prepend : (scan.prepend ts).reach stop = scan.reach stop := rfl

@[simp] theorem Scan.tokens_prepend : (scan.prepend ts).tokens = ts ++ scan.tokens := rfl

/-- Where a text ends of which a token and the blanks before it were passed. -/
theorem add_length_passed {position : Nat} {blanks rest : List Char} {c : Char}
    {found : Found Lexeme} (h : lexemeFrom s c rest = .ok found) :
    position + blanks.length + found.length + (rest.drop (found.length - 1)).length =
      position + (blanks ++ c :: rest).length := by
  obtain ⟨hpos, hle⟩ := length_lexemeFrom h
  simp only [List.length_drop, List.length_append, List.length_cons]
  omega

end

variable (s : Spelling) (afterLiteral : Bool) (position : Nat) (text : List Char)

/-- Every token lies in the source, in the part that was reached when a token is missed. -/
theorem scanFrom_bounds :
    position ≤ (scanFrom s afterLiteral position text).reach (position + text.length) ∧
      ∀ t ∈ (scanFrom s afterLiteral position text).tokens, position ≤ t.start ∧
        t.start ≤ t.stop ∧
          t.stop ≤ (scanFrom s afterLiteral position text).reach (position + text.length) := by
  refine @scanFrom_induct s (fun _ position text scan =>
    position ≤ scan.reach (position + text.length) ∧ ∀ t ∈ scan.tokens, position ≤ t.start ∧
      t.start ≤ t.stop ∧ t.stop ≤ scan.reach (position + text.length))
    ?_ ?_ ?_ afterLiteral position text
  · intro _ position blanks _
    simp [Scan.reach]
  · intro _ position blanks c rest found _ _ _
    simp [Scan.reach]
  · intro afterLiteral position blanks c rest found _ _ hfound ih
    rw [add_length_passed hfound] at ih
    obtain ⟨hreach, hbehind⟩ := ih
    rw [Scan.reach_prepend, Scan.tokens_prepend]
    refine ⟨by omega, ?_⟩
    intro t ht
    rcases List.mem_append.mp ht with ht | ht
    · have := bounds_tokensOf ht
      omega
    · have := hbehind t ht
      omega

/-- Tokens stand one behind another. -/
theorem scanFrom_pairwise :
    (scanFrom s afterLiteral position text).tokens.Pairwise fun a b => a.stop ≤ b.start := by
  refine @scanFrom_induct s (fun _ _ _ scan => scan.tokens.Pairwise fun a b => a.stop ≤ b.start)
    ?_ ?_ ?_ afterLiteral position text
  · intro _ _ _ _
    exact List.pairwise_singleton ..
  · intro _ _ _ _ _ _ _ _ _
    exact .nil
  · intro afterLiteral position blanks c rest found _ _ _ ih
    rw [Scan.tokens_prepend, List.pairwise_append]
    refine ⟨pairwise_tokensOf, ih, ?_⟩
    intro a ha b hb
    exact Nat.le_trans (bounds_tokensOf ha).2.2 ((scanFrom_bounds ..).2 b hb).1

/-- A character is in one token, or it is skipped. -/
theorem scanFrom_covered : ∀ i (h : i < text.length),
    position + i < (scanFrom s afterLiteral position text).reach (position + text.length) →
      (scanFrom s afterLiteral position text).tokens.countP (·.covers (position + i)) = 1 ∨
        (scanFrom s afterLiteral position text).tokens.countP (·.covers (position + i)) = 0 ∧
          isSkipped text[i] = true := by
  refine @scanFrom_induct s (fun _ position text scan => ∀ i (h : i < text.length),
    position + i < scan.reach (position + text.length) →
      scan.tokens.countP (·.covers (position + i)) = 1 ∨
        scan.tokens.countP (·.covers (position + i)) = 0 ∧ isSkipped text[i] = true)
    ?_ ?_ ?_ afterLiteral position text
  · intro _ position blanks hblanks i hi _
    refine .inr ⟨?_, hblanks _ (List.getElem_mem hi)⟩
    simp [Token.covers, hi]
  · intro _ position blanks c rest found hblanks _ _ i _ hreach
    have hi : i < blanks.length := by simpa [Scan.reach] using hreach
    refine .inr ⟨rfl, ?_⟩
    rw [List.getElem_append_left hi]
    exact hblanks _ (List.getElem_mem hi)
  · intro afterLiteral position blanks c rest found hblanks _ hfound ih i hi hreach
    rw [add_length_passed hfound] at ih
    obtain ⟨hpos, hle⟩ := length_lexemeFrom hfound
    rw [Scan.tokens_prepend, List.countP_append, countP_tokensOf]
    by_cases hbehind : position + blanks.length + found.length ≤ position + i
    · -- The character stands behind the token that was found.
      have hplace : position + blanks.length + found.length +
          (i - blanks.length - found.length) = position + i := by omega
      have hlt : i - blanks.length - found.length < (rest.drop (found.length - 1)).length := by
        simp only [List.length_append, List.length_cons, List.length_drop] at hi ⊢
        omega
      have hcovered := ih (i - blanks.length - found.length) hlt (by rw [hplace]; exact hreach)
      have hsame : (rest.drop (found.length - 1))[i - blanks.length - found.length] =
          (blanks ++ c :: rest)[i] := by
        rw [List.getElem_append_right (by omega), List.getElem_cons, dif_neg (by omega),
          List.getElem_drop]
        congr 1
        omega
      rw [hplace, hsame] at hcovered
      rw [if_neg (by omega), Nat.zero_add]
      exact hcovered
    · -- It stands in that token or before it, and so in none behind it.
      have hzero : (scanFrom s found.item.isLiteral (position + blanks.length + found.length)
          (rest.drop (found.length - 1))).tokens.countP (·.covers (position + i)) = 0 := by
        rw [List.countP_eq_zero]
        intro t ht
        have := (scanFrom_bounds ..).2 t ht
        simp only [Token.covers, Bool.and_eq_true, decide_eq_true_eq]
        omega
      rw [hzero]
      by_cases hi' : i < blanks.length
      · refine .inr ⟨if_neg (by omega), ?_⟩
        rw [List.getElem_append_left hi']
        exact hblanks _ (List.getElem_mem hi')
      · exact .inl (if_pos (by omega))

/-- A text without flaw ends with its end. -/
theorem scanFrom_ended (h : (scanFrom s afterLiteral position text).flaw = none) :
    ∃ ts, (∀ t ∈ ts, t.lexeme ≠ .finish) ∧ (scanFrom s afterLiteral position text).tokens =
      ts ++ [⟨.finish, position + text.length, position + text.length⟩] := by
  revert h
  refine @scanFrom_induct s (fun _ position text scan => scan.flaw = none →
    ∃ ts, (∀ t ∈ ts, t.lexeme ≠ .finish) ∧
      scan.tokens = ts ++ [⟨.finish, position + text.length, position + text.length⟩])
    ?_ ?_ ?_ afterLiteral position text
  · exact fun _ _ _ _ _ => ⟨[], List.forall_mem_nil _, rfl⟩
  · exact fun _ _ _ _ _ _ _ _ _ h => absurd h (by simp)
  · intro afterLiteral position blanks c rest found _ _ hfound ih h
    rw [add_length_passed hfound] at ih
    obtain ⟨ts, hts, htokens⟩ := ih h
    refine ⟨tokensOf afterLiteral (position + blanks.length) found ++ ts, ?_, ?_⟩
    · intro t ht
      rcases List.mem_append.mp ht with ht | ht
      · have hwritten := isWritten_tokensOf (isWritten_lexemeFrom hfound) t ht
        rintro hfinish
        rw [hfinish] at hwritten
        exact hwritten
      · exact hts t ht
    · rw [Scan.tokens_prepend, htokens, List.append_assoc]

/-- A token without characters is a multiplication that is understood, or the end.  The first one
of a text has its literal before the text. -/
theorem scanFrom_understood : ∀ ts t us,
    (scanFrom s afterLiteral position text).tokens = ts ++ t :: us → t.start = t.stop →
      t.lexeme ≠ .finish → t.lexeme = .times ∧
        (ts = [] ∧ afterLiteral = true ∨ ∃ ts' l, ts = ts' ++ [l] ∧ l.lexeme.isLiteral = true) ∧
          ∃ us' r, us = r :: us' ∧ r.lexeme.isName = true ∧ r.start = t.start := by
  refine @scanFrom_induct s (fun afterLiteral position text scan => ∀ ts t us,
    scan.tokens = ts ++ t :: us → t.start = t.stop → t.lexeme ≠ .finish → t.lexeme = .times ∧
      (ts = [] ∧ afterLiteral = true ∨ ∃ ts' l, ts = ts' ++ [l] ∧ l.lexeme.isLiteral = true) ∧
        ∃ us' r, us = r :: us' ∧ r.lexeme.isName = true ∧ r.start = t.start)
    ?_ ?_ ?_ afterLiteral position text
  · intro _ _ _ _ ts t us htokens _ hne
    have hmem : t ∈ ts ++ t :: us := by simp
    rw [← htokens, List.mem_singleton] at hmem
    exact absurd (by rw [hmem]) hne
  · intro _ _ _ _ _ _ _ _ _ ts t us htokens
    simp at htokens
  · intro afterLiteral position blanks c rest found _ _ hfound ih ts t us htokens hempty hne
    obtain ⟨hpos, -⟩ := length_lexemeFrom hfound
    rcases append_eq_append_cons htokens with ⟨ts', rfl, hbehind⟩ | ⟨us', hhere, rfl⟩
    · obtain ⟨htimes, hbefore, hnext⟩ := ih ts' t us hbehind hempty hne
      refine ⟨htimes, .inr ?_, hnext⟩
      rcases hbefore with ⟨rfl, hliteral⟩ | ⟨ts'', l, rfl, hl⟩
      · -- The literal is the token that was found here.
        rw [List.append_nil]
        rcases @tokensOf_cases found afterLiteral (position + blanks.length) with
          ⟨-, -, hfound⟩ | hfound
        · exact ⟨[_], _, hfound, hliteral⟩
        · exact ⟨[], _, hfound, hliteral⟩
      · exact ⟨tokensOf afterLiteral (position + blanks.length) found ++ ts'', l, by simp, hl⟩
    · -- What was found has characters, so the token is the multiplication before it.
      have hlong : t ≠ ⟨found.item, position + blanks.length,
          position + blanks.length + found.length⟩ := by
        rintro rfl
        dsimp only at hempty
        omega
      rcases @tokensOf_cases found afterLiteral (position + blanks.length) with
        ⟨hliteral, hname, hfound⟩ | hfound
      · rw [hfound] at hhere
        rcases ts with _ | ⟨t', _ | ⟨t'', ts⟩⟩
        · cases hhere
          exact ⟨rfl, .inl ⟨rfl, hliteral⟩, _, _, rfl, hname, rfl⟩
        · cases hhere
          exact absurd rfl hlong
        · simp at hhere
      · rw [hfound] at hhere
        rcases ts with _ | ⟨t', ts⟩
        · cases hhere
          exact absurd rfl hlong
        · simp at hhere

/-! ## The tokens of a source -/

/-- Where the formula in a source starts, behind an equals sign if there is one. -/
theorem Scanner.position_start (source : List Char) :
    (start source).position = if source.head? = some '=' then 1 else 0 := by
  rw [start.eq_def]
  split
  · rfl
  · next hsource =>
    rw [if_neg]
    intro hhead
    obtain ⟨rest, rfl⟩ := List.head?_eq_some_iff.mp hhead
    exact hsource rest rfl

/-- A source is cut into tokens within twice as many steps as it has characters and one more, and
what is cut covers it: whatever the culture and the characters of names, its tokens stand in order,
they leave out nothing but blanks, the end comes last, and only multiplications that are understood
have no characters, each between a literal and a name. -/
theorem scan_covers (s : Spelling) (source : List Char) :
    Scanner.run s (2 * source.length + 1) (.start source) = some (scan s source) ∧
      (scan s source).Covers source (if source.head? = some '=' then 1 else 0) := by
  obtain ⟨hlength, hahead, -⟩ := Scanner.length_start source
  refine ⟨Scanner.run_start s source, ?_⟩
  rw [← Scanner.position_start, Scanner.scan_eq_start]
  have hbounds := scanFrom_bounds s false (Scanner.start source).position
    (Scanner.start source).ahead
  have hcovered := scanFrom_covered s false (Scanner.start source).position
    (Scanner.start source).ahead
  have hended := scanFrom_ended s false (Scanner.start source).position
    (Scanner.start source).ahead
  rw [hlength] at hbounds hcovered hended
  refine ⟨scanFrom_pairwise .., hbounds.2, ?_, hended, ?_⟩
  · intro i hi hstart hreach
    obtain ⟨k, rfl⟩ := Nat.exists_eq_add_of_le hstart
    have hk : k < (Scanner.start source).ahead.length := by omega
    have hsame : (Scanner.start source).ahead[k] = source[(Scanner.start source).position + k] := by
      simp only [← hahead, List.getElem_drop]
    rw [← hsame]
    exact hcovered k hk hreach
  · intro ts t us htokens hempty hne
    obtain ⟨htimes, hbefore, hnext⟩ := scanFrom_understood _ _ _ _ ts t us htokens hempty hne
    exact ⟨htimes, hbefore.resolve_left fun h => Bool.false_ne_true h.2, hnext⟩

end Formula
