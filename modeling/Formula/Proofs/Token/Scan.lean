import Formula.Proofs.Token.Found

/-!
# Where a scan ends

The tokens of a source without flaw end with its end, which stands nowhere else among them; those of
a source with a flaw have no end.  All others are written in the source.
-/

namespace Formula

variable {s : Spelling} {found : Found Lexeme}

/-! ## Steps of a scan -/

/-- A text with a character that is not skipped has only blanks before the first. -/
theorem blanks_append {text rest : List Char} {c : Char}
    (h : text.dropWhile isSkipped = c :: rest) :
    isSkipped c = false ∧ text.takeWhile isSkipped ++ c :: rest = text := by
  have happend := List.takeWhile_append_dropWhile (p := isSkipped) (l := text)
  have hc := List.head?_dropWhile_not isSkipped text
  rw [h] at happend hc
  exact ⟨by simpa using hc, happend⟩

/-- A scan behind some blanks takes the token that starts there. -/
theorem scanFrom_ok {afterLiteral : Bool} {position : Nat} {blanks rest : List Char} {c : Char}
    (hblanks : ∀ b ∈ blanks, isSkipped b = true) (hc : isSkipped c = false)
    (h : lexemeFrom s c rest = .ok found) :
    scanFrom s afterLiteral position (blanks ++ c :: rest) =
      (scanFrom s found.item.isLiteral (position + blanks.length + found.length)
        (rest.drop (found.length - 1))).prepend
          (tokensOf afterLiteral (position + blanks.length) found) := by
  have htake : (blanks ++ c :: rest).takeWhile isSkipped = blanks := by
    rw [List.takeWhile_append_of_pos hblanks, List.takeWhile_cons, hc, if_neg Bool.false_ne_true,
      List.append_nil]
  have hdrop : (blanks ++ c :: rest).dropWhile isSkipped = c :: rest := by
    rw [List.dropWhile_append_of_pos hblanks, List.dropWhile_cons, hc, if_neg Bool.false_ne_true]
  rw [scanFrom, htake]
  split
  · next hnil =>
    rw [hdrop] at hnil
    cases hnil
  · next hcons =>
    rw [hdrop] at hcons
    cases hcons
    rw [h]

theorem scanFrom_nil {afterLiteral : Bool} {position : Nat} :
    scanFrom s afterLiteral position [] = ⟨[⟨.finish, position, position⟩], none⟩ := by
  rw [scanFrom]
  rfl

/-- Induction on a scan: behind some blanks it ends with the end of the source or with a flaw, or
goes on behind a token. -/
theorem scanFrom_induct {motive : Bool → Nat → List Char → Scan → Prop}
    (finish : ∀ afterLiteral position blanks, (∀ b ∈ blanks, isSkipped b = true) →
      motive afterLiteral position blanks
        ⟨[⟨.finish, position + blanks.length, position + blanks.length⟩], none⟩)
    (flawed : ∀ afterLiteral position blanks c rest found,
      (∀ b ∈ blanks, isSkipped b = true) → isSkipped c = false →
      lexemeFrom s c rest = .error found →
      motive afterLiteral position (blanks ++ c :: rest) ⟨[], some ⟨found.item,
        position + blanks.length, position + blanks.length + found.length⟩⟩)
    (token : ∀ afterLiteral position blanks c rest found,
      (∀ b ∈ blanks, isSkipped b = true) → isSkipped c = false → lexemeFrom s c rest = .ok found →
      motive found.item.isLiteral (position + blanks.length + found.length)
        (rest.drop (found.length - 1)) (scanFrom s found.item.isLiteral
          (position + blanks.length + found.length) (rest.drop (found.length - 1))) →
      motive afterLiteral position (blanks ++ c :: rest) ((scanFrom s found.item.isLiteral
        (position + blanks.length + found.length) (rest.drop (found.length - 1))).prepend
          (tokensOf afterLiteral (position + blanks.length) found)))
    (afterLiteral : Bool) (position : Nat) (text : List Char) :
    motive afterLiteral position text (scanFrom s afterLiteral position text) := by
  fun_induction scanFrom s afterLiteral position text with
  | case1 afterLiteral position text start hdrop =>
    have htext := List.takeWhile_append_dropWhile (p := isSkipped) (l := text)
    rw [hdrop, List.append_nil] at htext
    have hblanks : ∀ b ∈ text, isSkipped b = true := by
      rw [← htext]
      exact fun b hb => List.mem_takeWhile_imp hb
    have hfinish := finish afterLiteral position text hblanks
    rwa [← congrArg List.length htext] at hfinish
  | case2 afterLiteral position text start c rest hdrop found h =>
    obtain ⟨hc, htext⟩ := blanks_append hdrop
    have hstop := flawed afterLiteral position (text.takeWhile isSkipped) c rest found
      (fun b hb => List.mem_takeWhile_imp hb) hc h
    rwa [htext] at hstop
  | case3 afterLiteral position text start c rest hdrop found h behind ih =>
    obtain ⟨hc, htext⟩ := blanks_append hdrop
    have hstep := token afterLiteral position (text.takeWhile isSkipped) c rest found
      (fun b hb => List.mem_takeWhile_imp hb) hc h ih
    rwa [htext] at hstep

/-! ## All tokens -/

/-- How a scan ends: all its tokens but the end of the source are written there. -/
inductive Scan.Ends (s : Spelling) : Scan → Prop where
  | whole {ts : List Token} {n : Nat} : (∀ t ∈ ts, t.lexeme.IsWritten s) →
      Ends s ⟨ts ++ [⟨.finish, n, n⟩], none⟩
  | flawed {ts : List Token} {flaw : Flaw} : (∀ t ∈ ts, t.lexeme.IsWritten s) →
      Ends s ⟨ts, some flaw⟩

section
variable {afterLiteral : Bool} {start : Nat}

/-- What was found comes last; before it there may be a multiplication that is understood. -/
theorem tokensOf_cases :
    (afterLiteral = true ∧ found.item.isName = true ∧ tokensOf afterLiteral start found =
      [⟨.times, start, start⟩, ⟨found.item, start, start + found.length⟩]) ∨
    tokensOf afterLiteral start found = [⟨found.item, start, start + found.length⟩] := by
  rw [tokensOf]
  split
  · next h =>
    rw [Bool.and_eq_true] at h
    exact .inl ⟨h.1, h.2, rfl⟩
  · exact .inr rfl

/-- The tokens of what is found lie between its start and its end. -/
theorem bounds_tokensOf {t : Token} (h : t ∈ tokensOf afterLiteral start found) :
    start ≤ t.start ∧ t.start ≤ t.stop ∧ t.stop ≤ start + found.length := by
  rcases @tokensOf_cases found afterLiteral start with ⟨-, -, htokens⟩ | htokens
  · rw [htokens] at h
    simp only [List.mem_cons, List.not_mem_nil, or_false] at h
    rcases h with rfl | rfl <;> simp
  · rw [htokens, List.mem_singleton] at h
    simp [h]

end

/-- What is found is what they hold, besides the product that is left out before a name. -/
theorem isWritten_tokensOf {afterLiteral : Bool} {start : Nat} (h : found.item.IsWritten s) :
    ∀ t ∈ tokensOf afterLiteral start found, t.lexeme.IsWritten s := by
  intro t ht
  rw [tokensOf] at ht
  split at ht
  · rcases List.mem_cons.mp ht with rfl | ht
    · trivial
    · rw [List.mem_singleton.mp ht]
      exact h
  · rw [List.mem_singleton.mp ht]
    exact h

namespace Scan.Ends

variable {scan : Scan} {ts us : List Token} {t : Token}

/-- A scan with more tokens in front still ends as it should. -/
theorem prepend (h : scan.Ends s) (hts : ∀ t ∈ ts, t.lexeme.IsWritten s) :
    (scan.prepend ts).Ends s := by
  cases h with
  | @whole us n hus =>
    have happend : ∀ t ∈ ts ++ us, t.lexeme.IsWritten s :=
      fun t ht => (List.mem_append.mp ht).elim (hts t) (hus t)
    have hends := @Scan.Ends.whole s _ n happend
    rwa [List.append_assoc] at hends
  | flawed hus => exact .flawed fun t ht => (List.mem_append.mp ht).elim (hts t) (hus t)

/-- A token that ends the source is the last one, and the source has no flaw. -/
theorem eq_of_finish (h : scan.Ends s) (htokens : scan.tokens = ts ++ t :: us)
    (ht : t.lexeme = .finish) : ∃ n, scan = ⟨ts ++ [⟨.finish, n, n⟩], none⟩ := by
  have hne : ∀ vs : List Token, (∀ t ∈ vs, t.lexeme.IsWritten s) → t ∉ vs := by
    intro vs hvs hmem
    have hfinish := hvs t hmem
    rw [ht] at hfinish
    exact hfinish
  cases h with
  | @whole vs n hvs =>
    simp only at htokens
    rcases List.eq_nil_or_concat us with rfl | ⟨us, u, rfl⟩
    · rw [← List.concat_eq_append, ← List.concat_eq_append, List.concat_inj] at htokens
      obtain ⟨rfl, -⟩ := htokens
      exact ⟨n, rfl⟩
    · have hsame : vs ++ [⟨.finish, n, n⟩] = (ts ++ t :: us) ++ [u] := by simpa using htokens
      obtain ⟨rfl, -⟩ := List.append_inj' hsame rfl
      exact absurd (by simp) (hne _ hvs)
  | flawed hvs =>
    simp only at htokens
    exact absurd (by simp [htokens]) (hne _ hvs)

/-- The tokens of a source without flaw are written there. -/
theorem isWritten {n : Nat} (h : Ends s ⟨ts ++ [⟨.finish, n, n⟩], none⟩) :
    ∀ t ∈ ts, t.lexeme.IsWritten s := by
  generalize hscan : Scan.mk (ts ++ [⟨.finish, n, n⟩]) none = scan at h
  cases h with
  | whole hvs =>
    rw [Scan.mk.injEq] at hscan
    obtain ⟨rfl, -⟩ := List.append_inj' hscan.1 rfl
    exact hvs
  | flawed => cases hscan

end Scan.Ends

/-- Every scan ends with the end of the source or with a flaw, by induction on the text that is
left. -/
theorem scanFrom_ends (s : Spelling) (afterLiteral : Bool) (position : Nat) (text : List Char) :
    (scanFrom s afterLiteral position text).Ends s := by
  refine @scanFrom_induct s (fun _ _ _ scan => scan.Ends s) ?_ ?_ ?_ afterLiteral position text
  · exact fun _ _ _ _ => @Scan.Ends.whole s [] _ (List.forall_mem_nil _)
  · exact fun _ _ _ _ _ _ _ _ _ => .flawed (List.forall_mem_nil _)
  · intro _ _ _ _ _ _ _ _ h ih
    exact ih.prepend (isWritten_tokensOf (isWritten_lexemeFrom h))

theorem scan_ends (s : Spelling) (source : List Char) : (scan s source).Ends s := by
  rw [scan.eq_def]
  split <;> exact scanFrom_ends ..

end Formula
