import Formula.Proofs.Token.Numeral

/-!
# Tokens that do not depend on what follows

A token that ends inside a text is found again when the text is followed by something else, if this
starts with a character that goes on with no token.
-/

namespace Formula

/-- The token that starts with a character, in the invariant culture. -/
theorem lexemeFrom_invariant {s : Spelling} (hculture : s.culture = {}) (c : Char)
    (rest : List Char) :
    lexemeFrom s c rest =
      if Numeral.startsWith {} c rest then numberFrom {} (c :: rest)
      else if c = ',' then .ok ⟨.separator c, 1⟩
      else
        match signAt? c rest with
        | some found => .ok found
        | none =>
          if c = '"' ∨ c = '\'' then textFrom c [] 1 rest
          else if c = '#' then dateFrom {} rest
          else nameFrom s c rest := by
  obtain ⟨culture, nameChars⟩ := s
  subst hculture
  rfl

/-! ## Signs of one character -/

/-- A character that starts no double operator is a sign of its own or none, whatever follows. -/
theorem signAt?_of_not_mem {c : Char} (h : c ∉ ['<', '=', '>', '&', '|']) (rest : List Char) :
    signAt? c rest = (sign? c).map (⟨·, 1⟩) := by
  have hdouble : ∀ d, doubleOperator? c d = none := by
    intro d
    rw [doubleOperator?.eq_def]
    split <;> first | rfl | exact absurd (by decide) h
  have hnone : rest.head?.bind (doubleOperator? c) = none := by
    rw [Option.bind_eq_none_iff]
    exact fun d _ => hdouble d
  rw [signAt?, hnone]

/-! ## Texts in quotes -/

section
variable {quote c : Char} {done rest : List Char} {length : Nat}

theorem textFrom_quote : textFrom quote done length (quote :: quote :: rest) =
    textFrom quote ('"' :: done) (length + 2) rest := by
  rw [textFrom, if_pos rfl, if_pos rfl]

/-- A single quote closes the text. -/
theorem textFrom_closing (h : ∀ d ∈ rest.head?, d ≠ quote) :
    textFrom quote done length (quote :: rest) =
      .ok ⟨.literal (.text (String.ofList done.reverse)), length + 1⟩ := by
  cases rest with
  | nil => rw [textFrom, if_pos rfl]
  | cons d rest => rw [textFrom, if_pos rfl, if_neg (h d rfl)]

theorem textFrom_other (h : c ≠ quote) {d : Char} :
    textFrom quote done length (c :: d :: rest) =
      textFrom quote (c :: done) (length + 1) (d :: rest) := by
  rw [textFrom, if_neg h]

end

/-! ## How long tokens are -/

/-- A text is longer than what was passed of it, and lies in the source. -/
theorem length_textFrom {quote : Char} {done text : List Char} {length : Nat}
    {found : Found Lexeme} (h : textFrom quote done length text = .ok found) :
    length < found.length ∧ found.length ≤ length + text.length := by
  fun_induction textFrom quote done length text with
  | case1 | case3 => cases h
  | case2 | case5 =>
    cases h
    simp only [List.length_cons]
    omega
  | case4 _ _ _ ih | case6 _ _ _ _ _ _ ih =>
    have := ih h
    simp only [List.length_cons] at this ⊢
    omega

/-- A sign takes a character or more, all of them in the source. -/
theorem length_signAt? {c : Char} {rest : List Char} {found : Found Lexeme}
    (h : signAt? c rest = some found) :
    1 ≤ found.length ∧ found.length ≤ rest.length + 1 := by
  rw [signAt?] at h
  split at h
  · next hop =>
    cases h
    cases rest with
    | nil => cases hop
    | cons => simp
  · obtain ⟨l, -, rfl⟩ := Option.map_eq_some_iff.mp h
    exact ⟨Nat.le_refl _, Nat.le_add_left ..⟩

/-- A token has at least one character, and all of them stand in the text. -/
theorem length_lexemeFrom {s : Spelling} {c : Char} {rest : List Char} {found : Found Lexeme}
    (h : lexemeFrom s c rest = .ok found) :
    1 ≤ found.length ∧ found.length ≤ rest.length + 1 := by
  rw [lexemeFrom] at h
  split at h
  · next hstarts =>
    rw [numberFrom] at h
    split at h
    · cases h
      exact ⟨(length_numeral_pos hstarts).1, length_numeral_le _⟩
    · cases h
  split at h
  · cases h
    exact ⟨Nat.le_refl _, Nat.le_add_left ..⟩
  split at h
  · next hsign =>
    cases h
    exact length_signAt? hsign
  split at h
  · have := length_textFrom h
    omega
  split at h
  · rw [dateFrom] at h
    have hbody := (List.takeWhile_sublist (· != '#') (l := rest)).length_le
    split at h
    · cases h
    split at h
    · cases h
      dsimp only
      omega
    · cases h
  · rw [nameFrom] at h
    split at h
    · cases h
      have hname := (List.takeWhile_sublist s.continuesName (l := rest)).length_le
      simp only [List.length_cons]
      omega
    · cases h

/-! ## Single tokens before other texts -/

section
variable {s : Spelling} {c : Char} {r v v' : List Char} {found : Found Lexeme}

/-- A text that closes within a part is the same whatever stands behind the part, unless another
quote comes to stand behind its closing one. -/
theorem textFrom_append {quote : Char} {done : List Char} {length : Nat}
    (hquote : v'.head? = some quote → v.head? = some quote)
    (h : textFrom quote done length (r ++ v) = .ok found)
    (hlen : found.length ≤ length + r.length) :
    textFrom quote done length (r ++ v') = .ok found := by
  induction hr : r.length using Nat.strongRecOn generalizing r done length with
  | ind size ih =>
  have hlong := length_textFrom h
  cases r with
  | nil =>
    rw [List.length_nil] at hlen
    omega
  | cons c r =>
  rw [List.length_cons] at hlen hr
  rw [List.cons_append] at h ⊢
  by_cases hc : c = quote
  · subst hc
    cases r with
    | cons d r =>
      by_cases hd : d = c
      · subst hd
        rw [List.cons_append, textFrom_quote] at h ⊢
        rw [List.length_cons] at hlen hr
        exact ih r.length (by omega) h (by omega) rfl
      · rw [textFrom_closing (by simpa using hd)] at h ⊢
        exact h
    | nil =>
      -- The quote is the last character, so it closes the text if no other quote follows.
      rw [List.nil_append] at h ⊢
      by_cases hd : v.head? = some c
      · obtain ⟨rest, rfl⟩ := List.head?_eq_some_iff.mp hd
        rw [textFrom_quote] at h
        have := length_textFrom h
        rw [List.length_nil] at hlen
        omega
      · have hv : ∀ d ∈ v.head?, d ≠ c := by
          rintro d hhead rfl
          exact hd hhead
        have hv' : ∀ d ∈ v'.head?, d ≠ c := by
          rintro d hhead rfl
          exact hd (hquote hhead)
        rw [textFrom_closing hv] at h
        rw [textFrom_closing hv']
        exact h
  · cases r with
    | cons d r =>
      rw [List.cons_append, textFrom_other hc] at h ⊢
      rw [← List.cons_append] at h ⊢
      exact ih (d :: r).length (by omega) h (by omega) rfl
    | nil =>
      rw [List.nil_append] at h
      rw [List.length_nil] at hlen
      cases v with
      | nil =>
        rw [textFrom, if_neg hc] at h
        cases h
      | cons d rest =>
        rw [textFrom_other hc] at h
        have := length_textFrom h
        omega

/-- A date that is closed within a part is the same whatever stands behind. -/
theorem dateFrom_append {culture : Culture} (h : dateFrom culture (r ++ v) = .ok found)
    (hlen : found.length ≤ r.length + 1) : dateFrom culture (r ++ v') = .ok found := by
  rw [dateFrom] at h ⊢
  split at h
  · cases h
  split at h
  · next date hdate =>
    cases h
    dsimp only at hlen
    -- The closing mark lies within `r`, so the body of the date does too.
    have hbody : (r ++ v').takeWhile (· != '#') = (r ++ v).takeWhile (· != '#') :=
      takeWhile_append_eq_of_lt (by omega)
    rw [hbody, if_neg, hdate]
    rw [List.length_append]
    omega
  · cases h

variable (hv' : EndsToken s v')
include hv'

/-- So is a number that lies within a part before the end of a token. -/
theorem numberFrom_append (h : numberFrom s.culture (r ++ v) = .ok found)
    (hlen : found.length ≤ r.length) : numberFrom s.culture (r ++ v') = .ok found := by
  have hnumeral : Numeral.start s.culture (r ++ v') = Numeral.start s.culture (r ++ v) := by
    apply numeral_append_eq _ hv'
    rw [numberFrom] at h
    split at h
    · cases h
      exact hlen
    · cases h
  rw [numberFrom, hnumeral]
  exact h

/-- Whether a number starts is told by its first character, or by that and the next, which lies
within the part. -/
theorem startsWith_append
    (h : Numeral.startsWith s.culture c (r ++ v) = true → Text.isDigit c = false → r ≠ []) :
    Numeral.startsWith s.culture c (r ++ v') = Numeral.startsWith s.culture c (r ++ v) := by
  cases r with
  | cons d r => rfl
  | nil =>
    by_cases hc : Text.isDigit c = true
    · rw [Numeral.startsWith, Numeral.startsWith, hc, Bool.true_or, Bool.true_or]
    · rw [Bool.not_eq_true] at hc
      have hfalse : Numeral.startsWith s.culture c v = false := by
        rw [← Bool.not_eq_true]
        exact fun hstarts => h hstarts hc rfl
      have hhead : v'.head?.any Text.isDigit = false := (Option.any_eq_false ..).mpr hv'.isDigit
      rw [List.nil_append, List.nil_append, hfalse, Numeral.startsWith, hc, hhead, Bool.and_false]
      rfl

/-- So is a sign or an operator that lies within the part. -/
theorem signAt?_append
    (h : ∀ found, signAt? c (r ++ v) = some found → found.length ≤ r.length + 1) :
    signAt? c (r ++ v') = signAt? c (r ++ v) := by
  cases r with
  | cons d r => rfl
  | nil =>
    -- A sign of two characters would not end within `r`.
    have hnone : v.head?.bind (doubleOperator? c) = none := by
      cases hop : v.head?.bind (doubleOperator? c) with
      | none => rfl
      | some op =>
        have htwo := h ⟨.operator op (String.ofList (c :: v.take 1)), 2⟩
          (by rw [signAt?, List.nil_append, hop])
        exact absurd htwo (by simp)
    have hnone' : v'.head?.bind (doubleOperator? c) = none := by
      rw [Option.bind_eq_none_iff]
      exact fun d hd => hv'.doubleOperator? c d hd
    rw [signAt?, signAt?, List.nil_append, List.nil_append, hnone, hnone']

/-- A name that ends within a part is the same before the end of a token. -/
theorem nameFrom_append (h : nameFrom s c (r ++ v) = .ok found)
    (hlen : found.length ≤ r.length + 1) : nameFrom s c (r ++ v') = .ok found := by
  rw [nameFrom] at h ⊢
  split at h
  · next hstarts =>
    rw [if_pos hstarts]
    rw [← h]
    cases h
    have hrun : (r ++ v').takeWhile s.continuesName =
        (r ++ v).takeWhile s.continuesName :=
      takeWhile_append_eq (Nat.le_of_succ_le_succ hlen) hv'.continuesName
    rw [hrun]
  · cases h

/-- A token that ends inside a text is found again before any end of a token. -/
theorem lexemeFrom_append (h : lexemeFrom s c (r ++ v) = .ok found)
    (hlen : found.length ≤ r.length + 1) : lexemeFrom s c (r ++ v') = .ok found := by
  have hnumber :
      Numeral.startsWith s.culture c (r ++ v') = Numeral.startsWith s.culture c (r ++ v) := by
    apply startsWith_append hv'
    rintro hstarts hdigit rfl
    -- A number that starts with a point has a digit behind it, which is in `r`.
    have htwo := (length_numeral_pos hstarts).2 hdigit
    rw [lexemeFrom, if_pos hstarts, numberFrom] at h
    split at h
    · cases h
      exact absurd (Nat.le_trans htwo hlen) (by decide)
    · cases h
  rw [lexemeFrom] at h ⊢
  rw [hnumber]
  split at h
  · next hstarts =>
    rw [if_pos hstarts]
    exact @numberFrom_append s (c :: r) v v' found hv' h hlen
  next hstarts =>
  rw [if_neg hstarts]
  split at h
  · next hc =>
    rw [if_pos hc]
    exact h
  next hc =>
  rw [if_neg hc]
  have hsign : signAt? c (r ++ v') = signAt? c (r ++ v) := by
    apply signAt?_append hv'
    intro found' hfound'
    rw [hfound'] at h
    cases h
    exact hlen
  rw [hsign]
  split at h
  · exact h
  split at h
  · next hquote =>
    rw [if_pos hquote]
    have hsigns : ¬ s.SetsOff c := by
      intro hc
      have hmem := hc.not_mem_signs
      rcases hquote with rfl | rfl <;> exact hmem (by decide)
    exact textFrom_append (fun hhead => absurd hhead (hv'.ne_of_head? hsigns)) h (by omega)
  next hquote =>
  rw [if_neg hquote]
  split at h
  · next hmark =>
    rw [if_pos hmark]
    exact dateFrom_append h hlen
  · next hmark =>
    rw [if_neg hmark]
    exact nameFrom_append hv' h hlen

end

end Formula
