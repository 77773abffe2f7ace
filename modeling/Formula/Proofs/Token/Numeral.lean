import Formula.Proofs.Token.Scan

/-!
# Number literals and what follows them

The scanner takes the longest token it can.  A number literal that ends inside a text stays the same
when the text is followed by something else, provided that this starts with a character that goes on
with no token, such as a blank, a bracket or a comma in the invariant culture.
-/

namespace Formula

open Text (isDigit isAlphabetic isAlphanumeric)

/-- The spelling of tokens in the invariant culture. -/
def Spelling.plain : Spelling := {}

/-- What holds of each character of a list can be computed. -/
theorem forall_mem_of_all {l : List Char} {P : Char → Prop} [DecidablePred P]
    (h : (l.all fun c => decide (P c)) = true) : ∀ c ∈ l, P c :=
  fun c hc => of_decide_eq_true (List.all_eq_true.mp h c hc)

/-- Whether a character goes on with no token that stands before it. -/
structure Spelling.SetsOff (s : Spelling) (c : Char) : Prop where
  continuesName : s.continuesName c = false
  ne_decimalSeparator : c ≠ s.culture.decimalSeparator
  ne_percentSign : c ≠ s.culture.percentSign
  /-- It is no sign of an exponent, no second sign of an operator and no quote. -/
  not_mem_signs : c ∉ ['+', '-', '=', '>', '&', '|', '"', '\'']

namespace Spelling.SetsOff

variable {s : Spelling} {c : Char}

/-- Digits are among the characters that names go on with. -/
theorem isDigit (h : s.SetsOff c) : isDigit c = false := by
  have hdigits : ∀ n < 58, 48 ≤ n → isAlphanumeric (.ofNat n) = true := by decide +kernel
  by_contra hdigit
  rw [Bool.not_eq_false, Text.isDigit, Bool.and_eq_true, decide_eq_true_eq,
    decide_eq_true_eq] at hdigit
  have hzero : 48 ≤ c.toNat := hdigit.1
  have hnine : c.toNat ≤ 57 := hdigit.2
  have hname := hdigits c.toNat (by omega) hzero
  rw [Char.ofNat_toNat] at hname
  have hcontinues := h.continuesName
  rw [Spelling.continuesName, hname] at hcontinues
  cases hcontinues

/-- So are the markers of an exponent. -/
theorem ne_marker (h : s.SetsOff c) : ¬ (c = 'e' ∨ c = 'E') := by
  have hcontinues := h.continuesName
  rintro (rfl | rfl)
  · rw [Spelling.continuesName, show isAlphanumeric 'e' = true by decide +kernel] at hcontinues
    cases hcontinues
  · rw [Spelling.continuesName, show isAlphanumeric 'E' = true by decide +kernel] at hcontinues
    cases hcontinues

end Spelling.SetsOff

/-- Whether no token of a text goes on into what follows it. -/
def EndsToken (s : Spelling) (v : List Char) : Prop := ∀ c ∈ v.head?, s.SetsOff c

/-- The characters of the printed form that set off what stands before them. -/
def marks : List Char := [' ', '(', ')', '[', ']', ',']

/-- Whether the culture is the invariant one and no name goes on with a mark. -/
structure Spelling.Clear (s : Spelling) : Prop where
  culture : s.culture = {}
  marks : ∀ c ∈ marks, s.nameChars.contains c = false

theorem Spelling.clear_plain : Spelling.plain.Clear := ⟨rfl, fun _ _ => rfl⟩

/-- The marks of the language end a token, for the spelling lets none of them continue one. -/
theorem Spelling.Clear.setsOff {s : Spelling} (h : s.Clear) {c : Char} (hc : c ∈ Formula.marks) :
    s.SetsOff c := by
  have hmarks : ∀ c ∈ Formula.marks, (isAlphanumeric c || c == '_') = false ∧ c ≠ '.' ∧ c ≠ '%' ∧
      c ∉ ['+', '-', '=', '>', '&', '|', '"', '\''] :=
    forall_mem_of_all (by decide +kernel)
  obtain ⟨hname, hpoint, hpercent, hsigns⟩ := hmarks c hc
  refine ⟨?_, ?_, ?_, hsigns⟩
  · rw [Spelling.continuesName, hname, h.marks c hc]
    rfl
  · rw [h.culture]
    exact hpoint
  · rw [h.culture]
    exact hpercent

namespace EndsToken

variable {s : Spelling} {v : List Char} {c : Char}

theorem nil : EndsToken s [] := by simp [EndsToken]

/-- A character that sets off what stands before it ends a token there. -/
theorem cons (h : s.SetsOff c) : EndsToken s (c :: v) := by
  intro d hd
  rw [List.head?_cons, Option.mem_some_iff] at hd
  rw [← hd]
  exact h

theorem forall_head {P : Char → Prop} (h : EndsToken s v) (hall : ∀ c, s.SetsOff c → P c) :
    ∀ c ∈ v.head?, P c :=
  fun c hc => hall c (h c hc)

theorem ne_of_head? (h : EndsToken s v) (hc : ¬ s.SetsOff c) : v.head? ≠ some c :=
  fun hv => hc (h c hv)

theorem isDigit (h : EndsToken s v) : ∀ c ∈ v.head?, isDigit c = false :=
  h.forall_head fun _ hc => hc.isDigit

theorem continuesName (h : EndsToken s v) : ∀ c ∈ v.head?, s.continuesName c = false :=
  h.forall_head fun _ hc => hc.continuesName

/-- At the end of a token no character makes an operator of two. -/
theorem doubleOperator? (h : EndsToken s v) (first : Char) :
    ∀ c ∈ v.head?, doubleOperator? first c = none := by
  refine h.forall_head ?_
  intro c hc
  have hsigns := hc.not_mem_signs
  rw [doubleOperator?.eq_def]
  split <;> first | rfl | exact absurd (by decide) hsigns

end EndsToken

/-! ## Runs of characters -/

section
variable {p : Char → Bool} {u v v' : List Char}

/-- Nothing is passed where the first character fails the test. -/
theorem takeWhile_eq_nil_of_head? (h : ∀ c ∈ v.head?, p c = false) : v.takeWhile p = [] := by
  cases v with
  | nil => rfl
  | cons c v => rw [List.takeWhile_cons, h c rfl, if_neg Bool.false_ne_true]

/-- A run that ends inside a text ends at the same place before any text that does not go on with
it. -/
theorem exists_run (hlen : ((u ++ v).takeWhile p).length ≤ u.length)
    (hv' : ∀ c ∈ v'.head?, p c = false) : ∃ w u₁, u = w ++ u₁ ∧
      (u ++ v).takeWhile p = w ∧ (u ++ v).dropWhile p = u₁ ++ v ∧
      (u ++ v').takeWhile p = w ∧ (u ++ v').dropWhile p = u₁ ++ v' := by
  induction u with
  | nil =>
    have hnil : v.takeWhile p = [] := List.eq_nil_of_length_eq_zero (Nat.le_zero.mp hlen)
    have hnil' : v'.takeWhile p = [] := takeWhile_eq_nil_of_head? hv'
    refine ⟨[], [], rfl, hnil, ?_, hnil', ?_⟩
    · have := List.takeWhile_append_dropWhile (p := p) (l := v)
      rwa [hnil] at this
    · have := List.takeWhile_append_dropWhile (p := p) (l := v')
      rwa [hnil'] at this
  | cons c u ih =>
    by_cases hc : p c = true
    · simp only [List.cons_append, List.takeWhile_cons, hc, if_true, List.length_cons] at hlen
      obtain ⟨w, u₁, rfl, ht, hd, ht', hd'⟩ := ih (by omega)
      refine ⟨c :: w, u₁, rfl, ?_⟩
      simp only [List.cons_append (a := c), List.takeWhile_cons, List.dropWhile_cons, hc, if_true,
        ht, hd, ht', hd', and_self]
    · refine ⟨[], c :: u, rfl, ?_⟩
      simp [hc]

theorem takeWhile_append_eq (hlen : ((u ++ v).takeWhile p).length ≤ u.length)
    (hv' : ∀ c ∈ v'.head?, p c = false) : (u ++ v').takeWhile p = (u ++ v).takeWhile p := by
  obtain ⟨w, u₁, -, ht, -, ht', -⟩ := exists_run hlen hv'
  rw [ht, ht']

/-- A run that ends before the end of a text does not depend on what follows the text. -/
theorem takeWhile_append_eq_of_lt (hlen : ((u ++ v).takeWhile p).length < u.length) :
    (u ++ v').takeWhile p = (u ++ v).takeWhile p := by
  induction u with
  | nil => exact absurd hlen (Nat.not_lt_zero _)
  | cons c u ih =>
    by_cases hc : p c = true
    · simp only [List.cons_append, List.takeWhile_cons, hc, if_true, List.length_cons] at hlen ⊢
      rw [ih (by omega)]
    · simp [hc]

/-- Whether a character starts a text does not depend on what stands behind the text, if that may
not start with it either. -/
theorem head?_append_beq {c : Char} (h : (u ++ v).head? = some c → u ≠ [])
    (hv' : ∀ d ∈ v'.head?, d ≠ c) : ((u ++ v').head? == some c) = ((u ++ v).head? == some c) := by
  cases u with
  | cons d u => rfl
  | nil =>
    have hv : v.head? ≠ some c := fun hv => h hv rfl
    have hne : v'.head? ≠ some c := fun hc => hv' c hc rfl
    rw [List.nil_append, List.nil_append, beq_eq_false_iff_ne.mpr hv, beq_eq_false_iff_ne.mpr hne]

end

/-! ## Number literals -/

section
variable {s : Spelling} {u v v' : List Char}

/-- The marker and sign of an exponent with the digits that follow them, unless there are none. -/
def Numeral.exponentOf (marker : List Char) (rest : List Char) : List Char :=
  if rest.takeWhile isDigit = [] then [] else marker ++ rest.takeWhile isDigit

section
variable {marker : Char} (h : marker = 'e' ∨ marker = 'E')
include h

theorem exponentAt_plus (rest : List Char) :
    Numeral.exponentAt (marker :: '+' :: rest) = Numeral.exponentOf [marker, '+'] rest := by
  rw [Numeral.exponentAt.eq_def]
  exact if_pos h

theorem exponentAt_minus (rest : List Char) :
    Numeral.exponentAt (marker :: '-' :: rest) = Numeral.exponentOf [marker, '-'] rest := by
  rw [Numeral.exponentAt.eq_def]
  exact if_pos h

/-- Without a sign the digits of an exponent start behind its marker. -/
theorem exponentAt_digits {rest : List Char} (hplus : rest.head? ≠ some '+')
    (hminus : rest.head? ≠ some '-') :
    Numeral.exponentAt (marker :: rest) = Numeral.exponentOf [marker] rest := by
  rw [Numeral.exponentAt.eq_def]
  dsimp only
  rw [if_pos h]
  split
  · exact absurd rfl hplus
  · exact absurd rfl hminus
  · rfl

/-- The three forms of an exponent. -/
theorem exists_exponentOf (rest : List Char) : ∃ sign ∈ [[], ['+'], ['-']], ∃ digits,
    rest = sign ++ digits ∧
      Numeral.exponentAt (marker :: rest) = Numeral.exponentOf (marker :: sign) digits := by
  by_cases hplus : rest.head? = some '+'
  · obtain ⟨digits, rfl⟩ := List.head?_eq_some_iff.mp hplus
    exact ⟨['+'], by simp, digits, rfl, exponentAt_plus h digits⟩
  by_cases hminus : rest.head? = some '-'
  · obtain ⟨digits, rfl⟩ := List.head?_eq_some_iff.mp hminus
    exact ⟨['-'], by simp, digits, rfl, exponentAt_minus h digits⟩
  · exact ⟨[], by simp, rest, rfl, exponentAt_digits h hplus hminus⟩

end

theorem exponentAt_eq_nil {marker : Char} (h : ¬ (marker = 'e' ∨ marker = 'E'))
    (rest : List Char) : Numeral.exponentAt (marker :: rest) = [] := by
  rw [Numeral.exponentAt.eq_def]
  exact if_neg h

/-- If no digit behind the part is taken, what stands there has no influence. -/
theorem exponentOf_append_eq {marker : List Char}
    (hlen : (Numeral.exponentOf marker (u ++ v)).length ≤ marker.length + u.length)
    (hv' : EndsToken s v') :
    Numeral.exponentOf marker (u ++ v') = Numeral.exponentOf marker (u ++ v) := by
  have hrun : (u ++ v').takeWhile isDigit = (u ++ v).takeWhile isDigit := by
    apply takeWhile_append_eq _ hv'.isDigit
    by_cases hnil : (u ++ v).takeWhile isDigit = []
    · rw [hnil]
      exact Nat.zero_le _
    · rw [Numeral.exponentOf, if_neg hnil, List.length_append] at hlen
      omega
  rw [Numeral.exponentOf, Numeral.exponentOf, hrun]

/-- An exponent has more than its marker. -/
theorem exponentAt_eq_nil_of_length_le {marker : Char} (h : marker = 'e' ∨ marker = 'E')
    {rest : List Char} (hlen : (Numeral.exponentAt (marker :: rest)).length ≤ 1) :
    Numeral.exponentAt (marker :: rest) = [] := by
  obtain ⟨sign, -, digits, -, hsame⟩ := exists_exponentOf h rest
  rw [hsame, Numeral.exponentOf] at hlen
  rw [hsame, Numeral.exponentOf]
  split at hlen
  · next hdigits => rw [if_pos hdigits]
  · next hdigits =>
    have hpos := List.length_pos_iff.mpr hdigits
    simp only [List.length_append, List.length_cons] at hlen
    omega

/-- The marker of an exponent and its sign are within the part if their digits are, so what stands
behind has no influence; without digits there is no exponent. -/
theorem exponentAt_cons_append_eq {marker : Char} (h : marker = 'e' ∨ marker = 'E')
    (hlen : (Numeral.exponentAt (marker :: (u ++ v))).length ≤ u.length + 1)
    (hv' : EndsToken s v') :
    Numeral.exponentAt (marker :: (u ++ v')) = Numeral.exponentAt (marker :: (u ++ v)) := by
  cases u with
  | nil =>
    -- Only the marker is inside, and the end of a token does not go on with an exponent.
    have hhead : ∀ c, (c = '+' ∨ c = '-') → v'.head? ≠ some c := by
      rintro c hc hv
      have hsigns := (hv' c hv).not_mem_signs
      rcases hc with rfl | rfl <;> exact hsigns (by decide)
    rw [List.nil_append] at hlen
    rw [List.nil_append, List.nil_append, exponentAt_eq_nil_of_length_le h hlen,
      exponentAt_digits h (hhead _ (.inl rfl)) (hhead _ (.inr rfl)), Numeral.exponentOf,
      if_pos (takeWhile_eq_nil_of_head? hv'.isDigit)]
  | cons c u =>
    rw [List.cons_append] at hlen ⊢
    rw [List.cons_append]
    -- The sign is inside too, if there is one, so what is left to compare are the digits.
    by_cases hplus : c = '+'
    · subst hplus
      rw [exponentAt_plus h] at hlen ⊢
      rw [exponentAt_plus h]
      refine exponentOf_append_eq ?_ hv'
      simp only [List.length_cons, List.length_nil] at hlen ⊢
      omega
    by_cases hminus : c = '-'
    · subst hminus
      rw [exponentAt_minus h] at hlen ⊢
      rw [exponentAt_minus h]
      refine exponentOf_append_eq ?_ hv'
      simp only [List.length_cons, List.length_nil] at hlen ⊢
      omega
    · have hdigits : ∀ rest, Numeral.exponentAt (marker :: c :: rest) =
          Numeral.exponentOf [marker] (c :: rest) :=
        fun rest => exponentAt_digits h (by simpa using hplus) (by simpa using hminus)
      rw [hdigits] at hlen ⊢
      rw [hdigits]
      refine @exponentOf_append_eq s (c :: u) v v' _ ?_ hv'
      simp only [List.length_cons, List.length_nil, List.cons_append] at hlen ⊢
      omega

/-- An exponent that lies within a part is the same whatever stands behind the part before the end
of a token. -/
theorem exponentAt_append_eq (hlen : (Numeral.exponentAt (u ++ v)).length ≤ u.length)
    (hv' : EndsToken s v') : Numeral.exponentAt (u ++ v') = Numeral.exponentAt (u ++ v) := by
  cases u with
  | nil =>
    have hnil : Numeral.exponentAt v = [] := List.eq_nil_of_length_eq_zero (Nat.le_zero.mp hlen)
    rw [List.nil_append, List.nil_append, hnil]
    cases v' with
    | nil => rfl
    | cons c v' => exact exponentAt_eq_nil (hv' c rfl).ne_marker v'
  | cons marker u =>
    by_cases hmarker : marker = 'e' ∨ marker = 'E'
    · exact exponentAt_cons_append_eq hmarker hlen hv'
    · rw [List.cons_append, List.cons_append, exponentAt_eq_nil hmarker, exponentAt_eq_nil hmarker]

/-- A number literal whose exponent and percent sign stand at the start of a text. -/
def Numeral.closedBy (culture : Culture) (whole : List Char) (pointed : Bool)
    (fraction text : List Char) : Numeral :=
  let exponent := Numeral.exponentAt text
  ⟨whole, pointed, fraction, exponent,
    (text.drop exponent.length).head? == some culture.percentSign⟩

theorem start_of_point {culture : Culture} {text rest : List Char}
    (h : text.dropWhile isDigit = culture.decimalSeparator :: rest) :
    Numeral.start culture text = Numeral.closedBy culture (text.takeWhile isDigit) true
      (rest.takeWhile isDigit) (rest.dropWhile isDigit) := by
  simp only [Numeral.start, h, List.head?_cons, beq_self_eq_true, if_true, List.drop_one,
    List.tail_cons, Numeral.closedBy]

/-- A numeral without a point is closed behind its whole digits. -/
theorem start_of_no_point {culture : Culture} {text : List Char}
    (h : (text.dropWhile isDigit).head? ≠ some culture.decimalSeparator) :
    Numeral.start culture text = Numeral.closedBy culture (text.takeWhile isDigit) false []
      (text.dropWhile isDigit) := by
  have hpoint : ((text.dropWhile isDigit).head? == some culture.decimalSeparator) = false :=
    beq_eq_false_iff_ne.mpr h
  simp only [Numeral.start, hpoint, Bool.false_eq_true, if_false, Numeral.closedBy]

/-- The end of a numeral that lies within a part is the same whatever stands behind the part before
the end of a token. -/
theorem closedBy_append_eq {whole fraction : List Char} {pointed : Bool}
    (hlen : (Numeral.closedBy s.culture whole pointed fraction (u ++ v)).length ≤
      whole.length + pointed.toNat + fraction.length + u.length) (hv' : EndsToken s v') :
    Numeral.closedBy s.culture whole pointed fraction (u ++ v') =
      Numeral.closedBy s.culture whole pointed fraction (u ++ v) := by
  rw [Numeral.length, Numeral.closedBy] at hlen
  dsimp only at hlen
  have hexponent : Numeral.exponentAt (u ++ v') = Numeral.exponentAt (u ++ v) :=
    exponentAt_append_eq (by omega) hv'
  have hdrop : ∀ x : List Char, (u ++ x).drop (Numeral.exponentAt (u ++ v)).length =
      u.drop (Numeral.exponentAt (u ++ v)).length ++ x :=
    fun x => List.drop_append_of_le_length (by omega)
  rw [Numeral.closedBy, Numeral.closedBy, hexponent, hdrop, hdrop]
  congr 1
  -- A percent sign that counts stands within the text, for it is part of the literal.
  refine head?_append_beq ?_ (hv'.forall_head fun _ hc => hc.ne_percentSign)
  intro hpercent hnil
  rw [hdrop, hpercent] at hlen
  have := congrArg List.length hnil
  rw [List.length_drop, List.length_nil] at this
  simp only [beq_self_eq_true, Bool.toNat_true] at hlen
  omega

/-- A number literal that ends inside a text is the same before any end of a token. -/
theorem numeral_append_eq (hlen : (Numeral.start s.culture (u ++ v)).length ≤ u.length)
    (hv' : EndsToken s v') :
    Numeral.start s.culture (u ++ v') = Numeral.start s.culture (u ++ v) := by
  have hwhole : ((u ++ v).takeWhile isDigit).length ≤ u.length := by
    rw [Numeral.start, Numeral.length] at hlen
    dsimp only at hlen
    omega
  -- The whole part lies within the text; what follows it there is `u₁`.
  obtain ⟨w, u₁, rfl, ht, hd, ht', hd'⟩ := exists_run hwhole hv'.isDigit
  by_cases hpoint : (u₁ ++ v).head? = some s.culture.decimalSeparator
  · obtain ⟨rest, hrest⟩ := List.head?_eq_some_iff.mp hpoint
    have hlen₁ := hlen
    rw [start_of_point (hd.trans hrest), ht, Numeral.length, Numeral.closedBy] at hlen₁
    simp only [Bool.toNat_true, List.length_append] at hlen₁
    cases u₁ with
    | nil =>
      simp only [List.length_nil] at hlen₁
      omega
    | cons c u₂ =>
      rw [List.cons_append, List.cons.injEq] at hrest
      obtain ⟨rfl, rfl⟩ := hrest
      rw [List.length_cons] at hlen₁
      -- Then the digits behind the point lie within `u₂`.
      obtain ⟨f, u₃, rfl, hf, hfd, hf', hfd'⟩ := @exists_run _ u₂ v v' (by omega) hv'.isDigit
      have hstart := @start_of_point _ _ (f ++ u₃ ++ v) hd
      have hstart' := @start_of_point _ _ (f ++ u₃ ++ v') hd'
      rw [ht, hf, hfd] at hstart
      rw [ht', hf', hfd'] at hstart'
      rw [hstart] at hlen ⊢
      rw [hstart']
      refine closedBy_append_eq (Nat.le_trans hlen ?_) hv'
      simp only [Bool.toNat_true, List.length_append, List.length_cons]
      omega
  · have hpoint' : (u₁ ++ v').head? ≠ some s.culture.decimalSeparator := by
      cases u₁ with
      | nil => exact fun h => hv'.ne_of_head? (fun hc => hc.ne_decimalSeparator rfl) h
      | cons c u₁ => exact hpoint
    rw [← hd] at hpoint
    rw [← hd'] at hpoint'
    have hstart := start_of_no_point hpoint
    have hstart' := start_of_no_point hpoint'
    rw [ht, hd] at hstart
    rw [ht', hd'] at hstart'
    rw [hstart] at hlen ⊢
    rw [hstart']
    refine closedBy_append_eq (Nat.le_trans hlen ?_) hv'
    simp only [Bool.toNat_false, List.length_append, List.length_nil]
    omega

end

/-! ## How long number literals are -/

/-- An exponent is no longer than the text. -/
theorem length_exponentAt_le (text : List Char) :
    (Numeral.exponentAt text).length ≤ text.length := by
  cases text with
  | nil => exact Nat.le_refl _
  | cons marker rest =>
    by_cases hmarker : marker = 'e' ∨ marker = 'E'
    · obtain ⟨sign, -, digits, rfl, hsame⟩ := exists_exponentOf hmarker rest
      have hdigits := (List.takeWhile_sublist isDigit (l := digits)).length_le
      rw [hsame, Numeral.exponentOf]
      split
      · exact Nat.zero_le _
      · simp only [List.length_append, List.length_cons]
        omega
    · rw [exponentAt_eq_nil hmarker]
      exact Nat.zero_le _

section
variable {culture : Culture}

/-- The rest of a numeral is no longer than the text that is left. -/
theorem length_closedBy_le (whole fraction : List Char) (pointed : Bool) (text : List Char) :
    (Numeral.closedBy culture whole pointed fraction text).length ≤
      whole.length + pointed.toNat + fraction.length + text.length := by
  have hexponent := length_exponentAt_le text
  rw [Numeral.closedBy, Numeral.length]
  dsimp only
  by_cases hpercent :
      (text.drop (Numeral.exponentAt text).length).head? = some culture.percentSign
  · have hne : text.drop (Numeral.exponentAt text).length ≠ [] := by
      intro hnil
      rw [hnil] at hpercent
      cases hpercent
    have hpos := List.length_pos_iff.mpr hne
    rw [List.length_drop] at hpos
    simp only [hpercent, beq_self_eq_true, Bool.toNat_true]
    omega
  · simp only [beq_eq_false_iff_ne.mpr hpercent, Bool.toNat_false]
    omega

/-- A numeral is no longer than the text. -/
theorem length_numeral_le (text : List Char) :
    (Numeral.start culture text).length ≤ text.length := by
  have hrun : (text.takeWhile isDigit).length + (text.dropWhile isDigit).length = text.length := by
    rw [← List.length_append, List.takeWhile_append_dropWhile]
  by_cases hpoint : (text.dropWhile isDigit).head? = some culture.decimalSeparator
  · obtain ⟨rest, hrest⟩ := List.head?_eq_some_iff.mp hpoint
    have hfraction : (rest.takeWhile isDigit).length + (rest.dropWhile isDigit).length =
        rest.length := by
      rw [← List.length_append, List.takeWhile_append_dropWhile]
    rw [start_of_point hrest]
    refine Nat.le_trans (length_closedBy_le ..) ?_
    rw [hrest, List.length_cons] at hrun
    simp only [Bool.toNat_true]
    omega
  · rw [start_of_no_point hpoint]
    refine Nat.le_trans (length_closedBy_le ..) ?_
    simp only [Bool.toNat_false, List.length_nil]
    omega

/-- A numeral has a character, and one behind the point if it starts with that. -/
theorem length_numeral_pos {c : Char} {rest : List Char}
    (h : Numeral.startsWith culture c rest = true) :
    1 ≤ (Numeral.start culture (c :: rest)).length ∧
      (isDigit c = false → 2 ≤ (Numeral.start culture (c :: rest)).length) := by
  rw [Numeral.startsWith, Bool.or_eq_true, Bool.and_eq_true, beq_iff_eq] at h
  by_cases hc : isDigit c = true
  · refine ⟨?_, fun hfalse => absurd hc (by rw [hfalse]; exact Bool.false_ne_true)⟩
    rw [Numeral.start, Numeral.length]
    simp only [List.takeWhile_cons, hc, if_true, List.length_cons]
    omega
  · obtain ⟨rfl, hdigit⟩ := h.resolve_left hc
    obtain ⟨d, rest, rfl, hd⟩ : ∃ d r, rest = d :: r ∧ isDigit d = true := by
      cases rest with
      | nil => cases hdigit
      | cons d r => exact ⟨d, r, rfl, hdigit⟩
    have hdrop : (culture.decimalSeparator :: d :: rest).dropWhile isDigit =
        culture.decimalSeparator :: d :: rest := by
      rw [List.dropWhile_cons, if_neg hc]
    have hlen : 2 ≤ (Numeral.start culture (culture.decimalSeparator :: d :: rest)).length := by
      rw [start_of_point hdrop, Numeral.closedBy, Numeral.length]
      simp only [List.takeWhile_cons, hd, if_true, List.length_cons, Bool.toNat_true]
      omega
    exact ⟨Nat.le_of_succ_le hlen, fun _ => hlen⟩

end

end Formula
