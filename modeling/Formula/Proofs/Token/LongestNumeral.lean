import Formula.Proofs.Token.Literals

/-!
# The longest number literal

`Numeral.WellFormed` says which parts make up a number literal, and `Numeral.spelt` how it is
written in a culture.  What the scanner takes at the start of a text is such a literal, and it can
be read as a number, whatever characters the culture uses.  If these are told apart from the other
characters of a literal, no longer literal stands there.
-/

namespace Formula

open Text (isDigit)

variable {culture : Culture} {n : Numeral} {text exponent v : List Char}

/-! ## Literals as they are written -/

/-- Whether a text is an exponent: a marker, a sign or none, and digits. -/
def IsExponent (text : List Char) : Prop :=
  ∃ marker, (marker = 'e' ∨ marker = 'E') ∧ ∃ sign ∈ [[], ['+'], ['-']], ∃ digits,
    digits ≠ [] ∧ (∀ c ∈ digits, isDigit c = true) ∧ text = marker :: (sign ++ digits)

namespace Numeral

/-- Whether parts make up a literal: digits, digits and a separator, or a separator between digits
or before them, with an exponent or none. -/
structure WellFormed (n : Numeral) : Prop where
  whole : ∀ c ∈ n.whole, isDigit c = true
  fraction : ∀ c ∈ n.fraction, isDigit c = true
  fraction_eq_nil : n.pointed = false → n.fraction = []
  digits : n.whole ≠ [] ∨ n.fraction ≠ []
  exponent : n.exponent = [] ∨ IsExponent n.exponent

/-- The percent sign of a literal, if it has one. -/
def percentSign (culture : Culture) (percent : Bool) : List Char :=
  if percent then [culture.percentSign] else []

/-- A literal as it is written in a culture. -/
def spelt (culture : Culture) (n : Numeral) : List Char :=
  n.whole ++ ((if n.pointed then culture.decimalSeparator :: n.fraction else []) ++
    (n.exponent ++ percentSign culture n.percent))

end Numeral

/-- Whether the decimal separator and the percent sign are told apart from each other and from the
other characters of number literals. -/
structure Culture.TellsApart (culture : Culture) : Prop where
  ne : culture.decimalSeparator ≠ culture.percentSign
  decimalSeparator : isDigit culture.decimalSeparator = false ∧
    culture.decimalSeparator ∉ ['e', 'E', '+', '-']
  percentSign : isDigit culture.percentSign = false ∧
    culture.percentSign ∉ ['e', 'E', '+', '-']

/-! ## Exponents -/

/-- What is taken as an exponent is one, and it stands at the start of the text. -/
theorem exponentAt_cases (text : List Char) :
    Numeral.exponentAt text = [] ∨
      IsExponent (Numeral.exponentAt text) ∧ Numeral.exponentAt text <+: text := by
  cases text with
  | nil => exact .inl rfl
  | cons marker rest =>
    by_cases hmarker : marker = 'e' ∨ marker = 'E'
    · obtain ⟨sign, hsign, digits, rfl, hsame⟩ := exists_exponentOf hmarker rest
      rw [hsame, Numeral.exponentOf]
      split
      · exact .inl rfl
      · next hdigits =>
        refine .inr ⟨⟨marker, hmarker, sign, hsign, _, hdigits, ?_, List.cons_append ..⟩, ?_⟩
        · exact fun c hc => List.mem_takeWhile_imp hc
        · rw [← List.cons_append, List.prefix_append_right_inj]
          exact List.takeWhile_prefix _
    · exact .inl (exponentAt_eq_nil hmarker rest)

/-- An exponent at the start of a text is taken with all digits behind it. -/
theorem exponentAt_append (h : IsExponent exponent) (v : List Char) :
    Numeral.exponentAt (exponent ++ v) = exponent ++ v.takeWhile isDigit := by
  obtain ⟨marker, hmarker, sign, hsign, digits, hne, hdigits, rfl⟩ := h
  have hrun : (digits ++ v).takeWhile isDigit = digits ++ v.takeWhile isDigit :=
    List.takeWhile_append_of_pos hdigits
  have hexponent : Numeral.exponentOf (marker :: sign) (digits ++ v) =
      marker :: (sign ++ digits) ++ v.takeWhile isDigit := by
    rw [Numeral.exponentOf, hrun, if_neg (by simp [hne])]
    simp
  rw [← hexponent, List.cons_append, List.append_assoc]
  simp only [List.mem_cons, List.not_mem_nil, or_false] at hsign
  rcases hsign with rfl | rfl | rfl
  · -- Without a sign the digits come first, and no digit is a sign.
    have hhead : ∀ c, isDigit c = false → (digits ++ v).head? ≠ some c := by
      obtain ⟨d, digits, rfl⟩ := List.exists_cons_of_ne_nil hne
      rintro c hc ⟨⟩
      rw [hdigits d List.mem_cons_self] at hc
      cases hc
    exact exponentAt_digits hmarker (hhead _ rfl) (hhead _ rfl)
  · exact exponentAt_plus hmarker _
  · exact exponentAt_minus hmarker _

/-- The longest exponent at a place is at least as long as any that is written there. -/
theorem length_le_exponentAt (h : exponent = [] ∨ IsExponent exponent) (v : List Char) :
    exponent.length ≤ (Numeral.exponentAt (exponent ++ v)).length := by
  rcases h with rfl | h
  · exact Nat.zero_le _
  · rw [exponentAt_append h, List.length_append]
    exact Nat.le_add_right ..

/-- An exponent is read as a whole number. -/
theorem exists_readExponent? (h : exponent = [] ∨ IsExponent exponent) :
    ∃ e, Number.readExponent? exponent = some e := by
  obtain rfl | ⟨marker, hmarker, sign, hsign, digits, hne, hdigits, rfl⟩ := h
  · exact ⟨0, rfl⟩
  have hall : digits ≠ [] ∧ digits.all isDigit = true := ⟨hne, List.all_eq_true.mpr hdigits⟩
  simp only [List.mem_cons, List.not_mem_nil, or_false] at hsign
  rcases hsign with rfl | rfl | rfl
  · -- A digit is neither sign, so all that follows the marker are the digits.
    have hdigit : ∀ c rest, digits = c :: rest → isDigit c = true := by
      rintro c rest rfl
      exact hdigits c List.mem_cons_self
    refine ⟨(Number.digitsValue 0 digits : Int), ?_⟩
    rw [Number.readExponent?.eq_def]
    dsimp only
    rw [if_pos hmarker, List.nil_append]
    split
    · exact absurd (hdigit _ _ rfl) (by decide)
    · exact absurd (hdigit _ _ rfl) (by decide)
    · exact if_pos hall
  · exact ⟨_, (if_pos hmarker).trans (if_pos hall)⟩
  · exact ⟨_, (if_pos hmarker).trans (if_pos hall)⟩

/-! ## The literal that is taken -/

/-- A numeral is as long as it is spelt. -/
theorem length_spelt (h : n.WellFormed) : (n.spelt culture).length = n.length := by
  have hpercent : (Numeral.percentSign culture n.percent).length = n.percent.toNat := by
    cases n.percent <;> rfl
  rw [Numeral.spelt, Numeral.length]
  cases hpointed : n.pointed with
  | false =>
    simp only [h.fraction_eq_nil hpointed, Bool.false_eq_true, if_false, List.length_append,
      List.length_nil, hpercent, Bool.toNat_false]
    omega
  | true =>
    simp only [if_true, List.length_append, List.length_cons, hpercent, Bool.toNat_true]
    omega

/-- The exponent and the percent sign that are taken stand at the start of the text. -/
theorem closing_atStart (whole fraction : List Char) (pointed : Bool) (text : List Char) :
    (Numeral.closedBy culture whole pointed fraction text).exponent ++ Numeral.percentSign culture
      (Numeral.closedBy culture whole pointed fraction text).percent <+: text := by
  obtain ⟨ahead, hahead⟩ : Numeral.exponentAt text <+: text := by
    rcases exponentAt_cases text with hnil | ⟨-, hexponent⟩
    · rw [hnil]
      exact List.nil_prefix
    · exact hexponent
  have hdrop : text.drop (Numeral.exponentAt text).length = ahead := by
    have hleft : (Numeral.exponentAt text ++ ahead).drop (Numeral.exponentAt text).length = ahead :=
      List.drop_left
    rwa [hahead] at hleft
  have hpercent : Numeral.percentSign culture (ahead.head? == some culture.percentSign) <+:
      ahead := by
    rw [Numeral.percentSign]
    split
    · next hhead =>
      obtain ⟨rest, rfl⟩ := List.head?_eq_some_iff.mp (beq_iff_eq.mp hhead)
      exact ⟨rest, rfl⟩
    · exact List.nil_prefix
  have happend := (List.prefix_append_right_inj (Numeral.exponentAt text)).mpr hpercent
  rw [hahead] at happend
  rw [Numeral.closedBy]
  dsimp only
  rw [hdrop]
  exact happend

/-- The literal that is taken stands at the start of the text. -/
theorem spelt_start_atStart (culture : Culture) (text : List Char) :
    (Numeral.start culture text).spelt culture <+: text := by
  have hwhole := List.takeWhile_append_dropWhile (p := isDigit) (l := text)
  by_cases hpoint : (text.dropWhile isDigit).head? = some culture.decimalSeparator
  · obtain ⟨rest, hrest⟩ := List.head?_eq_some_iff.mp hpoint
    have hfraction := List.takeWhile_append_dropWhile (p := isDigit) (l := rest)
    calc (Numeral.start culture text).spelt culture
      _ <+: text.takeWhile isDigit ++ (culture.decimalSeparator :: rest.takeWhile isDigit ++
          rest.dropWhile isDigit) := by
        rw [start_of_point hrest]
        refine (List.prefix_append_right_inj _).mpr ?_
        exact (List.prefix_append_right_inj (_ :: _)).mpr (closing_atStart ..)
      _ = text := by rw [List.cons_append, hfraction, ← hrest, hwhole]
  · calc (Numeral.start culture text).spelt culture
      _ <+: text.takeWhile isDigit ++ text.dropWhile isDigit := by
        rw [start_of_no_point hpoint]
        exact (List.prefix_append_right_inj _).mpr (closing_atStart ..)
      _ = text := hwhole

theorem wellFormed_closedBy {whole fraction : List Char} {pointed : Bool}
    (hwhole : ∀ c ∈ whole, isDigit c = true) (hfraction : ∀ c ∈ fraction, isDigit c = true)
    (hpointed : pointed = false → fraction = []) (hdigits : whole ≠ [] ∨ fraction ≠ [])
    (text : List Char) : (Numeral.closedBy culture whole pointed fraction text).WellFormed :=
  ⟨hwhole, hfraction, hpointed, hdigits, (exponentAt_cases text).imp_right (·.1)⟩

/-- Where a number starts, a literal is taken. -/
theorem wellFormed_start {c : Char} {rest : List Char}
    (h : Numeral.startsWith culture c rest = true) :
    (Numeral.start culture (c :: rest)).WellFormed := by
  have hrun : ∀ text : List Char, ∀ c ∈ text.takeWhile isDigit, isDigit c = true :=
    fun _ _ hc => List.mem_takeWhile_imp hc
  have hpointed : ∀ fraction : List Char, true = false → fraction = [] := fun _ h => nomatch h
  rw [Numeral.startsWith, Bool.or_eq_true, Bool.and_eq_true, beq_iff_eq] at h
  by_cases hc : isDigit c = true
  · have hwhole : (c :: rest).takeWhile isDigit ≠ [] := by simp [hc]
    by_cases hpoint : ((c :: rest).dropWhile isDigit).head? = some culture.decimalSeparator
    · obtain ⟨ahead, hahead⟩ := List.head?_eq_some_iff.mp hpoint
      rw [start_of_point hahead]
      exact wellFormed_closedBy (hrun _) (hrun _) (hpointed _) (.inl hwhole) _
    · rw [start_of_no_point hpoint]
      exact wellFormed_closedBy (hrun _) (List.forall_mem_nil _) (fun _ => rfl) (.inl hwhole) _
  · obtain ⟨rfl, hdigit⟩ := h.resolve_left hc
    have hdrop : (culture.decimalSeparator :: rest).dropWhile isDigit =
        culture.decimalSeparator :: rest := by
      rw [List.dropWhile_cons, if_neg hc]
    have hfraction : rest.takeWhile isDigit ≠ [] := by
      cases rest with
      | nil => cases hdigit
      | cons d rest =>
        have hd : isDigit d = true := hdigit
        simp [hd]
    rw [start_of_point hdrop]
    exact wellFormed_closedBy (hrun _) (hrun _) (hpointed _) (.inr hfraction) _

/-! ## The number that it stands for -/

theorem readDecimal?_of_point {rest : List Char} (h : text.dropWhile isDigit = '.' :: rest) :
    Number.readDecimal? text =
      if text.takeWhile isDigit = [] ∧ rest.takeWhile isDigit = [] then none
      else (Number.readExponent? (rest.dropWhile isDigit)).map fun exponent =>
        Number.ofScientific (Number.digitsValue (Number.digitsValue 0 (text.takeWhile isDigit))
          (rest.takeWhile isDigit)) (exponent - (rest.takeWhile isDigit).length) := by
  rw [Number.readDecimal?, h]
  rfl

/-- Without a point a decimal is its whole digits, scaled by the exponent. -/
theorem readDecimal?_of_no_point (h : (text.dropWhile isDigit).head? ≠ some '.') :
    Number.readDecimal? text =
      if text.takeWhile isDigit = [] then none
      else (Number.readExponent? (text.dropWhile isDigit)).map fun exponent =>
        Number.ofScientific (Number.digitsValue 0 (text.takeWhile isDigit)) (exponent - 0) := by
  rw [Number.readDecimal?]
  dsimp only
  split
  · next hpoint =>
    rw [hpoint] at h
    exact absurd rfl h
  · simp [Number.digitsValue]

/-- A literal with a decimal point has digits, a point or none, and an exponent or none. -/
theorem exists_readDecimal?_text (h : n.WellFormed) : ∃ y, Number.readDecimal? n.text = some y := by
  obtain ⟨e, he⟩ := exists_readExponent? h.exponent
  -- Neither the point nor the marker of an exponent is a digit.
  have hend : ∀ c ∈ n.exponent.head?, isDigit c = false ∧ c ≠ '.' := by
    rcases h.exponent with hnil | ⟨marker, hmarker, sign, -, digits, -, -, hexponent⟩
    · rw [hnil]
      nofun
    · rw [hexponent]
      rintro c ⟨⟩
      rcases hmarker with rfl | rfl <;> exact ⟨rfl, by decide⟩
  have hdigits : ¬ (n.whole = [] ∧ n.fraction = []) :=
    fun hnil => h.digits.elim (fun hne => hne hnil.1) fun hne => hne hnil.2
  rw [Numeral.text]
  cases hpointed : n.pointed with
  | true =>
    have hpoint : ∀ c ∈ ('.' :: (n.fraction ++ n.exponent)).head?, isDigit c = false := by
      rintro c ⟨⟩
      rfl
    obtain ⟨htake, hdrop⟩ := run_printed h.whole hpoint
    obtain ⟨htake', hdrop'⟩ := run_printed h.fraction fun c hc => (hend c hc).1
    rw [if_pos rfl, List.append_assoc, List.cons_append, readDecimal?_of_point hdrop, htake,
      htake', hdrop', if_neg hdigits, he]
    exact ⟨_, rfl⟩
  | false =>
    obtain ⟨htake, hdrop⟩ := run_printed h.whole fun c hc => (hend c hc).1
    have hpoint : ((n.whole ++ n.exponent).dropWhile isDigit).head? ≠ some '.' := by
      rw [hdrop]
      exact fun hhead => (hend '.' hhead).2 rfl
    have hwhole : n.whole ≠ [] := fun hnil => hdigits ⟨hnil, h.fraction_eq_nil hpointed⟩
    rw [if_neg Bool.false_ne_true, List.append_nil, readDecimal?_of_no_point hpoint, htake, hdrop,
      if_neg hwhole, he]
    exact ⟨_, rfl⟩

/-- A literal with a decimal point starts with a digit or with the point. -/
theorem head?_text (h : n.WellFormed) :
    ∃ c, n.text.head? = some c ∧ (isDigit c = true ∨ c = '.') := by
  rw [Numeral.text]
  cases hwhole : n.whole with
  | cons c whole => exact ⟨c, rfl, .inl (h.whole c (hwhole ▸ List.mem_cons_self))⟩
  | nil =>
    have hpointed : n.pointed = true := by
      rw [← Bool.not_eq_false]
      exact fun hpointed => h.digits.elim (· hwhole) (· (h.fraction_eq_nil hpointed))
    exact ⟨'.', by rw [hpointed]; rfl, .inr rfl⟩

/-- A literal with a decimal point is read as a number. -/
theorem exists_read?_text (h : n.WellFormed) : ∃ y, Number.read? n.text = some y := by
  obtain ⟨y, hy⟩ := exists_readDecimal?_text h
  have hunsigned : Number.readUnsigned? n.text = some y := by rw [Number.readUnsigned?, hy]
  obtain ⟨c, hhead, hc⟩ := head?_text h
  refine ⟨y, ?_⟩
  rw [Number.read?.eq_def]
  split
  · next htext =>
    rw [htext] at hhead
    cases hhead
    exact absurd hc (by decide)
  · next htext =>
    rw [htext] at hhead
    cases hhead
    exact absurd hc (by decide)
  · exact hunsigned

/-! ## No longer literal -/

/-- A run of digits is taken with all digits behind it. -/
theorem length_le_run {digits : List Char} (hdigits : ∀ c ∈ digits, isDigit c = true)
    (v : List Char) : digits.length ≤ ((digits ++ v).takeWhile isDigit).length := by
  rw [List.takeWhile_append_of_pos hdigits, List.length_append]
  exact Nat.le_add_right ..

/-- What is found behind the digits of a numeral comes on top of them. -/
theorem length_mantissa_le (whole fraction : List Char) (pointed : Bool) (text : List Char) :
    whole.length + pointed.toNat + fraction.length ≤
      (Numeral.closedBy culture whole pointed fraction text).length := by
  rw [Numeral.closedBy, Numeral.length]
  dsimp only
  omega

/-- A numeral has at least the digits that it starts with. -/
theorem length_whole_le (text : List Char) :
    (text.takeWhile isDigit).length ≤ (Numeral.start culture text).length := by
  rw [Numeral.start, Numeral.length]
  dsimp only
  omega

section
variable (hculture : culture.TellsApart)
include hculture

/-- What follows the mantissa of a literal, if anything, starts with a character that goes on with
no mantissa. -/
theorem head?_closing {percent : Bool} (hexponent : exponent = [] ∨ IsExponent exponent)
    (hne : ¬ (exponent = [] ∧ percent = false)) (v : List Char) :
    ∀ c ∈ (exponent ++ (Numeral.percentSign culture percent ++ v)).head?,
      isDigit c = false ∧ c ≠ culture.decimalSeparator := by
  rcases hexponent with rfl | ⟨marker, hmarker, sign, -, digits, -, -, rfl⟩
  · obtain rfl : percent = true := by simpa using hne
    rintro c ⟨⟩
    exact ⟨hculture.percentSign.1, hculture.ne.symm⟩
  · rintro c ⟨⟩
    have hseparator := hculture.decimalSeparator.2
    refine ⟨by rcases hmarker with rfl | rfl <;> rfl, ?_⟩
    rintro rfl
    rcases hmarker with hmarker | hmarker <;> rw [hmarker] at hseparator <;>
      exact hseparator (by decide)

/-- An exponent, or none, ends before a percent sign. -/
theorem closedBy_percent (whole fraction : List Char) (pointed : Bool)
    (hexponent : exponent = [] ∨ IsExponent exponent) (v : List Char) :
    Numeral.closedBy culture whole pointed fraction (exponent ++ culture.percentSign :: v) =
      ⟨whole, pointed, fraction, exponent, true⟩ := by
  have hmarker : ¬ (culture.percentSign = 'e' ∨ culture.percentSign = 'E') := by
    have hsign := hculture.percentSign.2
    rintro (heq | heq) <;> rw [heq] at hsign <;> exact hsign (by decide)
  have hsame : Numeral.exponentAt (exponent ++ culture.percentSign :: v) = exponent := by
    rcases hexponent with rfl | hexponent
    · exact exponentAt_eq_nil hmarker v
    · rw [exponentAt_append hexponent, List.takeWhile_cons, hculture.percentSign.1,
        if_neg Bool.false_ne_true, List.append_nil]
  rw [Numeral.closedBy, hsame, List.drop_left, List.head?_cons, beq_self_eq_true]

/-- An exponent and a percent sign that stand behind a mantissa are taken. -/
theorem length_le_closedBy (whole fraction : List Char) (pointed percent : Bool)
    (hexponent : exponent = [] ∨ IsExponent exponent) (v : List Char) :
    whole.length + pointed.toNat + fraction.length + exponent.length + percent.toNat ≤
      (Numeral.closedBy culture whole pointed fraction
        (exponent ++ (Numeral.percentSign culture percent ++ v))).length := by
  cases percent with
  | true =>
    have hclosed := closedBy_percent hculture whole fraction pointed hexponent v
    rw [Numeral.percentSign, if_pos rfl, List.singleton_append, hclosed, Numeral.length]
  | false =>
    have hlength := length_le_exponentAt hexponent v
    rw [Numeral.percentSign, if_neg Bool.false_ne_true, List.nil_append, Numeral.closedBy,
      Numeral.length]
    dsimp only
    simp only [Bool.toNat_false]
    omega

/-- Digits and a separator are taken, and the fraction behind them. -/
theorem start_pointed {whole : List Char} (hwhole : ∀ c ∈ whole, isDigit c = true)
    (rest : List Char) :
    Numeral.start culture (whole ++ culture.decimalSeparator :: rest) =
      Numeral.closedBy culture whole true (rest.takeWhile isDigit) (rest.dropWhile isDigit) := by
  have hpoint : ∀ c ∈ (culture.decimalSeparator :: rest).head?, isDigit c = false := by
    rintro c ⟨⟩
    exact hculture.decimalSeparator.1
  obtain ⟨htake, hdrop⟩ := run_printed hwhole hpoint
  rw [start_of_point hdrop, htake]

/-- No literal at the start of a text is longer than the one that is taken. -/
theorem length_le_start (h : n.WellFormed) (hexponent : n.spelt culture <+: text) :
    n.length ≤ (Numeral.start culture text).length := by
  obtain ⟨v, rfl⟩ := hexponent
  have hclosed := fun fraction pointed =>
    length_le_closedBy hculture n.whole fraction pointed n.percent h.exponent v
  rw [Numeral.spelt, List.append_assoc, List.append_assoc, List.append_assoc]
  cases hpointed : n.pointed with
  | true =>
    rw [if_pos rfl, List.cons_append, start_pointed hculture h.whole]
    by_cases hne : n.exponent = [] ∧ n.percent = false
    · -- Nothing stands behind the fraction, so what is taken may be longer.
      have hfraction := length_le_run h.fraction
        (n.exponent ++ (Numeral.percentSign culture n.percent ++ v))
      refine Nat.le_trans ?_ (length_mantissa_le ..)
      rw [Numeral.length, hpointed]
      simp only [hne.1, hne.2, List.length_nil, Bool.toNat_false] at hfraction ⊢
      omega
    · obtain ⟨htake, hdrop⟩ := run_printed h.fraction
        fun c hc => (head?_closing hculture h.exponent hne v c hc).1
      rw [htake, hdrop, Numeral.length, hpointed]
      exact hclosed _ _
  | false =>
    rw [if_neg Bool.false_ne_true, List.nil_append]
    by_cases hne : n.exponent = [] ∧ n.percent = false
    · refine Nat.le_trans ?_ (length_whole_le _)
      have hwhole := length_le_run h.whole
        (n.exponent ++ (Numeral.percentSign culture n.percent ++ v))
      rw [Numeral.length, hpointed, h.fraction_eq_nil hpointed]
      simp only [hne.1, hne.2, List.length_nil, Bool.toNat_false] at hwhole ⊢
      omega
    · have hend := head?_closing hculture h.exponent hne v
      obtain ⟨htake, hdrop⟩ := run_printed h.whole fun c hc => (hend c hc).1
      have hpoint : ((n.whole ++ (n.exponent ++ (Numeral.percentSign culture n.percent ++
          v))).dropWhile isDigit).head? ≠ some culture.decimalSeparator := by
        rw [hdrop]
        exact fun hhead => (hend _ hhead).2 rfl
      rw [start_of_no_point hpoint, htake, hdrop, Numeral.length, hpointed,
        h.fraction_eq_nil hpointed]
      exact hclosed _ _

/-- Behind a mantissa nothing but its exponent and its percent sign is taken if nothing else is
there. -/
theorem closedBy_closing (whole fraction : List Char) (pointed percent : Bool)
    (hexponent : exponent = [] ∨ IsExponent exponent) :
    Numeral.closedBy culture whole pointed fraction
        (exponent ++ Numeral.percentSign culture percent) =
      ⟨whole, pointed, fraction, exponent, percent⟩ := by
  cases percent with
  | true => exact closedBy_percent hculture whole fraction pointed hexponent []
  | false =>
    have hsame : Numeral.exponentAt (exponent ++ []) = exponent := by
      rcases hexponent with rfl | hexponent
      · rfl
      · rw [exponentAt_append hexponent, List.takeWhile_nil, List.append_nil]
    rw [Numeral.percentSign, if_neg Bool.false_ne_true, Numeral.closedBy, hsame, List.drop_left]
    rfl

/-- A literal is taken again from its own characters, so no other one is written like it. -/
theorem start_spelt (h : n.WellFormed) : Numeral.start culture (n.spelt culture) = n := by
  have hend : ∀ c ∈ (n.exponent ++ Numeral.percentSign culture n.percent).head?,
      isDigit c = false ∧ c ≠ culture.decimalSeparator := by
    by_cases hne : n.exponent = [] ∧ n.percent = false
    · rw [hne.1, hne.2]
      nofun
    · have hclosing := head?_closing hculture h.exponent hne []
      rwa [List.append_nil] at hclosing
  have hclosed := fun fraction pointed =>
    closedBy_closing hculture n.whole fraction pointed n.percent h.exponent
  rw [Numeral.spelt]
  cases hpointed : n.pointed with
  | true =>
    obtain ⟨htake, hdrop⟩ := run_printed h.fraction fun c hc => (hend c hc).1
    rw [if_pos rfl, List.cons_append, start_pointed hculture h.whole, htake, hdrop, hclosed,
      ← hpointed]
  | false =>
    obtain ⟨htake, hdrop⟩ := run_printed h.whole fun c hc => (hend c hc).1
    have hpoint : ((n.whole ++ (n.exponent ++ Numeral.percentSign culture n.percent)).dropWhile
        isDigit).head? ≠ some culture.decimalSeparator := by
      rw [hdrop]
      exact fun hhead => (hend _ hhead).2 rfl
    rw [if_neg Bool.false_ne_true, List.nil_append, start_of_no_point hpoint, htake, hdrop, hclosed,
      ← h.fraction_eq_nil hpointed, ← hpointed]

end

/-! ## The numbers of a source -/

/-- Where a number starts, its literal is found. -/
theorem exists_numberFrom {c : Char} {rest : List Char}
    (h : Numeral.startsWith culture c rest = true) :
    ∃ y, Number.read? (Numeral.start culture (c :: rest)).text = some y ∧
      numberFrom culture (c :: rest) = .ok ⟨.literal (.number
        (if (Numeral.start culture (c :: rest)).percent then y / 100 else y)),
        (Numeral.start culture (c :: rest)).length⟩ := by
  obtain ⟨y, hy⟩ := exists_read?_text (wellFormed_start h)
  refine ⟨y, hy, ?_⟩
  rw [numberFrom, Numeral.value?, hy]
  rfl

/-- No token is missed for a number that cannot be read. -/
theorem ne_invalidNumber {s : Spelling} {c : Char} {rest : List Char}
    {found : Found SyntaxProblem} (h : lexemeFrom s c rest = .error found) :
    found.item ≠ .invalidNumber := by
  have htext : ∀ (quote : Char) (done text : List Char) (length : Nat),
      textFrom quote done length text = .error found → found.item ≠ .invalidNumber := by
    intro quote done text length htext
    fun_induction textFrom quote done length text with
    | case1 | case3 => cases htext; exact SyntaxProblem.noConfusion
    | case2 | case5 => cases htext
    | case4 _ _ _ ih | case6 _ _ _ _ _ _ ih => exact ih htext
  rw [lexemeFrom] at h
  split at h
  · next hstarts =>
    obtain ⟨y, -, hnumber⟩ := exists_numberFrom hstarts
    rw [hnumber] at h
    cases h
  split at h
  · cases h
  split at h
  · cases h
  split at h
  · exact htext _ _ _ _ h
  split at h
  · rw [dateFrom] at h
    split at h
    · cases h
      exact SyntaxProblem.noConfusion
    split at h
    · cases h
    · cases h
      exact SyntaxProblem.noConfusion
  · rw [nameFrom] at h
    split at h
    · cases h
    · cases h
      exact SyntaxProblem.noConfusion

/-- No source has a numeral that cannot be read, by induction on the text that is left. -/
theorem scanFrom_ne_invalidNumber (s : Spelling) (afterLiteral : Bool) (position : Nat)
    (text : List Char) : ∀ flaw ∈ (scanFrom s afterLiteral position text).flaw,
      flaw.problem ≠ .invalidNumber := by
  refine @scanFrom_induct s (fun _ _ _ scan => ∀ flaw ∈ scan.flaw, flaw.problem ≠ .invalidNumber)
    ?_ ?_ ?_ afterLiteral position text
  · intro _ _ _ _
    nofun
  · rintro _ _ _ _ _ found _ _ hfound flaw ⟨⟩
    exact ne_invalidNumber hfound
  · exact fun _ _ _ _ _ _ _ _ _ ih => ih

/-- Number literals never fail, and they are as long as can be.  Whatever the culture and the
characters of names, no source is refused for a number that cannot be read: where a number starts, a
literal is found.  If the culture tells its separator and its percent sign apart, what is found is a
literal as it is written there, no longer one stands at the place, and its value is the number that
it is read as with a decimal point, a hundredth of it behind a percent sign. -/
theorem numbers_longest (s : Spelling) :
    (∀ source, ∀ flaw ∈ (scan s source).flaw, flaw.problem ≠ .invalidNumber) ∧
    ∀ c rest, Numeral.startsWith s.culture c rest = true → ∃ x taken ahead,
      c :: rest = taken ++ ahead ∧
      lexemeFrom s c rest = .ok ⟨.literal (.number x), taken.length⟩ ∧
      (s.culture.TellsApart →
        (∃ n : Numeral, n.WellFormed ∧ n.spelt s.culture = taken) ∧
        (∀ n : Numeral, n.WellFormed → n.spelt s.culture <+: c :: rest →
          (n.spelt s.culture).length ≤ taken.length) ∧
        ∀ n : Numeral, n.WellFormed → n.spelt s.culture = taken →
          ∃ y, Number.read? n.text = some y ∧ x = if n.percent then y / 100 else y) := by
  refine ⟨?_, ?_⟩
  · intro source
    rw [scan.eq_def]
    split <;> exact scanFrom_ne_invalidNumber s _ _ _
  · intro c rest hstarts
    have hformed := wellFormed_start hstarts
    obtain ⟨ahead, hahead⟩ := spelt_start_atStart s.culture (c :: rest)
    obtain ⟨y, hread, hnumber⟩ := exists_numberFrom hstarts
    refine ⟨if (Numeral.start s.culture (c :: rest)).percent then y / 100 else y, _, ahead,
      hahead.symm, ?_, fun hculture => ⟨⟨_, hformed, rfl⟩, ?_, ?_⟩⟩
    · rw [lexemeFrom, if_pos hstarts, hnumber, length_spelt hformed]
    · intro n hn hexponent
      rw [length_spelt hn, length_spelt hformed]
      exact length_le_start hculture hn hexponent
    · intro n hn hsame
      -- The literal is determined by its characters.
      obtain rfl : n = Numeral.start s.culture (c :: rest) := by
        rw [← start_spelt hculture hn, hsame, start_spelt hculture hformed]
      exact ⟨y, hread, rfl⟩

/-- With a decimal comma, `1,5e2%` is one literal: a hundredth of `1.5e2`. -/
theorem numbers_longest_decimalComma : ∃ y, Number.read? "1.5e2".toList = some y ∧
    lexemeFrom ⟨.withSeparators ',' ';', []⟩ '1' ",5e2%".toList =
      .ok ⟨.literal (.number (y / 100)), 6⟩ := by
  have hculture : (Culture.withSeparators ',' ';').TellsApart := ⟨by decide, by decide, by decide⟩
  have hformed : (⟨['1'], true, ['5'], ['e', '2'], true⟩ : Numeral).WellFormed :=
    ⟨List.forall_mem_singleton.mpr rfl, List.forall_mem_singleton.mpr rfl, nofun,
      .inl nofun, .inr ⟨'e', .inl rfl, [], List.mem_cons_self, ['2'], nofun,
        List.forall_mem_singleton.mpr rfl, rfl⟩⟩
  obtain ⟨x, taken, ahead, htext, hfound, hlongest⟩ :=
    (numbers_longest ⟨.withSeparators ',' ';', []⟩).2 '1' ",5e2%".toList (by decide)
  obtain ⟨-, hlength, hvalue⟩ := hlongest hculture
  -- The literal is the whole text, so that nothing is left ahead.
  have hlong : 6 ≤ taken.length := hlength _ hformed (List.prefix_refl _)
  have hahead := congrArg List.length htext
  rw [List.length_append] at hahead
  obtain rfl : ahead = [] := by
    have : 6 = taken.length + ahead.length := hahead
    exact List.eq_nil_of_length_eq_zero (by omega)
  rw [List.append_nil] at htext
  obtain ⟨y, hread, rfl⟩ := hvalue _ hformed htext
  exact ⟨y, hread, by rw [hfound, ← htext]; rfl⟩

end Formula
