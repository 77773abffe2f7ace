import Formula.Proofs.Token.Coverage
import Formula.Proofs.Token.LongestNumeral
import Mathlib.Data.List.Forall2

/-!
# Sources with decimal commas

A source is written with decimal commas when every point in a number becomes a comma and every comma
between the items of a list a semicolon.  A culture that writes them so cuts that source into the
same tokens, at the same places and of the same values.  By induction on the scan, each token is
found again, for what follows it differs only in characters that go on with no token in either
culture, or is a comma where a point was.
-/

namespace Formula

open Text (isDigit)

/-! ## Points and commas exchanged -/

/-- The spelling with decimal commas and semicolons between the items of a list. -/
def Spelling.comma : Spelling := ⟨.withSeparators ',' ';', []⟩

namespace Lexeme

/-- Whether a token separates the items of a list. -/
def isSeparator : Lexeme → Bool
  | separator _ => true
  | _ => false

/-- Whether a token is a number. -/
def isNumber : Lexeme → Bool
  | literal (.number _) => true
  | _ => false

/-- A character of a token as it is written with decimal commas. -/
def exchange (l : Lexeme) (c : Char) : Char :=
  if l.isSeparator ∧ c = ',' then ';' else if l.isNumber ∧ c = '.' then ',' else c

/-- A token as it is found with decimal commas. -/
def exchanged : Lexeme → Lexeme
  | separator _ => separator ';'
  | l => l

end Lexeme

/-- A token as it is found with decimal commas, at the same place. -/
def Token.exchanged (t : Token) : Token := { t with lexeme := t.lexeme.exchanged }

/-- A character at a place of a source, exchanged as the token asks that covers it. -/
def exchangedAt (tokens : List Token) (i : Nat) (c : Char) : Char :=
  match tokens.find? (·.covers i) with
  | some t => t.lexeme.exchange c
  | none => c

/-- A text that starts at a position of the source, as it is written with decimal commas. -/
def exchangedFrom (tokens : List Token) (position : Nat) (text : List Char) : List Char :=
  text.mapIdx fun i c => exchangedAt tokens (position + i) c

/-! ## Characters that differ -/

/-- Whether two characters are the same, but for a comma in the place of a point or a semicolon in
that of a comma. -/
inductive Exchanged : Char → Char → Prop where
  | same (c : Char) : Exchanged c c
  | separator : Exchanged ',' ';'
  | point : Exchanged '.' ','

/-- A character in a token is exchanged for itself or for the other mark. -/
theorem exchanged_exchange (l : Lexeme) (c : Char) : Exchanged c (l.exchange c) := by
  rw [Lexeme.exchange]
  split
  · next h =>
    rw [h.2]
    exact .separator
  split
  · next h =>
    rw [h.2]
    exact .point
  · exact .same c

/-- So is a character at any place of a source. -/
theorem exchanged_exchangedAt (tokens : List Token) (i : Nat) (c : Char) :
    Exchanged c (exchangedAt tokens i c) := by
  rw [exchangedAt]
  split
  · exact exchanged_exchange ..
  · exact .same c

/-- What does not tell points, commas and semicolons apart does not tell exchanged characters
apart. -/
theorem Exchanged.congr {α : Type} {c c' : Char} (h : Exchanged c c') {p : Char → α}
    (hcomma : p ';' = p ',') (hpoint : p ',' = p '.') : p c' = p c := by
  cases h with
  | same => rfl
  | separator => exact hcomma
  | point => exact hpoint

/-- Only points and commas are exchanged. -/
theorem Exchanged.eq {c c' : Char} (h : Exchanged c c') (hc : c ∉ ['.', ',']) : c' = c := by
  cases h with
  | same => rfl
  | separator | point => exact absurd hc (by decide)

/-- Two texts that differ in exchanged characters only. -/
abbrev Alike (u u' : List Char) : Prop := List.Forall₂ Exchanged u u'

namespace Alike

variable {u u' v v' : List Char}

theorem refl (u : List Char) : Alike u u := List.forall₂_same.mpr fun c _ => .same c

theorem append (h : Alike u u') (h' : Alike v v') : Alike (u ++ v) (u' ++ v') :=
  List.rel_append h h'

/-- A character that is no point, comma or semicolon stands at the start of both or of neither. -/
theorem head?_eq_iff (h : Alike u u') {c : Char} (hc : c ∉ ['.', ',', ';']) :
    u'.head? = some c ↔ u.head? = some c := by
  cases h with
  | nil => rfl
  | cons hd _ =>
    rw [List.head?_cons, List.head?_cons, Option.some.injEq, Option.some.injEq]
    cases hd with
    | same => rfl
    | separator | point => constructor <;> rintro rfl <;> exact absurd hc (by decide)

theorem exists_cons {c : Char} (h : Alike (c :: u) v) (hc : c ∉ ['.', ',']) :
    ∃ u', v = c :: u' ∧ Alike u u' := by
  cases h with
  | cons hd htail => exact ⟨_, by rw [hd.eq hc], htail⟩

/-- A run of characters without points, commas and semicolons is the same in both. -/
theorem run (h : Alike u u') {p : Char → Bool} (hcomma : p ',' = false) (hpoint : p '.' = false)
    (hsemicolon : p ';' = false) :
    u'.takeWhile p = u.takeWhile p ∧ Alike (u.dropWhile p) (u'.dropWhile p) := by
  induction h with
  | nil => exact ⟨rfl, .nil⟩
  | @cons c c' u u' hd htail ih =>
    have hsame : p c' = p c :=
      hd.congr (hsemicolon.trans hcomma.symm) (hcomma.trans hpoint.symm)
    rw [List.takeWhile_cons, List.takeWhile_cons, List.dropWhile_cons, List.dropWhile_cons, hsame]
    by_cases hc : p c = true
    · obtain rfl : c' = c := by
        apply hd.eq
        simp only [List.mem_cons, List.not_mem_nil, or_false]
        rintro (rfl | rfl)
        · exact absurd hc (by rw [hpoint]; decide)
        · exact absurd hc (by rw [hcomma]; decide)
      rw [if_pos hc, if_pos hc, if_pos hc, if_pos hc, ih.1]
      exact ⟨rfl, ih.2⟩
    · rw [if_neg hc, if_neg hc, if_neg hc, if_neg hc]
      exact ⟨rfl, .cons hd htail⟩

theorem digits (h : Alike u u') :
    u'.takeWhile isDigit = u.takeWhile isDigit ∧
      Alike (u.dropWhile isDigit) (u'.dropWhile isDigit) :=
  h.run rfl rfl rfl

theorem exponentOf (h : Alike u u') (marker : List Char) :
    Numeral.exponentOf marker u' = Numeral.exponentOf marker u := by
  rw [Numeral.exponentOf, Numeral.exponentOf, h.digits.1]

/-- An exponent holds no points, commas or semicolons, and so it is the same in both. -/
theorem exponentAt (h : Alike u u') : Numeral.exponentAt u' = Numeral.exponentAt u := by
  cases h with
  | nil => rfl
  | @cons marker marker' rest rest' hd htail =>
    replace htail : Alike rest rest' := htail
    by_cases hmarker : marker = 'e' ∨ marker = 'E'
    · obtain rfl : marker' = marker := hd.eq (by rcases hmarker with rfl | rfl <;> decide)
      -- The signs are told by the next character, which is the same or no sign in both.
      by_cases hplus : rest.head? = some '+'
      · obtain ⟨digits, rfl⟩ := List.head?_eq_some_iff.mp hplus
        obtain ⟨digits', rfl, hdigits⟩ := htail.exists_cons (by decide)
        rw [exponentAt_plus hmarker, exponentAt_plus hmarker, hdigits.exponentOf]
      by_cases hminus : rest.head? = some '-'
      · obtain ⟨digits, rfl⟩ := List.head?_eq_some_iff.mp hminus
        obtain ⟨digits', rfl, hdigits⟩ := htail.exists_cons (by decide)
        rw [exponentAt_minus hmarker, exponentAt_minus hmarker, hdigits.exponentOf]
      · have hplus' := mt (htail.head?_eq_iff (c := '+') (by decide)).mp hplus
        have hminus' := mt (htail.head?_eq_iff (c := '-') (by decide)).mp hminus
        rw [exponentAt_digits hmarker hplus hminus, exponentAt_digits hmarker hplus' hminus',
          htail.exponentOf]
    · have hmarker' : ¬ (marker' = 'e' ∨ marker' = 'E') := by
        cases hd with
        | same => exact hmarker
        | separator | point => decide
      rw [exponentAt_eq_nil hmarker, exponentAt_eq_nil hmarker']

/-- The two cultures have the same percent sign. -/
theorem closedBy (h : Alike u u') (whole fraction : List Char) (pointed : Bool) :
    Numeral.closedBy Spelling.comma.culture whole pointed fraction u' =
      Numeral.closedBy {} whole pointed fraction u := by
  have hpercent : ((u'.drop (Numeral.exponentAt u).length).head? == some '%') =
      ((u.drop (Numeral.exponentAt u).length).head? == some '%') := by
    rw [Bool.eq_iff_iff, beq_iff_eq, beq_iff_eq]
    exact Alike.head?_eq_iff (List.forall₂_drop _ h) (by decide)
  rw [Numeral.closedBy, Numeral.closedBy, h.exponentAt]
  exact congrArg _ hpercent

end Alike

/-! ## Numbers -/

theorem tellsApart_invariant : ({} : Culture).TellsApart := ⟨by decide, by decide, by decide⟩

theorem tellsApart_comma : Spelling.comma.culture.TellsApart := ⟨by decide, by decide, by decide⟩

section
variable {n : Numeral} {v v' : List Char}

/-- What follows a run that is known. -/
theorem dropWhile_of_takeWhile {p : Char → Bool} {w t : List Char}
    (h : (w ++ t).takeWhile p = w) : (w ++ t).dropWhile p = t := by
  have happend := List.takeWhile_append_dropWhile (p := p) (l := w ++ t)
  rw [h] at happend
  exact List.append_cancel_left happend

/-- A literal is taken with a decimal comma as it is with a point, if a comma behind it was a point
before. -/
theorem start_exchanged (hn : n.WellFormed) (hstart : Numeral.start {} (n.spelt {} ++ v) = n)
    (hv : Alike v v') (hhead : v'.head? = some ',' → v.head? = some '.') :
    Numeral.start Spelling.comma.culture (n.spelt Spelling.comma.culture ++ v') = n := by
  rw [Numeral.spelt, List.append_assoc, List.append_assoc, List.append_assoc] at hstart ⊢
  have hclosing : Alike (n.exponent ++ (Numeral.percentSign {} n.percent ++ v))
      (n.exponent ++ (Numeral.percentSign Spelling.comma.culture n.percent ++ v')) :=
    (Alike.refl _).append ((Alike.refl _).append hv)
  cases hpointed : n.pointed with
  | true =>
    rw [hpointed, if_pos rfl, List.cons_append, start_pointed tellsApart_invariant hn.whole]
      at hstart
    obtain ⟨htake, hdrop⟩ := ((Alike.refl n.fraction).append hclosing).digits
    rw [if_pos rfl, List.cons_append, start_pointed tellsApart_comma hn.whole, htake,
      hdrop.closedBy]
    exact hstart
  | false =>
    rw [hpointed, if_neg Bool.false_ne_true, List.nil_append] at hstart
    rw [if_neg Bool.false_ne_true, List.nil_append]
    have htake := congrArg Numeral.whole hstart
    have hpoint := congrArg Numeral.pointed hstart
    rw [Numeral.start] at htake hpoint
    dsimp only at htake hpoint
    have hdrop := dropWhile_of_takeWhile htake
    have htake' := ((Alike.refl n.whole).append hclosing).digits.1.trans htake
    have hdrop' := dropWhile_of_takeWhile htake'
    rw [hpointed, hdrop, beq_eq_false_iff_ne] at hpoint
    -- No separator stands behind the digits, in either spelling.
    have hcomma : (n.exponent ++ (Numeral.percentSign Spelling.comma.culture n.percent ++
        v')).head? ≠ some Spelling.comma.culture.decimalSeparator := by
      intro hc
      by_cases hne : n.exponent = [] ∧ n.percent = false
      · rw [hne.1, hne.2] at hc hpoint
        exact hpoint (hhead hc)
      · exact (head?_closing tellsApart_comma hn.exponent hne v' _ hc).2 rfl
    rw [start_of_no_point (by rw [hdrop]; exact hpoint), htake, hdrop] at hstart
    rw [start_of_no_point (by rw [hdrop']; exact hcomma), htake', hdrop', hclosing.closedBy]
    exact hstart

/-- There is no point in an exponent. -/
theorem not_mem_exponent {exponent : List Char} (h : exponent = [] ∨ IsExponent exponent) :
    '.' ∉ exponent := by
  rcases h with rfl | ⟨marker, hmarker, sign, hsign, digits, -, hdigits, rfl⟩
  · exact List.not_mem_nil
  · intro hpoint
    rcases List.mem_cons.mp hpoint with hpoint | hpoint
    · rcases hmarker with rfl | rfl <;> exact absurd hpoint (by decide)
    rcases List.mem_append.mp hpoint with hpoint | hpoint
    · simp only [List.mem_cons, List.not_mem_nil, or_false] at hsign
      rcases hsign with rfl | rfl | rfl <;> exact absurd hpoint (by decide)
    · exact absurd (hdigits _ hpoint) (by decide)

/-- A literal with its point exchanged is the literal as it is written with a decimal comma. -/
theorem map_exchange_spelt (hn : n.WellFormed) (x : Float) :
    (n.spelt {}).map (Lexeme.literal (.number x)).exchange = n.spelt Spelling.comma.culture := by
  have hsame : ∀ text : List Char, '.' ∉ text →
      text.map (Lexeme.literal (.number x)).exchange = text := by
    intro text htext
    refine (List.map_congr_left fun c hc => ?_).trans (List.map_id' text)
    rw [Lexeme.exchange, if_neg (by simp [Lexeme.isSeparator]), if_neg]
    rintro ⟨-, rfl⟩
    exact htext hc
  have hwhole : '.' ∉ n.whole := fun hpoint => absurd (hn.whole _ hpoint) (by decide)
  have hfraction : '.' ∉ n.fraction := fun hpoint => absurd (hn.fraction _ hpoint) (by decide)
  have hpercent : '.' ∉ Numeral.percentSign {} n.percent := by cases n.percent <;> decide
  rw [Numeral.spelt, Numeral.spelt, List.map_append, List.map_append, List.map_append,
    hsame _ hwhole, hsame _ (not_mem_exponent hn.exponent), hsame _ hpercent]
  cases n.pointed with
  | true =>
    rw [if_pos rfl, if_pos rfl, List.map_cons, hsame _ hfraction]
    rfl
  | false => rfl

/-- A number starts where a literal is written. -/
theorem startsWith_spelt {culture : Culture} {c : Char} {rest : List Char} (hn : n.WellFormed)
    (htext : n.spelt culture ++ v = c :: rest) : Numeral.startsWith culture c rest = true := by
  rw [Numeral.spelt] at htext
  cases hwhole : n.whole with
  | cons d whole =>
    rw [hwhole] at htext
    cases htext
    rw [Numeral.startsWith, hn.whole c (hwhole ▸ List.mem_cons_self), Bool.true_or]
  | nil =>
    have hfraction := hn.digits.resolve_left fun hne => hne hwhole
    have hpointed : n.pointed = true := by
      rw [← Bool.not_eq_false]
      exact fun hpointed => hfraction (hn.fraction_eq_nil hpointed)
    obtain ⟨d, fraction, hd⟩ := List.exists_cons_of_ne_nil hfraction
    rw [hwhole, hpointed, hd] at htext
    cases htext
    have hdigit : isDigit d = true := hn.fraction d (hd ▸ List.mem_cons_self)
    simp [Numeral.startsWith, hdigit]

end

/-! ## Single tokens -/

section
variable {c : Char} {r v v' : List Char} {found : Found Lexeme}

/-- A number is found again. -/
theorem numberFrom_exchanged (hstarts : Numeral.startsWith {} c (r ++ v) = true)
    (h : numberFrom {} (c :: (r ++ v)) = .ok found) (hlen : found.length = r.length + 1)
    (hv : Alike v v') (hhead : v'.head? = some ',' → v.head? = some '.') :
    lexemeFrom Spelling.comma (found.item.exchange c) (r.map found.item.exchange ++ v') =
      .ok ⟨found.item.exchanged, found.length⟩ := by
  have hn := wellFormed_start hstarts
  obtain ⟨ahead, hahead⟩ := spelt_start_atStart {} (c :: (r ++ v))
  generalize hstart : Numeral.start {} (c :: (r ++ v)) = n at hn hahead
  rw [numberFrom, hstart] at h
  split at h
  · next x hx =>
    cases h
    -- The characters of the token are those of the literal.
    have hsame : n.spelt {} = c :: r ∧ ahead = v := by
      rw [← List.cons_append] at hahead
      exact List.append_inj hahead ((length_spelt hn).trans hlen)
    obtain ⟨hspelt, rfl⟩ := hsame
    have hcomma := map_exchange_spelt hn x
    rw [hspelt, List.map_cons] at hcomma
    rw [← hahead] at hstart
    have hfound := start_exchanged hn hstart hv hhead
    have htext : n.spelt Spelling.comma.culture ++ v' =
        (Lexeme.literal (.number x)).exchange c ::
          (r.map (Lexeme.literal (.number x)).exchange ++ v') := by
      rw [← hcomma]
      rfl
    have hnumber : Numeral.startsWith Spelling.comma.culture
        ((Lexeme.literal (.number x)).exchange c)
          (r.map (Lexeme.literal (.number x)).exchange ++ v') = true := startsWith_spelt hn htext
    rw [lexemeFrom, if_pos hnumber, ← htext, numberFrom, hfound, hx]
    rfl
  · cases h

/-- The token that starts with a character, with decimal commas. -/
theorem lexemeFrom_decimalComma (c : Char) (rest : List Char) :
    lexemeFrom Spelling.comma c rest =
      if Numeral.startsWith Spelling.comma.culture c rest then
        numberFrom Spelling.comma.culture (c :: rest)
      else if c = ';' then .ok ⟨.separator c, 1⟩
      else
        match signAt? c rest with
        | some found => .ok found
        | none =>
          if c = '"' ∨ c = '\'' then textFrom c [] 1 rest
          else if c = '#' then dateFrom {} rest
          else nameFrom Spelling.comma c rest :=
  rfl

/-- A sign is found again, or none is there again. -/
theorem signAt?_exchanged
    (h : ∀ found, signAt? c (r ++ v) = some found → found.length = r.length + 1) (hv : Alike v v') :
    signAt? c (r ++ v') = signAt? c (r ++ v) := by
  cases r with
  | cons d r => rfl
  | nil =>
    -- No sign of two characters ends with a point, a comma or a semicolon.
    have hother : ∀ d ∈ ['.', ',', ';'], doubleOperator? c d = none := by
      intro d hd
      rw [doubleOperator?.eq_def]
      split <;> first | rfl | exact absurd hd (by decide)
    have hdouble : v'.head?.bind (doubleOperator? c) = v.head?.bind (doubleOperator? c) := by
      cases hv with
      | nil => rfl
      | cons hd _ =>
        exact hd.congr ((hother _ (by decide)).trans (hother _ (by decide)).symm)
          ((hother _ (by decide)).trans (hother _ (by decide)).symm)
    cases hop : v.head?.bind (doubleOperator? c) with
    | none => rw [List.nil_append, List.nil_append, signAt?, signAt?, hdouble, hop]
    | some op =>
      have htwo := h ⟨.operator op (String.ofList (c :: v.take 1)), 2⟩
        (by rw [signAt?, List.nil_append, hop])
      exact absurd htwo (by simp)

/-- A name is found again. -/
theorem nameFrom_exchanged (hv : Alike v v') :
    nameFrom Spelling.comma c (r ++ v') = nameFrom Spelling.plain c (r ++ v) := by
  obtain ⟨htake, -⟩ := ((Alike.refl r).append hv).run (p := Spelling.plain.continuesName)
    (by decide +kernel) (by decide +kernel) (by decide +kernel)
  calc nameFrom Spelling.comma c (r ++ v')
    _ = nameFrom Spelling.plain c (r ++ v') := rfl
    _ = nameFrom Spelling.plain c (r ++ v) := by rw [nameFrom, nameFrom, htake]

/-- Whether a token holds no character that is exchanged. -/
def Lexeme.Stays (l : Lexeme) : Prop := l.isSeparator = false ∧ l.isNumber = false

/-- In a token that stays no character is exchanged. -/
theorem Lexeme.Stays.exchange_eq {l : Lexeme} (h : l.Stays) : l.exchange = id := by
  funext c
  rw [Lexeme.exchange, h.1, h.2, if_neg (by simp), if_neg (by simp)]
  rfl

/-- Such a token is its own counterpart. -/
theorem Lexeme.Stays.exchanged_eq {l : Lexeme} (h : l.Stays) : l.exchanged = l := by
  cases l with
  | separator => exact absurd h.1 (by simp [Lexeme.isSeparator])
  | _ => rfl

/-- Signs and operators stay, for the marks are not among them. -/
theorem stays_of_signAt? {rest : List Char} (h : signAt? c rest = some found) :
    found.item.Stays := by
  rw [signAt?] at h
  split at h
  · cases h
    exact ⟨rfl, rfl⟩
  · obtain ⟨l, hsign, rfl⟩ := Option.map_eq_some_iff.mp h
    rw [sign?.eq_def] at hsign
    split at hsign <;> cases hsign <;> exact ⟨rfl, rfl⟩

/-- A token that is no number and no separator holds no character that is exchanged. -/
theorem stays_of_lexemeFrom {rest : List Char}
    (hnumber : ¬ Numeral.startsWith {} c rest = true) (hcomma : c ≠ ',')
    (h : lexemeFrom Spelling.plain c rest = .ok found) : found.item.Stays := by
  rw [lexemeFrom_invariant rfl, if_neg hnumber, if_neg hcomma] at h
  split at h
  · next hsign =>
    cases h
    exact stays_of_signAt? hsign
  split at h
  · obtain ⟨text, htext⟩ := text_of_textFrom h
    rw [htext]
    exact ⟨rfl, rfl⟩
  split at h
  · rw [dateFrom] at h
    split at h
    · cases h
    split at h <;> cases h
    exact ⟨rfl, rfl⟩
  · rw [nameFrom] at h
    split at h <;> cases h
    exact ⟨rfl, rfl⟩

/-- A semicolon starts no token in the invariant culture. -/
theorem ne_semicolon {rest : List Char} (h : lexemeFrom Spelling.plain c rest = .ok found) :
    c ≠ ';' := by
  rintro rfl
  have hname : Spelling.plain.startsName ';' = false := by decide +kernel
  have hpoint : (';' == ({} : Culture).decimalSeparator) = false :=
    beq_eq_false_iff_ne.mpr (by decide)
  have hdigit : isDigit ';' = false := by decide
  have hnumber : Numeral.startsWith {} ';' rest = false := by
    rw [Numeral.startsWith, hpoint, hdigit, Bool.false_and, Bool.false_or]
  have hcomma : ¬ ';' = ',' := by decide
  have hquote : ¬ (';' = '"' ∨ ';' = '\'') := by decide
  have hmark : ¬ ';' = '#' := by decide
  have hsign : signAt? ';' rest = none := signAt?_of_not_mem (by decide) rest
  rw [lexemeFrom_invariant rfl, hnumber, if_neg Bool.false_ne_true, if_neg hcomma, hsign] at h
  dsimp only at h
  rw [if_neg hquote, if_neg hmark, nameFrom, hname] at h
  cases h

/-- Each token is found again, if a comma behind it was a point before. -/
theorem lexemeFrom_exchanged (h : lexemeFrom Spelling.plain c (r ++ v) = .ok found)
    (hlen : found.length = r.length + 1) (hv : Alike v v')
    (hhead : v'.head? = some ',' → v.head? = some '.') :
    lexemeFrom Spelling.comma (found.item.exchange c) (r.map found.item.exchange ++ v') =
      .ok ⟨found.item.exchanged, found.length⟩ := by
  have hsemicolon := ne_semicolon h
  by_cases hnumber : Numeral.startsWith {} c (r ++ v) = true
  · rw [lexemeFrom_invariant rfl, if_pos hnumber] at h
    exact numberFrom_exchanged hnumber h hlen hv hhead
  by_cases hcomma : c = ','
  · rw [lexemeFrom_invariant rfl, if_neg hnumber, if_pos hcomma] at h
    cases h
    obtain rfl : r = [] := List.eq_nil_of_length_eq_zero (by simpa using hlen)
    rw [hcomma]
    rfl
  have hstays := stays_of_lexemeFrom hnumber hcomma h
  have hnumber' : ¬ Numeral.startsWith Spelling.comma.culture c (r ++ v') = true := by
    rw [Numeral.startsWith, Bool.or_eq_true, not_or] at hnumber ⊢
    refine ⟨hnumber.1, ?_⟩
    rw [show (c == Spelling.comma.culture.decimalSeparator) = false from
      beq_eq_false_iff_ne.mpr hcomma]
    exact Bool.false_ne_true
  have hsign : signAt? c (r ++ v') = signAt? c (r ++ v) := by
    apply signAt?_exchanged _ hv
    intro found' hfound'
    rw [lexemeFrom_invariant rfl, if_neg hnumber, if_neg hcomma, hfound'] at h
    cases h
    exact hlen
  rw [hstays.exchange_eq, hstays.exchanged_eq, List.map_id, id_eq, lexemeFrom_decimalComma,
    if_neg hnumber', if_neg hsemicolon, hsign]
  rw [lexemeFrom_invariant rfl, if_neg hnumber, if_neg hcomma] at h
  cases hop : signAt? c (r ++ v) with
  | some found' =>
    rw [hop] at h
    exact h
  | none =>
  rw [hop] at h
  dsimp only at h ⊢
  split at h
  · next hquote =>
    rw [if_pos hquote]
    refine textFrom_append (hv.head?_eq_iff ?_).mp h (Nat.le_of_eq (by rw [hlen, Nat.add_comm]))
    rcases hquote with rfl | rfl <;> decide
  next hquote =>
  rw [if_neg hquote]
  split at h
  · next hmark =>
    rw [if_pos hmark]
    exact dateFrom_append h (Nat.le_of_eq hlen)
  · next hmark =>
    rw [if_neg hmark, nameFrom_exchanged hv]
    exact h

end

/-! ## The characters of a text -/

section
variable {tokens tokens' : List Token} {position : Nat} {text u v : List Char}

/-- Exchanging the marks of a text changes points and commas only. -/
theorem alike_exchangedFrom (tokens : List Token) (position : Nat) (text : List Char) :
    Alike text (exchangedFrom tokens position text) := by
  rw [Alike, List.forall₂_iff_get]
  refine ⟨List.length_mapIdx.symm, fun i hi hi' => ?_⟩
  simp only [List.get_eq_getElem, exchangedFrom, List.getElem_mapIdx]
  exact exchanged_exchangedAt ..

theorem exchangedFrom_append : exchangedFrom tokens position (u ++ v) =
    exchangedFrom tokens position u ++ exchangedFrom tokens (position + u.length) v := by
  rw [exchangedFrom, List.mapIdx_append]
  simp only [exchangedFrom, Nat.add_assoc, Nat.add_comm u.length]

theorem exchangedFrom_cons {c : Char} : exchangedFrom tokens position (c :: text) =
    exchangedAt tokens position c :: exchangedFrom tokens (position + 1) text :=
  exchangedFrom_append (u := [c])

/-- What is exchanged in a part of a source is told by the tokens on that part. -/
theorem exchangedFrom_congr (h : ∀ i, position ≤ i → i < position + text.length →
      ∀ c, exchangedAt tokens i c = exchangedAt tokens' i c) :
    exchangedFrom tokens position text = exchangedFrom tokens' position text := by
  refine List.ext_getElem (by simp [exchangedFrom]) fun i hi _ => ?_
  rw [exchangedFrom, List.length_mapIdx] at hi
  simp only [exchangedFrom, List.getElem_mapIdx]
  exact h _ (Nat.le_add_right ..) (by omega) _

/-- A part within one token is exchanged character by character. -/
theorem exchangedFrom_eq_map {f : Char → Char} (h : ∀ i, position ≤ i →
      i < position + text.length → ∀ c, exchangedAt tokens i c = f c) :
    exchangedFrom tokens position text = text.map f := by
  refine List.ext_getElem (by simp [exchangedFrom]) fun i hi _ => ?_
  rw [exchangedFrom, List.length_mapIdx] at hi
  simp only [exchangedFrom, List.getElem_mapIdx, List.getElem_map]
  exact h _ (Nat.le_add_right ..) (by omega) _

end

section
variable {afterLiteral : Bool} {start i : Nat} {found : Found Lexeme} {tokens : List Token}

/-- A multiplication that is understood covers no character. -/
theorem find?_tokensOf : (tokensOf afterLiteral start found).find? (·.covers i) =
    if start ≤ i ∧ i < start + found.length then
      some ⟨found.item, start, start + found.length⟩ else none := by
  have hnone : ¬ (start ≤ i ∧ i < start) := by omega
  have htoken : Token.covers ⟨found.item, start, start + found.length⟩ i =
      decide (start ≤ i ∧ i < start + found.length) := by
    rw [Token.covers, Bool.decide_and]
  have htimes : Token.covers ⟨.times, start, start⟩ i = false := by
    rw [Token.covers, ← Bool.decide_and]
    exact decide_eq_false hnone
  by_cases hin : start ≤ i ∧ i < start + found.length
  · rw [decide_eq_true hin] at htoken
    rw [if_pos hin, tokensOf]
    split <;> simp only [List.find?_cons, htimes, htoken]
  · rw [decide_eq_false hin] at htoken
    rw [if_neg hin, tokensOf]
    split <;> simp only [List.find?_cons, htimes, htoken, List.find?_nil]

/-- No token covers a place before the first of them. -/
theorem find?_behind {n : Nat} (htokens : ∀ t ∈ tokens, n ≤ t.start) (hi : i < n) :
    tokens.find? (·.covers i) = none := by
  rw [List.find?_eq_none]
  intro t ht
  have := htokens t ht
  simp only [Token.covers, Bool.and_eq_true, decide_eq_true_eq]
  omega

/-- In a text that starts with a token, what stands before the token stays, its characters are
exchanged as it asks, and the others as those ask that stand behind it. -/
theorem exchangedFrom_token {position : Nat} {blanks r v : List Char} {c : Char}
    (hlen : found.length = r.length + 1)
    (htokens : ∀ t ∈ tokens, position + blanks.length + found.length ≤ t.start) :
    exchangedFrom (tokensOf afterLiteral (position + blanks.length) found ++ tokens) position
        (blanks ++ c :: (r ++ v)) =
      blanks ++ found.item.exchange c :: (r.map found.item.exchange ++
        exchangedFrom tokens (position + blanks.length + found.length) v) := by
  have hsplit : blanks ++ c :: (r ++ v) = blanks ++ (c :: r ++ v) := rfl
  have hlength : (c :: r).length = found.length := hlen.symm
  rw [hsplit, exchangedFrom_append, exchangedFrom_append, hlength]
  have hblanks : exchangedFrom (tokensOf afterLiteral (position + blanks.length) found ++ tokens)
      position blanks = blanks.map id := by
    refine exchangedFrom_eq_map fun i _ hi c => ?_
    rw [exchangedAt, List.find?_append, find?_tokensOf, if_neg (by omega),
      find?_behind htokens (by omega)]
    rfl
  have htoken : exchangedFrom (tokensOf afterLiteral (position + blanks.length) found ++ tokens)
      (position + blanks.length) (c :: r) = (c :: r).map found.item.exchange := by
    refine exchangedFrom_eq_map fun i hi hi' c => ?_
    rw [exchangedAt, List.find?_append, find?_tokensOf, if_pos (by omega)]
    rfl
  have hbehind : exchangedFrom (tokensOf afterLiteral (position + blanks.length) found ++ tokens)
      (position + blanks.length + found.length) v =
        exchangedFrom tokens (position + blanks.length + found.length) v := by
    refine exchangedFrom_congr fun i hi _ c => ?_
    rw [exchangedAt, exchangedAt, List.find?_append, find?_tokensOf, if_neg (by omega),
      Option.none_or]
  rw [hblanks, htoken, hbehind, List.map_id]
  rfl

end

/-! ## All tokens -/

theorem exchanged_isLiteral (l : Lexeme) : l.exchanged.isLiteral = l.isLiteral := by
  cases l <;> rfl

theorem exchanged_isName (l : Lexeme) : l.exchanged.isName = l.isName := by
  cases l <;> rfl

theorem map_exchanged_tokensOf (afterLiteral : Bool) (start : Nat) (found : Found Lexeme) :
    (tokensOf afterLiteral start found).map Token.exchanged =
      tokensOf afterLiteral start ⟨found.item.exchanged, found.length⟩ := by
  rw [tokensOf, tokensOf, exchanged_isName]
  split <;> rfl

/-- Blanks are passed up to the end of the source. -/
theorem scanFrom_blanks {s : Spelling} {afterLiteral : Bool} {position : Nat} {blanks : List Char}
    (hblanks : ∀ b ∈ blanks, isSkipped b = true) : scanFrom s afterLiteral position blanks =
      ⟨[⟨.finish, position + blanks.length, position + blanks.length⟩], none⟩ := by
  have htake : blanks.takeWhile isSkipped = blanks := List.takeWhile_eq_self_iff.mpr hblanks
  have hdrop : blanks.dropWhile isSkipped = [] := List.dropWhile_eq_nil_iff.mpr hblanks
  rw [scanFrom, htake]
  split
  · rfl
  · next hcons =>
    rw [hdrop] at hcons
    cases hcons

/-- A token is a comma with decimal commas only if it was a point that starts a number. -/
theorem eq_point_of_exchange {c : Char} {rest : List Char} {found : Found Lexeme}
    (h : lexemeFrom Spelling.plain c rest = .ok found) (hc : found.item.exchange c = ',') :
    c = '.' := by
  rw [Lexeme.exchange] at hc
  split at hc
  · exact absurd hc (by decide)
  next hseparator =>
  split at hc
  · next hpoint => exact hpoint.2
  · subst hc
    rw [lexemeFrom_comma rfl] at h
    cases h
    exact absurd ⟨rfl, rfl⟩ hseparator

theorem isSkipped_exchange (l : Lexeme) {c : Char} (hc : isSkipped c = false) :
    isSkipped (l.exchange c) = false :=
  ((exchanged_exchange l c).congr (by decide) (by decide)).trans hc

/-- A text is cut into the same tokens when it is written with decimal commas.  It starts with a
comma then only if it starts with a point, so that a number before it does not go on. -/
theorem scanFrom_exchanged (afterLiteral : Bool) (position : Nat) (text : List Char)
    (h : (scanFrom Spelling.plain afterLiteral position text).flaw = none) :
    ((exchangedFrom (scanFrom Spelling.plain afterLiteral position text).tokens position
        text).head? = some ',' → text.head? = some '.') ∧
      scanFrom Spelling.comma afterLiteral position
          (exchangedFrom (scanFrom Spelling.plain afterLiteral position text).tokens position
            text) =
        ⟨(scanFrom Spelling.plain afterLiteral position text).tokens.map Token.exchanged,
          none⟩ := by
  revert h
  have hblank : ∀ (blanks rest : List Char), (∀ b ∈ blanks, isSkipped b = true) →
      (blanks ++ rest).head? = some ',' → blanks = [] := by
    rintro (_ | ⟨b, blanks⟩) rest hblanks hhead
    · rfl
    · cases hhead
      exact absurd (hblanks _ List.mem_cons_self) (by decide)
  refine @scanFrom_induct Spelling.plain (fun afterLiteral position text scan => scan.flaw = none →
    ((exchangedFrom scan.tokens position text).head? = some ',' → text.head? = some '.') ∧
      scanFrom Spelling.comma afterLiteral position (exchangedFrom scan.tokens position text) =
        ⟨scan.tokens.map Token.exchanged, none⟩) ?_ ?_ ?_ afterLiteral position text
  · intro afterLiteral position blanks hblanks _
    have hsame : exchangedFrom [⟨.finish, position + blanks.length, position + blanks.length⟩]
        position blanks = blanks.map id := by
      refine exchangedFrom_eq_map fun i _ hi c => ?_
      rw [exchangedAt, find?_behind (n := position + blanks.length) (by simp) hi]
      rfl
    rw [hsame, List.map_id, scanFrom_blanks hblanks]
    refine ⟨fun hhead => ?_, rfl⟩
    rw [hblank blanks [] hblanks (by rwa [List.append_nil])] at hhead
    cases hhead
  · intro _ _ _ _ _ _ _ _ _ h
    cases h
  · intro afterLiteral position blanks c rest found hblanks hc hfound ih h
    obtain ⟨r, v, rfl, hlen⟩ : ∃ r v, rest = r ++ v ∧ found.length = r.length + 1 := by
      obtain ⟨hpos, hle⟩ := length_lexemeFrom hfound
      refine ⟨rest.take (found.length - 1), rest.drop (found.length - 1),
        (List.take_append_drop ..).symm, ?_⟩
      rw [List.length_take]
      omega
    have hdrop : ∀ r' v' : List Char, r'.length = r.length →
        (r' ++ v').drop (found.length - 1) = v' := by
      intro r' v' hlength
      rw [hlen, Nat.add_sub_cancel, ← hlength, List.drop_left]
    rw [hdrop r v rfl] at ih h ⊢
    obtain ⟨hhead, hscan⟩ := ih h
    have hbounds := fun t ht => (scanFrom_bounds Spelling.plain found.item.isLiteral
      (position + blanks.length + found.length) v).2 t ht |>.1
    rw [Scan.tokens_prepend, exchangedFrom_token hlen hbounds]
    generalize scanFrom Spelling.plain found.item.isLiteral
      (position + blanks.length + found.length) v = behind at *
    have hfound' := lexemeFrom_exchanged hfound hlen
      (alike_exchangedFrom behind.tokens (position + blanks.length + found.length) v) hhead
    refine ⟨fun hhead' => ?_, ?_⟩
    · obtain rfl := hblank blanks _ hblanks hhead'
      rw [List.nil_append, List.head?_cons, Option.some.injEq] at hhead'
      rw [eq_point_of_exchange hfound hhead']
      rfl
    · rw [scanFrom_ok hblanks (isSkipped_exchange _ hc) hfound', hdrop _ _ (List.length_map _),
        exchanged_isLiteral, hscan, Scan.prepend, List.map_append, map_exchanged_tokensOf]

/-! ## Sources -/

theorem utf8Size_exchanged {c c' : Char} (h : Exchanged c c') : c'.utf8Size = c.utf8Size :=
  h.congr (by decide) (by decide)

/-- Points and commas take one byte each, so exchanging them moves nothing. -/
theorem byteOffset_alike {u u' : List Char} (h : Alike u u') (n : Nat) :
    byteOffset u' n = byteOffset u n := by
  have hbytes : ∀ {u u' : List Char}, Alike u u' → ∀ bytes : Nat,
      u'.foldl (fun bytes c => bytes + c.utf8Size) bytes =
        u.foldl (fun bytes c => bytes + c.utf8Size) bytes := by
    intro u u' h
    induction h with
    | nil => exact fun _ => rfl
    | cons hd _ ih =>
      intro bytes
      rw [List.foldl_cons, List.foldl_cons, utf8Size_exchanged hd, ih]
  exact hbytes (List.forall₂_take n h) 0

/-- A source that starts with no equals sign is scanned from its first character. -/
theorem scan_of_head? {source : List Char} (h : source.head? ≠ some '=') (s : Spelling) :
    scan s source = scanFrom s false 0 source := by
  rw [scan.eq_def]
  split
  · exact absurd rfl h
  · rfl

/-- A source that is cut into tokens in the invariant culture is cut into the same tokens, at the
same places, when it is written with decimal commas and read in a culture that writes so: every
comma between the items of a list becomes a semicolon, and every point in a number a comma.  The
tokens are of the same values, but for the spelling of the separators of lists, and as all
characters take as many bytes as before, they stand at the same bytes. -/
theorem scan_decimalComma (source : List Char)
    (h : (scan Spelling.plain source).flaw = none) :
    scan Spelling.comma (exchangedFrom (scan Spelling.plain source).tokens 0 source) =
        ⟨(scan Spelling.plain source).tokens.map Token.exchanged, none⟩ ∧
      ∀ n, byteOffset (exchangedFrom (scan Spelling.plain source).tokens 0 source) n =
        byteOffset source n := by
  have halike := alike_exchangedFrom (scan Spelling.plain source).tokens 0 source
  refine ⟨?_, byteOffset_alike halike⟩
  by_cases hequals : source.head? = some '='
  · -- The equals sign before a formula stays, and the scan starts behind it.
    obtain ⟨rest, rfl⟩ := List.head?_eq_some_iff.mp hequals
    have hsource : exchangedFrom (scan Spelling.plain ('=' :: rest)).tokens 0 ('=' :: rest) =
        '=' :: exchangedFrom (scanFrom Spelling.plain false 1 rest).tokens 1 rest := by
      have hstays := (exchanged_exchangedAt (scan Spelling.plain ('=' :: rest)).tokens 0 '=').eq
        (by decide)
      rw [exchangedFrom_cons, hstays]
      rfl
    rw [hsource]
    exact (scanFrom_exchanged false 1 rest h).2
  · rw [scan_of_head? hequals] at h halike ⊢
    rw [scan_of_head? (mt (halike.head?_eq_iff (by decide)).mp hequals)]
    exact (scanFrom_exchanged false 0 source h).2

/-- The point of a number and the comma of a list are exchanged; the point of a path and the comma
in a text stay. -/
theorem scan_decimalComma_list :
    (scan Spelling.plain "f(1.5,a.b,',')".toList).flaw = none ∧
      scan Spelling.comma "f(1,5;a.b;',')".toList =
        ⟨(scan Spelling.plain "f(1.5,a.b,',')".toList).tokens.map Token.exchanged, none⟩ := by
  have hrun := Scanner.run_start Spelling.plain "f(1.5,a.b,',')".toList
  have hflaw : ((scan Spelling.plain "f(1.5,a.b,',')".toList).flaw.isNone,
      exchangedFrom (scan Spelling.plain "f(1.5,a.b,',')".toList).tokens 0
        "f(1.5,a.b,',')".toList) = (true, "f(1,5;a.b;',')".toList) := by
    have hdone : (Scanner.run Spelling.plain (2 * "f(1.5,a.b,',')".toList.length + 1)
        (.start "f(1.5,a.b,',')".toList)).map (fun scan => (scan.flaw.isNone,
          exchangedFrom scan.tokens 0 "f(1.5,a.b,',')".toList)) =
        some (true, "f(1,5;a.b;',')".toList) := by decide +kernel
    rw [hrun] at hdone
    exact Option.some.inj hdone
  rw [Prod.mk.injEq, Option.isNone_iff_eq_none] at hflaw
  have hscan := (scan_decimalComma _ hflaw.1).1
  rw [hflaw.2] at hscan
  exact ⟨hflaw.1, hscan⟩

end Formula
