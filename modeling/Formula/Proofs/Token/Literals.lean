import Formula.Expr.Text
import Formula.Proofs.Number.Display
import Formula.Proofs.Token.Printed

/-!
# Printed literals

A text, a date or a number is printed so that it is cut into one literal again, of the same value.
The numbers of a source have no sign, so that no sign is printed with them.
-/

namespace Formula

open Text (isDigit)

/-- Whether a literal can be printed so that it is read again: a text, a date that is read back, or
a finite number without a sign that is read back. -/
def Value.ReadsBack : Value → Prop
  | .text _ => True
  | .dateTime d => ({} : Culture).parseDate? d.text.toList = some d
  | .number x => x.isFinite = true ∧ Number.SignClear x ∧
      Number.read? (Number.display x).toList = some x
  | _ => False

/-! ## How literals start -/

/-- No number starts with a quote or the mark of a date. -/
theorem startsWith_of_mark {c : Char} (hc : c ∈ ['"', '\'', '#']) (rest : List Char) :
    ¬ Numeral.startsWith {} c rest = true := by
  have hmarks : ∀ c ∈ ['"', '\'', '#'], isDigit c = false ∧ (c == '.') = false :=
    forall_mem_of_all (by decide)
  have hpoint : (c == ({} : Culture).decimalSeparator) = false := (hmarks c hc).2
  rw [Numeral.startsWith, (hmarks c hc).1, hpoint]
  exact Bool.false_ne_true

section
variable {spelling : Spelling} (hculture : spelling.culture = {})
include hculture

/-- A quote starts a text that goes up to the next single one. -/
theorem lexemeFrom_quote {quote : Char} (hquote : quote = '"' ∨ quote = '\'') (rest : List Char) :
    lexemeFrom spelling quote rest = textFrom quote [] 1 rest := by
  have hmark : quote ∈ ['"', '\'', '#'] := by rcases hquote with rfl | rfl <;> decide
  have hcomma : quote ≠ ',' := by rcases hquote with rfl | rfl <;> decide
  have hsign : signAt? quote rest = none := by
    rcases hquote with rfl | rfl
    · exact signAt?_of_not_mem (by decide) rest
    · exact signAt?_of_not_mem (by decide) rest
  rw [lexemeFrom_invariant hculture, if_neg (startsWith_of_mark hmark rest), if_neg hcomma, hsign]
  exact if_pos hquote

/-- The mark of a date starts a date. -/
theorem lexemeFrom_dateMark (rest : List Char) :
    lexemeFrom spelling '#' rest = dateFrom {} rest := by
  rw [lexemeFrom_invariant hculture, if_neg (startsWith_of_mark (by decide) rest),
    if_neg (by decide), signAt?_of_not_mem (by decide)]
  show (if '#' = '"' ∨ '#' = '\'' then _ else if '#' = '#' then _ else _) = _
  rw [if_neg (by decide), if_pos rfl]

end

/-- Digits are not skipped. -/
theorem isSkipped_of_isDigit {c : Char} (hc : isDigit c = true) : isSkipped c = false := by
  rw [isDigit, Bool.and_eq_true, decide_eq_true_eq] at hc
  rw [isSkipped, decide_eq_false_iff_not]
  intro hskipped
  have hle : 48 ≤ c.toNat := hc.1
  have hge : c.toNat ≤ 32 := hskipped
  omega

/-! ## Texts -/

/-- A character of a text in quotes; the quote is written twice. -/
def doubled (quote c : Char) : List Char := if c = quote then [c, c] else [c]

/-- A text with double quotes for a sort of quotes.  So it is read from between such quotes, if they
are written twice inside. -/
def requoted (quote : Char) (s : List Char) : List Char :=
  s.map fun c => if c = quote then '"' else c

/-- A text in which no other quote is written twice stays. -/
theorem requoted_eq_self {quote : Char} {s : List Char} (h : quote ∈ s → quote = '"') :
    requoted quote s = s := by
  have hsame : ∀ c ∈ s, (if c = quote then '"' else c) = c := by
    intro c hc
    split
    · next heq => rw [heq, h (heq ▸ hc)]
    · rfl
  rw [requoted, List.map_congr_left hsame, List.map_id']

/-- A text whose quotes are doubled is found up to the quote that closes it, with one quote for each
two, by induction on the text. -/
theorem textFrom_doubled {quote : Char} {v : List Char} (hv : ∀ d ∈ v.head?, d ≠ quote)
    (s done : List Char) (length : Nat) :
    textFrom quote done length (s.flatMap (doubled quote) ++ quote :: v) =
      .ok ⟨.literal (.text (String.ofList (done.reverse ++ requoted quote s))),
        length + (s.flatMap (doubled quote)).length + 1⟩ := by
  induction s generalizing done length with
  | nil =>
    rw [requoted, List.map_nil, List.append_nil]
    exact textFrom_closing hv
  | cons c s ih =>
    rw [List.flatMap_cons, List.append_assoc]
    have hreverse : ∀ c, (c :: done).reverse ++ requoted quote s =
        done.reverse ++ c :: requoted quote s := by simp
    -- A quote was written twice, so reading it takes both.
    by_cases hc : c = quote
    · have hhead : requoted quote (c :: s) = '"' :: requoted quote s := by
        rw [requoted, List.map_cons, if_pos hc]
        rfl
      rw [hhead, doubled, if_pos hc, hc]
      show textFrom quote done length (quote :: quote :: (s.flatMap (doubled quote) ++
        quote :: v)) = _
      rw [textFrom_quote, ih, hreverse, List.length_append]
      congr 2
      simp only [List.length_cons, List.length_nil]
      omega
    · have hhead : requoted quote (c :: s) = c :: requoted quote s := by
        rw [requoted, List.map_cons, if_neg hc]
        rfl
      rw [doubled, if_neg hc, hhead]
      obtain ⟨d, rest, hrest⟩ : ∃ d rest, s.flatMap (doubled quote) ++ quote :: v = d :: rest :=
        List.exists_cons_of_ne_nil (by simp)
      rw [hrest]
      show textFrom quote done length (c :: d :: rest) = _
      rw [textFrom_other hc, ← hrest, ih, hreverse, List.length_append]
      congr 2
      simp only [List.length_cons, List.length_nil]
      omega

/-! ## Dates -/

/-- The mark of a date is not among digits. -/
theorem not_mem_padded (width n : Nat) : '#' ∉ (DateTime.padded width n).toList := by
  rw [DateTime.padded, String.toList_ofList]
  intro h
  rcases List.mem_append.mp h with h | h
  · exact absurd (Number.isDigit_of_mem_replicate h) (by decide)
  · exact absurd (Number.isDigit_of_mem_decimalDigits h) (by decide)

/-- It is in no part of a date as it is printed. -/
theorem not_mem_dateTime (d : DateTime) : '#' ∉ d.text.toList := by
  have hsign : ∀ year : Int,
      '#' ∉ (if year < 0 then "-" else if 9999 < year then "+" else "").toList := by
    intro year
    split
    · decide
    split
    · decide
    · decide
  simp only [DateTime.text, DateTime.dateText, DateTime.yearText, DateTime.clockText,
    String.toList_append, List.mem_append, not_mem_padded, hsign, or_false, false_or]
  decide

/-- A printed date is found up to its closing mark. -/
theorem dateFrom_printed {d d' : DateTime}
    (h : ({} : Culture).parseDate? d.text.toList = some d') (v : List Char) :
    dateFrom {} (d.text.toList ++ '#' :: v) =
      .ok ⟨.literal (.dateTime d'), d.text.toList.length + 2⟩ := by
  have hbody : (d.text.toList ++ '#' :: v).takeWhile (· != '#') = d.text.toList := by
    rw [List.takeWhile_append_of_pos, List.takeWhile_cons]
    · simp
    · intro c hc
      rw [bne_iff_ne]
      rintro rfl
      exact not_mem_dateTime d hc
  rw [dateFrom, hbody, if_neg, h]
  rw [List.length_append, List.length_cons]
  omega

/-! ## Numbers -/

section
variable {spelling : Spelling}

/-- Behind a number before the end of a token there is no exponent and no percent sign. -/
theorem closedBy_of_endsToken {v : List Char} (hv : EndsToken spelling v)
    (whole fraction : List Char) (pointed : Bool) :
    Numeral.closedBy spelling.culture whole pointed fraction v =
      ⟨whole, pointed, fraction, [], false⟩ := by
  -- With nothing ahead there is no exponent, and no end of a token can start one.
  have hnil : (Numeral.exponentAt ([] ++ [])).length ≤ ([] : List Char).length := Nat.le_refl _
  have hexponent : Numeral.exponentAt v = [] := exponentAt_append_eq hnil hv
  have hpercent : (v.head? == some spelling.culture.percentSign) = false := by
    rw [beq_eq_false_iff_ne]
    exact hv.ne_of_head? fun hc => hc.ne_percentSign rfl
  rw [Numeral.closedBy, hexponent]
  show Numeral.mk _ _ _ _ (v.head? == some spelling.culture.percentSign) = _
  rw [hpercent]

/-- Digits are passed up to the next character that is none. -/
theorem run_printed {digits v : List Char} (h : ∀ c ∈ digits, isDigit c = true)
    (hv : ∀ c ∈ v.head?, isDigit c = false) :
    (digits ++ v).takeWhile isDigit = digits ∧ (digits ++ v).dropWhile isDigit = v := by
  have htake : (digits ++ v).takeWhile isDigit = digits := by
    rw [List.takeWhile_append_of_pos h, takeWhile_eq_nil_of_head? hv, List.append_nil]
  have happend := List.takeWhile_append_dropWhile (p := isDigit) (l := digits ++ v)
  rw [htake] at happend
  exact ⟨htake, List.append_cancel_left happend⟩

variable (hculture : spelling.culture = {})
include hculture

/-- A printed number is taken as a whole. -/
theorem numeral_printed {text v : List Char} (h : Number.PlainDecimal text)
    (hv : EndsToken spelling v) :
    (Numeral.start {} (text ++ v)).text = text ∧ (Numeral.start {} (text ++ v)).percent = false ∧
      (Numeral.start {} (text ++ v)).length = text.length := by
  have hclosed := closedBy_of_endsToken hv
  rw [hculture] at hclosed
  obtain ⟨whole, -, hwhole, rfl | ⟨fraction, hfraction, rfl⟩⟩ := h
  · obtain ⟨htake, hdrop⟩ := run_printed hwhole hv.isDigit
    have hpoint : ((text ++ v).dropWhile isDigit).head? ≠
        some ({} : Culture).decimalSeparator := by
      rw [hdrop, ← hculture]
      exact hv.ne_of_head? fun hc => hc.ne_decimalSeparator rfl
    rw [start_of_no_point hpoint, htake, hdrop, hclosed]
    exact ⟨by simp [Numeral.text], rfl, rfl⟩
  · have hpoint : ∀ c ∈ ('.' :: (fraction ++ v)).head?, isDigit c = false := by
      intro c hc
      obtain rfl : '.' = c := Option.some.inj hc
      decide
    obtain ⟨htake, hdrop⟩ := run_printed hwhole hpoint
    obtain ⟨htake', hdrop'⟩ := run_printed hfraction hv.isDigit
    have hstart := @start_of_point {} _ _ hdrop
    rw [htake, htake', hdrop', hclosed] at hstart
    rw [List.append_assoc, List.cons_append, hstart]
    refine ⟨by simp [Numeral.text], rfl, ?_⟩
    simp only [Numeral.length, List.length_append, List.length_cons, List.length_nil,
      Bool.toNat_true, Bool.toNat_false]
    omega

/-- A plain number is found where it stands before the end of a token, and is read as its value. -/
theorem lexemeFrom_number {x : Float} {c : Char} {r v : List Char}
    (h : Number.PlainDecimal (c :: r)) (hread : Number.read? (c :: r) = some x)
    (hv : EndsToken spelling v) :
    isDigit c = true ∧
      lexemeFrom spelling c (r ++ v) = .ok ⟨.literal (.number x), r.length + 1⟩ := by
  -- A number in plain notation starts with a digit of its whole part.
  have hc : isDigit c = true := by
    obtain ⟨_ | ⟨d, whole⟩, hne, hwhole, htext | ⟨fraction, -, htext⟩⟩ := h
    · exact absurd rfl hne
    · exact absurd rfl hne
    · cases htext
      exact hwhole _ List.mem_cons_self
    · cases htext
      exact hwhole _ List.mem_cons_self
  obtain ⟨hnumeral, hpercent, hlength⟩ := numeral_printed hculture h hv
  have hvalue : (Numeral.start {} (c :: r ++ v)).value? = some x := by
    rw [Numeral.value?, hnumeral, hpercent, hread]
    rfl
  have hstarts : Numeral.startsWith {} c (r ++ v) = true := by
    rw [Numeral.startsWith, hc, Bool.true_or]
  refine ⟨hc, ?_⟩
  rw [lexemeFrom_invariant hculture, if_pos hstarts, numberFrom, ← List.cons_append, hvalue,
    hlength]
  rfl

end

/-! ## Literals -/

/-- A text is written between two quotes of its style. -/
theorem writeLiteral_text (style : LiteralStyle) (s : String) :
    ((Value.text s).writeLiteral style "").toList =
      style.quote :: (s.toList.flatMap (doubled style.quote) ++ [style.quote]) := by
  have hdoubling : (doubling style.quote s).toList = s.toList.flatMap (doubled style.quote) :=
    String.toList_ofList
  simp [Value.writeLiteral, hdoubling]

theorem literalText_dateTime (d : DateTime) :
    (Value.dateTime d).literalText.toList = '#' :: (d.text.toList ++ ['#']) := by
  simp [Value.literalText, Value.writeLiteral, LiteralStyle.source]

theorem writeLiteral_number (style : LiteralStyle) (x : Float) :
    (Value.number x).writeLiteral style "" = Number.display x := by
  simp [Value.writeLiteral, Value.toText, Value.write]

namespace Scans

variable {spelling : Spelling} {afterLiteral : Bool} {position : Nat} {w : List Char}
  (hculture : spelling.culture = {})
include hculture

/-- A printed date is cut into the date that it is read as. -/
theorem date {d d' : DateTime} (h : ({} : Culture).parseDate? d.text.toList = some d') :
    ∃ t, t.lexeme = .literal (.dateTime d') ∧
      Scans spelling afterLiteral position (Value.dateTime d).literalText.toList w [t] true := by
  have hlexeme : lexemeFrom spelling '#' (d.text.toList ++ ['#'] ++ w) =
      .ok ⟨.literal (.dateTime d'), (d.text.toList ++ ['#']).length + 1⟩ := by
    rw [List.append_assoc, lexemeFrom_dateMark hculture, List.singleton_append,
      dateFrom_printed h, List.length_append, List.length_singleton]
  rw [literalText_dateTime]
  exact token rfl hlexeme (Bool.and_false _)

variable (hw : EndsToken spelling w)
include hw

/-- A text in quotes is cut into that text, with double quotes for the quotes in it. -/
theorem quoted {quote : Char} (hquote : quote = '"' ∨ quote = '\'') (s : List Char) :
    ∃ t, t.lexeme = .literal (.text (String.ofList (requoted quote s))) ∧
      Scans spelling afterLiteral position (quote :: (s.flatMap (doubled quote) ++ [quote])) w [t]
        true := by
  have hend : ∀ d ∈ w.head?, d ≠ quote := by
    refine hw.forall_head fun d hd hdquote => hd.not_mem_signs ?_
    rw [hdquote]
    rcases hquote with rfl | rfl <;> decide
  have htext := textFrom_doubled hend s [] 1
  have hlexeme : lexemeFrom spelling quote (s.flatMap (doubled quote) ++ [quote] ++ w) =
      .ok ⟨.literal (.text (String.ofList (requoted quote s))),
        (s.flatMap (doubled quote) ++ [quote]).length + 1⟩ := by
    rw [List.append_assoc, lexemeFrom_quote hculture hquote, List.singleton_append, htext,
      List.reverse_nil, List.nil_append, List.length_append, List.length_singleton, Nat.add_comm 1]
  have hskipped : isSkipped quote = false := by rcases hquote with rfl | rfl <;> rfl
  exact token hskipped hlexeme (Bool.and_false _)

/-- A number in plain notation is cut into the number that it is read as. -/
theorem number {x : Float} {text : List Char} (h : Number.PlainDecimal text)
    (hread : Number.read? text = some x) : ∃ t, t.lexeme = .literal (.number x) ∧
      Scans spelling afterLiteral position text w [t] true := by
  obtain ⟨c, r, rfl⟩ : ∃ c r, text = c :: r := by
    obtain ⟨whole, hne, -, htext⟩ := h
    refine List.exists_cons_of_ne_nil ?_
    rcases htext with htext | ⟨fraction, -, htext⟩
    · rw [htext]
      exact hne
    · rw [htext]
      simp
  obtain ⟨hc, hlexeme⟩ := lexemeFrom_number hculture h hread hw
  exact token (isSkipped_of_isDigit hc) hlexeme (Bool.and_false _)

/-- A printed literal is cut into that literal. -/
theorem literal {v : Value} (h : v.ReadsBack) : ∃ t, t.lexeme = .literal v ∧
    Scans spelling afterLiteral position v.literalText.toList w [t] true := by
  cases v with
  | text s =>
    have hquoted := @quoted spelling afterLiteral position w hculture hw '"' (.inl rfl) s.toList
    rw [requoted_eq_self fun _ => rfl, String.ofList_toList] at hquoted
    rw [Value.literalText, writeLiteral_text]
    exact hquoted
  | dateTime d => exact date hculture h
  | number x =>
    rw [Value.literalText, writeLiteral_number]
    exact number hculture hw (Number.plainDecimal_display h.1 h.2.1) h.2.2
  | empty | decimal | boolean | array | object => exact h.elim

end Scans

end Formula
