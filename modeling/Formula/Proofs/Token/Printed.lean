import Formula.Proofs.Parse.Grammar
import Formula.Proofs.Token.Rescan

/-!
# Printed signs and names

What the printer writes for a sign, a bracket, a separator or a name is cut into that token again.
-/

namespace Formula

open Text (isDigit isAlphabetic)

/-! ## Signs and brackets -/

/-- The characters that make a token on their own, whatever follows them. -/
def standsAlone : List Char := ['+', '-', '(', ')', '[', ']']

section
variable {s : Spelling} (hculture : s.culture = {})
include hculture

/-- A sign that stands alone is found, whatever stands behind it. -/
theorem lexemeFrom_standsAlone {c : Char} {l : Lexeme} (hc : c ∈ standsAlone)
    (hsign : sign? c = some l) (rest : List Char) : lexemeFrom s c rest = .ok ⟨l, 1⟩ := by
  have hdouble : ∀ c ∈ standsAlone, c ∉ ['<', '=', '>', '&', '|'] :=
    forall_mem_of_all (by decide)
  have hstarts : ¬ Numeral.startsWith {} c rest = true := by
    have hdigit : ∀ c ∈ standsAlone, isDigit c = false ∧ (c == '.') = false :=
      forall_mem_of_all (by decide)
    have hpoint : (c == ({} : Culture).decimalSeparator) = false := (hdigit c hc).2
    rw [Numeral.startsWith, (hdigit c hc).1, hpoint]
    exact Bool.false_ne_true
  have hcomma : ∀ c ∈ standsAlone, c ≠ ',' := forall_mem_of_all (by decide)
  rw [lexemeFrom_invariant hculture, if_neg hstarts, if_neg (hcomma c hc),
    signAt?_of_not_mem (hdouble c hc), hsign]
  rfl

/-- A comma is found as a separator. -/
theorem lexemeFrom_comma (rest : List Char) :
    lexemeFrom s ',' rest = .ok ⟨.separator ',', 1⟩ := by
  have hstarts : ¬ Numeral.startsWith {} ',' rest = true := by
    rw [Numeral.startsWith]
    exact Bool.false_ne_true
  rw [lexemeFrom_invariant hculture, if_neg hstarts, if_pos rfl]

/-- An equals sign is the operator, alone or doubled. -/
theorem exists_lexemeFrom_equals (rest : List Char) : ∃ written length,
    lexemeFrom s '=' rest = .ok ⟨.operator .equal written, length⟩ := by
  have hstarts : ¬ Numeral.startsWith {} '=' rest = true := by
    show ¬ (false || (false && rest.head?.any Text.isDigit)) = true
    exact Bool.false_ne_true
  have hsign : ∃ written length, signAt? '=' rest = some ⟨.operator .equal written, length⟩ := by
    cases rest with
    | nil => exact ⟨_, _, rfl⟩
    | cons d rest =>
      by_cases hd : d = '='
      · exact ⟨_, _, by rw [hd]; rfl⟩
      · have hnone : doubleOperator? '=' d = none := by
          rw [doubleOperator?.eq_def]
          split <;> first | rfl | contradiction
        refine ⟨"=", 1, ?_⟩
        rw [signAt?, List.head?_cons, Option.bind_some, hnone]
        rfl
  obtain ⟨written, length, hsign⟩ := hsign
  refine ⟨written, length, ?_⟩
  rw [lexemeFrom_invariant hculture, if_neg hstarts, if_neg (by decide), hsign]

/-- The symbol of an operator before a blank is found as that operator. -/
theorem exists_lexemeFrom_operator (op : BinaryOp) (v : List Char) : ∃ c r written,
    op.symbol.toList = c :: r ∧ isSkipped c = false ∧
      lexemeFrom s c (r ++ ' ' :: v) = .ok ⟨.operator op written, r.length + 1⟩ := by
  obtain ⟨culture, nameChars⟩ := s
  obtain rfl : culture = {} := hculture
  rcases op with op | _ | _ | op | _ | _
  · cases op <;> exact ⟨_, _, _, rfl, rfl, rfl⟩
  · exact ⟨_, _, _, rfl, rfl, rfl⟩
  · exact ⟨_, _, _, rfl, rfl, rfl⟩
  · cases op <;> exact ⟨_, _, _, rfl, rfl, rfl⟩
  · exact ⟨_, _, _, rfl, rfl, rfl⟩
  · exact ⟨_, _, _, rfl, rfl, rfl⟩

end

namespace Scans

variable {s : Spelling} {afterLiteral middle endsLiteral : Bool} {position : Nat}
  {u v w : List Char} {ts us : List Token}

/-- A text of one token that is no name right behind a literal. -/
theorem token {c : Char} {r : List Char} {l : Lexeme} (hc : isSkipped c = false)
    (h : lexemeFrom s c (r ++ v) = .ok ⟨l, r.length + 1⟩)
    (hname : (afterLiteral && l.isName) = false) : ∃ t : Token, t.lexeme = l ∧
      Scans s afterLiteral position (c :: r) v [t] l.isLiteral := by
  have hscans := @single s afterLiteral position v c r _ hc h rfl
  rw [tokensOf, if_neg (by rw [hname]; exact Bool.false_ne_true)] at hscans
  exact ⟨_, rfl, hscans⟩

section
variable (hculture : s.culture = {})
include hculture

/-- A sign before a text is scanned as the operator of that symbol. -/
theorem signed (op : UnaryOp) (h : Scans s false (position + 1) u v ts endsLiteral) :
    ∃ t written, t.lexeme = .operator op.asBinary written ∧
      Scans s afterLiteral position (op.symbol.toList ++ u) v (t :: ts) endsLiteral := by
  have hsign : ∃ c written, op.symbol.toList = [c] ∧ c ∈ standsAlone ∧ isSkipped c = false ∧
      sign? c = some (.operator op.asBinary written) := by
    cases op <;> exact ⟨_, _, rfl, by decide, rfl, rfl⟩
  obtain ⟨c, written, hsymbol, halone, hc, hsign⟩ := hsign
  obtain ⟨t, ht, hscans⟩ := @token s afterLiteral position (u ++ v) c [] _ hc
    (lexemeFrom_standsAlone hculture halone hsign _) (Bool.and_false _)
  rw [hsymbol]
  exact ⟨t, written, ht, hscans.append h⟩

/-- A text between brackets. -/
theorem enclosed {b : Bracket} (hb : b ≠ .curly)
    (h : Scans s false (position + 1) u (b.closing :: v) ts endsLiteral) :
    ∃ t t', t.lexeme = .opening b ∧ t'.lexeme = .closing b ∧
      Scans s afterLiteral position (b.opening :: (u ++ [b.closing])) v (t :: ts ++ [t'])
        false := by
  have hsigns : b.opening ∈ standsAlone ∧ isSkipped b.opening = false ∧
      sign? b.opening = some (.opening b) ∧ b.closing ∈ standsAlone ∧
      isSkipped b.closing = false ∧ sign? b.closing = some (.closing b) := by
    cases b with
    | round | square => exact ⟨by decide, rfl, rfl, by decide, rfl, rfl⟩
    | curly => exact absurd rfl hb
  obtain ⟨ho, hos, hopening, hc, hcs, hclosing⟩ := hsigns
  obtain ⟨t, ht, hscans⟩ := @token s afterLiteral position (u ++ [b.closing] ++ v) b.opening [] _
    hos (lexemeFrom_standsAlone hculture ho hopening _) (Bool.and_false _)
  obtain ⟨t', ht', hscans'⟩ := @token s endsLiteral (position + 1 + u.length) v b.closing [] _ hcs
    (lexemeFrom_standsAlone hculture hc hclosing _) (Bool.and_false _)
  exact ⟨t, t', ht, ht', hscans.append (h.append hscans')⟩

/-- Two operands with an operator between blanks. -/
theorem joined (op : BinaryOp) (hus : us ≠ [])
    (h : Scans s afterLiteral position u (' ' :: (op.symbol.toList ++ ' ' :: w) ++ v) ts middle)
    (h' : Scans s false (position + u.length + op.symbol.length + 2) w v us endsLiteral) :
    ∃ t written, t.lexeme = .operator op written ∧
      Scans s afterLiteral position (u ++ ' ' :: (op.symbol.toList ++ ' ' :: w)) v (ts ++ t :: us)
        endsLiteral := by
  obtain ⟨c, r, written, hsymbol, hc, hlexeme⟩ := exists_lexemeFrom_operator hculture op (w ++ v)
  obtain ⟨t, ht, hscans⟩ := @token s middle (position + u.length + 1) (' ' :: w ++ v) c r _ hc
    hlexeme (Bool.and_false _)
  have hposition : position + u.length + op.symbol.length + 2 =
      position + u.length + 1 + (c :: r).length + 1 := by
    rw [← String.length_toList, hsymbol]
    omega
  rw [hposition] at h'
  rw [hsymbol] at h ⊢
  have hright := blank (b := ' ') rfl hus h'
  have hoperator := blank (b := ' ') rfl (List.cons_ne_nil _ _) (hscans.append hright)
  exact ⟨t, written, ht, h.append hoperator⟩

/-- Two items of a list with a comma and a blank between them. -/
theorem separated (hus : us ≠ [])
    (h : Scans s afterLiteral position u (',' :: ' ' :: w ++ v) ts middle)
    (h' : Scans s false (position + u.length + 2) w v us endsLiteral) :
    ∃ t, t.lexeme = .separator ',' ∧
      Scans s afterLiteral position (u ++ ',' :: ' ' :: w) v (ts ++ t :: us) endsLiteral := by
  obtain ⟨t, ht, hscans⟩ := @token s middle (position + u.length) (' ' :: (w ++ v)) ',' [] _ rfl
    (lexemeFrom_comma hculture _) (Bool.and_false _)
  have hright := blank (b := ' ') rfl hus h'
  have hcomma :
      Scans s middle (position + u.length) ([','] ++ ' ' :: w) v ([t] ++ us) endsLiteral :=
    hscans.append hright
  exact ⟨t, ht, h.append hcomma⟩

end

end Scans

/-! ## Names -/

section
variable {c : Char} (hc : (isAlphabetic c || c == '_') = true)
include hc

/-- Letters and the underscore stand behind the signs and digits. -/
theorem le_of_startsName : 65 ≤ c.toNat := by
  have hleast : ∀ range ∈ Text.alphabeticRanges, 65 ≤ range.1 := by decide +kernel
  rw [Bool.or_eq_true, beq_iff_eq] at hc
  rcases hc with halphabetic | rfl
  · rw [isAlphabetic, Text.CharSet.contains, List.any_eq_true] at halphabetic
    obtain ⟨range, hrange, hwithin⟩ := halphabetic
    rw [Bool.and_eq_true, decide_eq_true_eq] at hwithin
    exact Nat.le_trans (hleast range hrange) hwithin.1
  · decide

/-- What starts a name is not skipped. -/
theorem isSkipped_of_startsName : isSkipped c = false := by
  have hle := le_of_startsName hc
  rw [isSkipped, decide_eq_false_iff_not]
  intro hskipped
  have : c.toNat ≤ 32 := hskipped
  omega

theorem signAt?_of_startsName (rest : List Char) : signAt? c rest = none := by
  have hdouble : c ∉ ['<', '=', '>', '&', '|'] := by
    intro hmem
    have hstarts : ∀ c ∈ ['<', '=', '>', '&', '|'], (isAlphabetic c || c == '_') = false :=
      forall_mem_of_all (by decide +kernel)
    rw [hstarts c hmem] at hc
    cases hc
  have hsign : sign? c = none := by
    rw [sign?.eq_def]
    split <;> first | rfl | exact absurd hc (by decide +kernel)
  rw [signAt?_of_not_mem hdouble, hsign]
  rfl

theorem startsWith_of_startsName (rest : List Char) : Numeral.startsWith {} c rest = false := by
  have hle := le_of_startsName hc
  have hpoint : (c == '.') = false := by
    rw [beq_eq_false_iff_ne]
    rintro rfl
    exact absurd hle (by decide)
  have hdigit : isDigit c = false := by
    rw [isDigit, Bool.and_eq_false_iff, decide_eq_false_iff_not, decide_eq_false_iff_not]
    refine .inr fun hnine => ?_
    have : c.toNat ≤ 57 := hnine
    omega
  rw [Numeral.startsWith, hdigit]
  show (false || (c == '.') && rest.head?.any isDigit) = false
  rw [hpoint]
  rfl

/-- Characters that continue a name are found as that name up to the end of a token. -/
theorem lexemeFrom_name {s : Spelling} (hculture : s.culture = {}) {r v : List Char}
    (hr : ∀ d ∈ r, s.continuesName d = true) (hv : EndsToken s v) :
    lexemeFrom s c (r ++ v) = .ok ⟨.name (String.ofList (c :: r)), r.length + 1⟩ := by
  have hne : ∀ d : Char, d.toNat < 65 → c ≠ d := by
    rintro d hd rfl
    exact absurd (le_of_startsName hc) (Nat.not_le_of_lt hd)
  have hrun : (r ++ v).takeWhile s.continuesName = r := by
    rw [List.takeWhile_append_of_pos hr, takeWhile_eq_nil_of_head? hv.continuesName,
      List.append_nil]
  have hstarts : ¬ Numeral.startsWith {} c (r ++ v) = true := by
    rw [startsWith_of_startsName hc]
    exact Bool.false_ne_true
  have hquote : ¬ (c = '"' ∨ c = '\'') :=
    not_or.mpr ⟨hne _ (by decide), hne _ (by decide)⟩
  have hname : s.startsName c = true := by rw [Spelling.startsName, hc, Bool.true_or]
  rw [lexemeFrom_invariant hculture, if_neg hstarts, if_neg (hne ',' (by decide)),
    signAt?_of_startsName hc]
  dsimp only
  rw [if_neg hquote, if_neg (hne '#' (by decide)), nameFrom, if_pos hname, hrun]
  rfl

/-- A name alone is one token. -/
theorem scan_name {s : Spelling} (hculture : s.culture = {}) {r : List Char}
    (hr : ∀ d ∈ r, s.continuesName d = true) : scan s (c :: r) =
      ⟨[⟨.name (String.ofList (c :: r)), 0, r.length + 1⟩,
        ⟨.finish, r.length + 1, r.length + 1⟩], none⟩ := by
  have hfound := lexemeFrom_name hc hculture hr .nil
  rw [List.append_nil] at hfound
  have hequals : c ≠ '=' := by
    rintro rfl
    exact absurd (le_of_startsName hc) (by decide)
  have hscan := @scanFrom_ok s _ false 0 [] r c (by simp) (isSkipped_of_startsName hc) hfound
  rw [List.nil_append] at hscan
  unfold scan
  split
  · next h =>
    cases h
    exact absurd rfl hequals
  · rw [hscan]
    simp [scanFrom_nil, tokensOf, Scan.prepend]

end

/-- Whether a text is read as a name when nothing goes on with it. -/
def Spelling.Reads (s : Spelling) (name : String) : Prop :=
  ∃ c r, name.toList = c :: r ∧ isSkipped c = false ∧
    lexemeFrom s c r = .ok ⟨.name name, r.length + 1⟩

/-- What starts with a letter or an underscore and goes on like a name is read as one. -/
theorem Spelling.reads_of_starts {s : Spelling} (hculture : s.culture = {}) {name : String}
    {c : Char} {r : List Char} (hname : name.toList = c :: r)
    (hc : (isAlphabetic c || c == '_') = true) (hr : ∀ d ∈ r, s.continuesName d = true) :
    s.Reads name := by
  have hfound := lexemeFrom_name hc hculture hr .nil
  rw [List.append_nil, ← hname, String.ofList_toList] at hfound
  exact ⟨c, r, hname, isSkipped_of_startsName hc, hfound⟩

/-- A name that was found is read as a name wherever nothing goes on with it. -/
theorem Spelling.reads_of_lexemeFrom {s : Spelling} {c : Char} {rest : List Char} {name : String}
    {length : Nat} (hc : isSkipped c = false)
    (h : lexemeFrom s c rest = .ok ⟨.name name, length⟩) : s.Reads name := by
  obtain ⟨hname, hlength⟩ := name_of_lexemeFrom h
  refine ⟨c, rest.takeWhile s.continuesName, hname, hc, ?_⟩
  have hfound := @lexemeFrom_append s c (rest.takeWhile s.continuesName)
    (rest.dropWhile s.continuesName) [] _ .nil (by rwa [List.takeWhile_append_dropWhile])
    (by rw [hlength, ← String.length_toList, hname, List.length_cons])
  rw [List.append_nil] at hfound
  rw [hfound, hlength, ← String.length_toList, hname, List.length_cons]

/-- The names in a source are read as names on their own. -/
theorem Spelling.reads_of_mem_scan {s : Spelling} {source : List Char} {t : Token} {name : String}
    (hmem : t ∈ (scan s source).tokens) (ht : t.lexeme = .name name) : s.Reads name := by
  have hall : ∀ afterLiteral position text, ∀ t ∈ (scanFrom s afterLiteral position text).tokens,
      ∀ name, t.lexeme = .name name → s.Reads name := by
    intro afterLiteral position text
    refine @scanFrom_induct s (fun _ _ _ scan => ∀ t ∈ scan.tokens, ∀ name,
      t.lexeme = .name name → s.Reads name) ?_ ?_ ?_ afterLiteral position text
    · intro _ _ _ _ t hmem name ht
      rw [List.mem_singleton.mp hmem] at ht
      cases ht
    · exact fun _ _ _ _ _ _ _ _ _ _ hmem => nomatch hmem
    · intro afterLiteral position blanks c rest found hblanks hc hfound ih t hmem name ht
      rcases List.mem_append.mp hmem with hmem | hmem
      · have hitem : found.item = .name name := by
          rcases @tokensOf_cases found afterLiteral (position + blanks.length) with
            ⟨-, -, htokens⟩ | htokens
          · rw [htokens] at hmem
            rcases List.mem_cons.mp hmem with rfl | hmem
            · cases ht
            · rw [List.mem_singleton.mp hmem] at ht
              exact ht
          · rw [htokens, List.mem_singleton] at hmem
            rw [hmem] at ht
            exact ht
        obtain ⟨item, length⟩ := found
        cases hitem
        exact Spelling.reads_of_lexemeFrom hc hfound
      · exact ih t hmem name ht
  rw [scan.eq_def] at hmem
  split at hmem
  · exact hall _ _ _ t hmem name ht
  · exact hall _ _ _ t hmem name ht

/-- A name for the plain spelling is read as one. -/
theorem Spelling.IsName.reads {name : String} (h : Spelling.plain.IsName name) :
    Spelling.plain.Reads name := by
  obtain ⟨c, r, hname, hc, hr⟩ := h
  have hstarts : (isAlphabetic c || c == '_') = true := by
    rwa [Spelling.startsName, show Spelling.plain.nameChars.contains c = false from rfl,
      Bool.or_false] at hc
  exact Spelling.reads_of_starts rfl hname hstarts hr

namespace Scans

variable {s : Spelling} {endsLiteral : Bool} {position : Nat} {u v : List Char} {ts : List Token}
  {name : String}

/-- A name that does not stand behind a literal, and what follows it. -/
theorem named (hname : s.Reads name) (huv : EndsToken s (u ++ v))
    (h : Scans s false (position + name.length) u v ts endsLiteral) : ∃ t, t.lexeme = .name name ∧
      Scans s false position (name.toList ++ u) v (t :: ts) endsLiteral := by
  obtain ⟨c, r, hname, hc, hfound⟩ := hname
  have hfound' : lexemeFrom s c (r ++ (u ++ v)) = .ok ⟨.name name, r.length + 1⟩ := by
    refine @lexemeFrom_append s c r [] _ _ huv ?_ (Nat.le_refl _)
    rwa [List.append_nil]
  obtain ⟨t, ht, hscans⟩ := @token s false position (u ++ v) c r _ hc hfound' rfl
  rw [← String.length_toList, hname] at h
  rw [hname]
  exact ⟨t, ht, hscans.append h⟩

end Scans

end Formula
