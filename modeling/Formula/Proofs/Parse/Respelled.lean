import Formula.Proofs.Expr.Respelled
import Formula.Proofs.Parse.Meaning

/-!
# Tokens with names in another case

When names mean the same in upper and lower case, tokens that are the same but for the case of their
names derive expressions that are the same but for that, with the same numbers
(`Derives.respelled`).  So of two sources with such tokens both can be read or neither
(`exists_parseSource_respells`).
-/

namespace Formula

/-! ## Tokens -/

/-- The lexeme in lower case, if it is a name. -/
def Lexeme.lowerName : Lexeme → Lexeme
  | name s => name s.toLower
  | l => l

/-- What some tokens are, wherever they stand, with the names among them in lower case. -/
def lowerLexemes (ts : List Token) : List Lexeme := ts.map fun t => t.lexeme.lowerName

section
variable {ts us vs : List Token} {t t' : Token}

/-- Tokens with the same spelling as two parts fall into two parts themselves. -/
theorem exists_append_of_lowerLexemes (h : lowerLexemes vs = lowerLexemes (ts ++ us)) :
    ∃ ts' us', vs = ts' ++ us' ∧ lowerLexemes ts' = lowerLexemes ts ∧
      lowerLexemes us' = lowerLexemes us := by
  unfold lowerLexemes at h
  rw [List.map_append] at h
  exact List.map_eq_append_iff.mp h

theorem exists_cons_of_lowerLexemes (h : lowerLexemes vs = lowerLexemes (t :: ts)) :
    ∃ t' ts', vs = t' :: ts' ∧ t'.lexeme.lowerName = t.lexeme.lowerName ∧
      lowerLexemes ts' = lowerLexemes ts :=
  List.map_eq_cons_iff.mp h

theorem eq_nil_of_lowerLexemes (h : lowerLexemes vs = lowerLexemes []) : vs = [] :=
  List.map_eq_nil_iff.mp h

/-- Tokens in brackets. -/
theorem exists_bracketed_of_lowerLexemes (h : lowerLexemes vs = lowerLexemes (t :: ts ++ [t'])) :
    ∃ u ts' u', vs = u :: ts' ++ [u'] ∧ u.lexeme.lowerName = t.lexeme.lowerName ∧
      lowerLexemes ts' = lowerLexemes ts ∧ u'.lexeme.lowerName = t'.lexeme.lowerName := by
  obtain ⟨before, after, rfl, hbefore, hafter⟩ := exists_append_of_lowerLexemes h
  obtain ⟨u, ts', rfl, hu, hts⟩ := exists_cons_of_lowerLexemes hbefore
  obtain ⟨u', rest, rfl, hu', hrest⟩ := exists_cons_of_lowerLexemes hafter
  obtain rfl := eq_nil_of_lowerLexemes hrest
  exact ⟨u, ts', u', rfl, hu, hts, hu'⟩

end

section
variable {t t' : Token} (h : t'.lexeme.lowerName = t.lexeme.lowerName)
include h

/-- A token that is no name is the same in lower case. -/
theorem lexeme_eq_of_lowerName {l : Lexeme} (ht : t.lexeme = l) (hl : l.isName = false) :
    t'.lexeme = l := by
  rw [ht] at h
  cases hlexeme : t'.lexeme with
  | name s =>
    rw [hlexeme] at h
    cases l with
    | name => cases hl
    | _ => cases h
  | _ =>
    rw [hlexeme] at h
    cases l with
    | name => cases hl
    | _ => exact h

/-- A token with the spelling of a name is that name in some case. -/
theorem exists_name_of_lowerName {s : String} (ht : t.lexeme = .name s) :
    ∃ s', t'.lexeme = .name s' ∧ s'.toLower = s.toLower := by
  rw [ht] at h
  cases hlexeme : t'.lexeme with
  | name s' =>
    rw [hlexeme] at h
    exact ⟨s', rfl, Lexeme.name.inj h⟩
  | _ =>
    rw [hlexeme] at h
    cases h

end

/-- Whether names mean the same whatever the case of their ASCII letters. -/
def Names.IgnoresCase (names : Names) : Prop :=
  ∀ s s' : String, s'.toLower = s.toLower → names.meaning s' = names.meaning s

namespace Parse

/-! ## Derivations -/

/-- Whether tokens derive a phrase that is the same but for the case of its names.  The name that a
path starts with stands before its phrase, so its case is not up to the phrase. -/
def Phrase.IsRespelled (names : Names) (source : List Char) (n : Nat) (ts : List Token) (n' : Nat) :
    Phrase → Prop
  | .upTo k e => ∃ e', Expr.Respells e' e ∧ Derives names source (.upTo k e') n ts n'
  | .atom e => ∃ e', Expr.Respells e' e ∧ Derives names source (.atom e') n ts n'
  | .listIf wanted listed es => ∃ es', Expr.lowerNamesOfAll es' = Expr.lowerNamesOfAll es ∧
      Derives names source (.listIf wanted listed es') n ts n'
  | .items es => ∃ es', Expr.lowerNamesOfAll es' = Expr.lowerNamesOfAll es ∧
      Derives names source (.items es') n ts n'
  | .steps s path => ∀ s' : String, s'.toLower = s.toLower →
      ∃ path', Expr.lowerNamesOfSteps path' = Expr.lowerNamesOfSteps path ∧
        Derives names source (.steps s' path') n ts n'

variable {names : Names} {source source' : List Char} {p : Phrase} {n n' : Nat}
  {ts ts' : List Token}

/-- Tokens that are the same but for the case of their names derive the same but for the case of its
names, in whatever source they stand. -/
theorem Derives.respelled (hnames : names.IgnoresCase) (h : Derives names source p n ts n')
    (hts : lowerLexemes ts' = lowerLexemes ts) : p.IsRespelled names source' n ts' n' := by
  induction h generalizing ts' with
  | operand _ ih =>
    obtain ⟨e', he, hderives⟩ := ih hts
    exact ⟨e', he, .operand hderives⟩
  | @joined _ op _ _ _ _ _ _ _ _ _ _ ht hk _ ihl ihr =>
    obtain ⟨ls, rest, rfl, hls, hrest⟩ := exists_append_of_lowerLexemes hts
    obtain ⟨t', rs, rfl, ht', hrs⟩ := exists_cons_of_lowerLexemes hrest
    obtain ⟨l', hl, hderivesl⟩ := ihl hls
    obtain ⟨r', hr, hderivesr⟩ := ihr hrs
    have hop := lexeme_eq_of_lowerName ht' ht rfl
    exact ⟨.binary op l' r', congrArg₂ (Expr.binary op) hl hr, .joined hderivesl hop hk hderivesr⟩
  | @signed op _ _ _ _ _ _ ht _ ih =>
    obtain ⟨t', us, rfl, ht', hus⟩ := exists_cons_of_lowerLexemes hts
    obtain ⟨e', he, hderives⟩ := ih hus
    exact ⟨.unary op e', congrArg (Expr.unary op) he,
      .signed (lexeme_eq_of_lowerName ht' ht rfl) hderives⟩
  | unsigned _ ih =>
    obtain ⟨e', he, hderives⟩ := ih hts
    exact ⟨e', he, .unsigned hderives⟩
  | @literal v _ _ ht =>
    obtain ⟨t', us, rfl, ht', hus⟩ := exists_cons_of_lowerLexemes hts
    obtain rfl := eq_nil_of_lowerLexemes hus
    exact ⟨.literal v, rfl, .literal (lexeme_eq_of_lowerName ht' ht rfl)⟩
  | group ht _ ht' ih =>
    obtain ⟨u, us, u', rfl, hu, hus, hu'⟩ := exists_bracketed_of_lowerLexemes hts
    obtain ⟨e', he, hderives⟩ := ih hus
    exact ⟨e', he, .group (lexeme_eq_of_lowerName hu ht rfl) hderives
      (lexeme_eq_of_lowerName hu' ht' rfl)⟩
  | @call _ f _ _ m _ _ _ ht hf _ harity ih =>
    obtain ⟨t', us, rfl, ht', hus⟩ := exists_cons_of_lowerLexemes hts
    obtain ⟨s', hs', hspelling⟩ := exists_name_of_lowerName ht' ht
    obtain ⟨args', hargs, hderives⟩ := ih hus
    have hf' := Names.meaning_eq_function.mp
      ((hnames _ _ hspelling).trans (Names.meaning_eq_function.mpr hf))
    have hlength := (Expr.Respells.forall₂ hargs).length_eq
    exact ⟨.call m f args', congrArg (Expr.call m f) hargs,
      .call hs' hf' hderives (hlength ▸ harity)⟩
  | @var _ _ _ m _ _ _ ht hf hv _ ih =>
    obtain ⟨t', us, rfl, ht', hus⟩ := exists_cons_of_lowerLexemes hts
    obtain ⟨s', hs', hspelling⟩ := exists_name_of_lowerName ht' ht
    obtain ⟨index', hindex, hderives⟩ := ih hus
    obtain ⟨hf', hv'⟩ := Names.meaning_eq_var.mp
      ((hnames _ _ hspelling).trans (Names.meaning_eq_var.mpr ⟨hf, hv⟩))
    exact ⟨.var m s' index', congrArg₂ (Expr.var m) hspelling hindex, .var hs' hf' hv' hderives⟩
  | @external _ v _ _ ht hf hv hx =>
    obtain ⟨t', us, rfl, ht', hus⟩ := exists_cons_of_lowerLexemes hts
    obtain rfl := eq_nil_of_lowerLexemes hus
    obtain ⟨s', hs', hspelling⟩ := exists_name_of_lowerName ht' ht
    obtain ⟨hf', hv', hx'⟩ := Names.meaning_eq_external.mp
      ((hnames _ _ hspelling).trans (Names.meaning_eq_external.mpr ⟨hf, hv, hx⟩))
    exact ⟨.literal v, rfl, .external hs' hf' hv' hx'⟩
  | @path _ _ m _ _ _ ht hf hv hx hstarts _ ih =>
    obtain ⟨t', us, rfl, ht', hus⟩ := exists_cons_of_lowerLexemes hts
    obtain ⟨s', hs', hspelling⟩ := exists_name_of_lowerName ht' ht
    obtain ⟨steps', hsteps, hderives⟩ := ih hus s' hspelling
    obtain ⟨hf', hv', hx', hstarts'⟩ := Names.meaning_eq_path.mp
      ((hnames _ _ hspelling).trans (Names.meaning_eq_path.mpr ⟨hf, hv, hx, hstarts⟩))
    exact ⟨.path m steps' (pathText source' t' us), congrArg (Expr.path m · "") hsteps,
      .path hs' hf' hv' hx' hstarts' hderives⟩
  | noList =>
    obtain rfl := eq_nil_of_lowerLexemes hts
    exact ⟨[], rfl, .noList⟩
  | emptyList ht hwanted ht' =>
    obtain ⟨u, us, rfl, hu, hus⟩ := exists_cons_of_lowerLexemes hts
    obtain ⟨u', rest, rfl, hu', hrest⟩ := exists_cons_of_lowerLexemes hus
    obtain rfl := eq_nil_of_lowerLexemes hrest
    exact ⟨[], rfl, .emptyList (lexeme_eq_of_lowerName hu ht rfl) hwanted
      (lexeme_eq_of_lowerName hu' ht' rfl)⟩
  | list ht hwanted _ ht' ih =>
    obtain ⟨u, us, u', rfl, hu, hus, hu'⟩ := exists_bracketed_of_lowerLexemes hts
    obtain ⟨es', hes, hderives⟩ := ih hus
    exact ⟨es', hes, .list (lexeme_eq_of_lowerName hu ht rfl) hwanted hderives
      (lexeme_eq_of_lowerName hu' ht' rfl)⟩
  | lastItem _ ih =>
    obtain ⟨e', he, hderives⟩ := ih hts
    exact ⟨[e'], congrArg (· :: []) he, .lastItem hderives⟩
  | item _ ht _ ihe ihes =>
    obtain ⟨us, rest, rfl, hus, hrest⟩ := exists_append_of_lowerLexemes hts
    obtain ⟨t', vs, rfl, ht', hvs⟩ := exists_cons_of_lowerLexemes hrest
    obtain ⟨e', he, hderives⟩ := ihe hus
    obtain ⟨es', hes, hderives'⟩ := ihes hvs
    exact ⟨e' :: es', congrArg₂ List.cons he hes,
      .item hderives (lexeme_eq_of_lowerName ht' ht rfl) hderives'⟩
  | lastStep _ ih =>
    intro s' hspelling
    obtain ⟨keys', hkeys, hderives⟩ := ih hts
    refine ⟨[⟨s', _, keys'⟩], ?_, .lastStep hderives⟩
    simp only [Expr.lowerNamesOfSteps, hspelling, hkeys]
  | step _ ht ht' _ ihkeys ihsteps =>
    intro s' hspelling
    obtain ⟨us, rest, rfl, hus, hrest⟩ := exists_append_of_lowerLexemes hts
    obtain ⟨u, rest, rfl, hu, hrest⟩ := exists_cons_of_lowerLexemes hrest
    obtain ⟨u', vs, rfl, hu', hvs⟩ := exists_cons_of_lowerLexemes hrest
    obtain ⟨next, hnext, hnextSpelling⟩ := exists_name_of_lowerName hu' ht'
    obtain ⟨keys', hkeys, hderives⟩ := ihkeys hus
    obtain ⟨steps', hsteps, hderives'⟩ := ihsteps hvs next hnextSpelling
    refine ⟨⟨s', _, keys'⟩ :: steps', ?_,
      .step hderives (lexeme_eq_of_lowerName hu ht rfl) hnext hderives'⟩
    simp only [Expr.lowerNamesOfSteps, hspelling, hkeys, hsteps]

/-! ## Sources -/

/-- A source whose tokens are the same but for the case of their names is cut into tokens to its end
if the other one is. -/
theorem Tokenizes.respelled {spelling : Spelling} (h : Tokenizes spelling source ts)
    (hsame : lowerLexemes (scan spelling source').tokens =
      lowerLexemes (scan spelling source).tokens) :
    ∃ ts', Tokenizes spelling source' ts' ∧ lowerLexemes ts' = lowerLexemes ts := by
  obtain ⟨stop, hscan⟩ := h
  rw [hscan] at hsame
  obtain ⟨ts', rest, htokens, hts, hrest⟩ := exists_append_of_lowerLexemes hsame
  obtain ⟨t, rest, rfl, ht, -⟩ := exists_cons_of_lowerLexemes hrest
  -- The last token is the end of the source, and nothing can follow it.
  have hfinish : t.lexeme = .finish := lexeme_eq_of_lowerName ht rfl rfl
  exact ⟨ts', (scan_ends spelling source').eq_of_finish htokens hfinish, hts⟩

/-- A source whose tokens are the same but for the case of their names is read as the same but for
the case of its names. -/
theorem exists_parseSource_respells (hnames : names.IgnoresCase) {spelling : Spelling} {e : Expr}
    (h : parseSource names spelling source = .ok e)
    (hsame : lowerLexemes (scan spelling source').tokens =
      lowerLexemes (scan spelling source).tokens) :
    ∃ e', parseSource names spelling source' = .ok e' ∧ e'.Respells e := by
  obtain ⟨ts, n, htokens, hderives⟩ := derives_of_parseSource h
  obtain ⟨ts', htokens', hts⟩ := htokens.respelled hsame
  obtain ⟨e', he, hderives'⟩ := @Derives.respelled _ _ source' _ _ _ _ _ hnames hderives hts
  exact ⟨e', parseSource_of_derives htokens' hderives', he⟩

end Parse

end Formula
