import Formula.Engine.Basic
import Formula.Proofs.Expr.Printed
import Formula.Proofs.Function.Registry
import Formula.Proofs.Parse.Exact

/-!
# Printed expressions read back

What is read from a source and printed is read again as the same expression, with the same numbers
of its calls, variables and paths and the same texts of its paths.  This needs a culture whose
signs are those that are printed, functions whose names are names, and no objects from outside,
which are printed as something else.
-/

namespace Formula

namespace Parse

/-! ## From derivations to printed texts -/

/-- Whether what is printed for a phrase is that phrase. -/
def Phrase.Printed (names : Names) : Phrase → Nat → Nat → Prop
  | .upTo _ e, n, n' | .atom e, n, n' =>
    Prints .plain names e.text.toList (.upTo e.looseness e) n n'
  | .listIf _ _ es, n, n' | .items es, n, n' =>
    PrintsList .plain names (Expr.listText es).toList es n n'
  | .steps _ _, _, _ => True

section
variable {names : Names} {source : List Char} {us : List Token}
  (htokens : us <+: (scan .plain source).tokens)
  (hwritten : ∀ t ∈ us, t.lexeme.IsWritten .plain)
  (hfunctions : ∀ s f, names.function? s = some f →
    names.function? f.name = some f ∧ Spelling.plain.IsName f.name)
  (hexternals : ∀ s, names.external? s = none)
include htokens hwritten hfunctions hexternals

/-- What is derived from tokens of a source is printed as what it is. -/
theorem Derives.printed {p : Phrase} {n n' : Nat} {ts : List Token}
    (h : Derives names source p n ts n') (hpart : ts <:+: us)
    (hliterals : ∀ v, .literal v ∈ p.nodes → v.IsWritten → v.ReadsBack) :
    p.Printed names n n' := by
  have hclear := Spelling.clear_plain
  -- Names and literals are printed as they were written, for all tokens come from a scan.
  have hname : ∀ {t : Token} {ts s}, t :: ts <:+: us → t.lexeme = .name s →
      Spelling.plain.Reads s := by
    intro t ts s hpart ht
    have hwritten := hwritten t (hpart.subset List.mem_cons_self)
    rw [ht] at hwritten
    exact Spelling.IsName.reads hwritten
  induction h with
  | operand _ ih | unsigned _ ih => exact ih hpart hliterals
  | @joined _ op _ l r _ _ _ ts us t _ _ _ _ ihl ihr =>
    have hl : ts <:+: ts ++ t :: us := (List.prefix_append ts _).isInfix
    have hr : us <:+: ts ++ t :: us := (List.suffix_cons t us).isInfix.trans
      (List.suffix_append ts _).isInfix
    have hl := ihl (hl.trans hpart) fun v hv =>
      hliterals v (List.mem_cons_of_mem _ (List.mem_append_left _ hv))
    have hr := ihr (hr.trans hpart) fun v hv =>
      hliterals v (List.mem_cons_of_mem _ (List.mem_append_right _ hv))
    have htext : (Expr.binary op l r).text.toList = (l.bracketed l.text).toList ++
        ' ' :: (op.symbol.toList ++ ' ' :: (r.bracketed r.text).toList) := by
      simp [Expr.text]
    rw [Phrase.Printed, htext]
    exact .binary hclear (hl.bracketed hclear) (hr.bracketed hclear)
  | @signed op _ e _ _ _ _ _ _ ih =>
    have h := ih ((List.suffix_cons _ _).isInfix.trans hpart) fun v hv =>
      hliterals v (List.mem_cons_of_mem _ hv)
    rw [Phrase.Printed, Expr.text, String.toList_append]
    exact .unary hclear (h.bracketed hclear)
  | literal ht =>
    have hliteral := hwritten _ (hpart.subset List.mem_cons_self)
    rw [ht] at hliteral
    exact .literal hclear (hliterals _ List.mem_cons_self hliteral)
  | @group _ _ _ _ ts t t' _ _ _ ih =>
    have hinner : ts <:+: t :: ts ++ [t'] := ⟨[t], [t'], rfl⟩
    exact ih (hinner.trans hpart) hliterals
  | @call _ f _ args n _ _ _ ht hf _ harity ih =>
    obtain ⟨hself, hisName⟩ := hfunctions _ _ hf
    have hargs := ih ((List.suffix_cons _ _).isInfix.trans hpart) fun v hv =>
      hliterals v (List.mem_cons_of_mem _ hv)
    have htext : (Expr.call n f args).text.toList =
        f.name.toList ++ '(' :: ((Expr.listText args).toList ++ [')']) := by
      simp [Expr.text]
    rw [Phrase.Printed, htext]
    exact .call hclear hisName.reads hself harity hargs
  | @var s _ index n _ _ _ ht hf hvar _ ih =>
    have hindex := ih ((List.suffix_cons _ _).isInfix.trans hpart) fun v hv =>
      hliterals v (List.mem_cons_of_mem _ hv)
    cases index with
    | nil =>
      obtain ⟨-, rfl⟩ := hindex
      have htext : (Expr.var n s []).text.toList = s.toList := by simp [Expr.text]
      rw [Phrase.Printed, htext]
      exact .var (hname hpart ht) hf hvar
    | cons e es =>
      have htext : (Expr.var n s (e :: es)).text.toList =
          s.toList ++ '[' :: ((Expr.listText (e :: es)).toList ++ [']']) := by
        simp [Expr.text]
      rw [Phrase.Printed, htext]
      exact .varWithIndex hclear (hname hpart ht) hf hvar hindex
  | external _ _ _ hx =>
    rw [hexternals] at hx
    cases hx
  | path ht hf hv hx hstarts h =>
    -- A path is printed as its part of the source, so its derivation is moved as a whole.
    exact .path (.path ht hf hv hx hstarts h) rfl (by rw [ht]; rfl)
      (hpart.trans htokens.isInfix)
  | noList | emptyList => exact ⟨rfl, rfl⟩
  | @list _ _ _ _ _ ts t t' _ _ _ _ ih =>
    have hinner : ts <:+: t :: ts ++ [t'] := ⟨[t], [t'], rfl⟩
    exact ih (hinner.trans hpart) hliterals
  | lastItem _ ih =>
    refine .lastItem (ih hpart ?_)
    exact fun v hv => hliterals v (List.mem_append_left _ hv)
  | @item _ e es _ _ _ ts us t _ _ hes ihe ihes =>
    have hl : ts <:+: ts ++ t :: us := (List.prefix_append ts _).isInfix
    have hr : us <:+: ts ++ t :: us := (List.suffix_cons t us).isInfix.trans
      (List.suffix_append ts _).isInfix
    have he := ihe (hl.trans hpart) fun v hv => hliterals v (List.mem_append_left _ hv)
    have hes' := ihes (hr.trans hpart) fun v hv => hliterals v (List.mem_append_right _ hv)
    cases es with
    | nil => cases hes
    | cons e' es' =>
      have htext : (Expr.listText (e :: e' :: es')).toList =
          e.text.toList ++ ',' :: ' ' :: (Expr.listText (e' :: es')).toList := by
        simp [Expr.listText]
      rw [Phrase.Printed, PrintsList, htext]
      exact .item hclear he hes'
  | lastStep | step => trivial

end

/-! ## From printed texts to sources -/

/-- A text whose first token can start an operand has no sign of equality that is passed. -/
theorem tokenizes_of_scans {text : List Char} {t : Token} {ts : List Token} {endsLiteral : Bool}
    {s : Spelling} (hculture : s.culture = {}) (h : Scans s false 0 text [] (t :: ts) endsLiteral)
    (ht : t.lexeme.startsOperand = true) : Tokenizes s text (t :: ts) := by
  have hscan := h.scanFrom_eq
  rw [List.append_nil, scanFrom_nil] at hscan
  refine ⟨0 + text.length, ?_⟩
  rw [scan.eq_def]
  split
  · next rest =>
    -- The first token would be a sign of equality, but no operand starts with that.
    obtain ⟨found, r, hfound, hitem⟩ := h.exists_lexemeFrom rfl
    obtain ⟨written, length, hequals⟩ := exists_lexemeFrom_equals hculture r
    rw [hequals] at hfound
    cases hfound
    rw [hitem] at ht
    cases ht
  · rw [hscan]
    rfl

/-- A text that is an expression wherever it stands is read as that expression on its own. -/
theorem parseSource_of_prints {names : Names} {s : Spelling} (hculture : s.culture = {})
    {text : List Char} {e : Expr} {k n : Nat} (h : Prints s names text (.upTo k e) 0 n)
    (hk : k ≤ 5) : parseSource names s text = .ok e := by
  obtain ⟨ts, endsLiteral, hscans, hderives⟩ := h text [] [] (by simp) .nil
  have hloose := hderives.loosen hk
  obtain ⟨first, rest, rfl, hfirst⟩ := hloose.starts
  exact parseSource_of_derives (tokenizes_of_scans hculture hscans hfirst) hloose

end Parse

/-! ## Names in ASCII -/

/-- Whether a text is an identifier of ASCII letters, digits and underscores. -/
def Text.isAsciiIdentifier (s : String) : Bool :=
  match s.toList with
  | [] => false
  | c :: rest => (c.isAlpha || c == '_') && rest.all fun d => d.isAlphanum || d == '_'

/-- ASCII letters, digits and underlines continue a name, and all but the digits start one. -/
theorem continuesName_of_isAlphanum {c : Char} (hc : (c.isAlphanum || c == '_') = true) :
    Spelling.plain.continuesName c = true ∧
      ((c.isAlpha || c == '_') = true → Spelling.plain.startsName c = true) := by
  have hascii : ∀ n < 123, (Char.isAlphanum (.ofNat n) || Char.ofNat n == '_') = true →
      Spelling.plain.continuesName (.ofNat n) = true ∧
        ((Char.isAlpha (.ofNat n) || Char.ofNat n == '_') = true →
          Spelling.plain.startsName (.ofNat n) = true) := by
    decide +kernel
  -- Letters, digits and the underscore all stand before the opening brace.
  have hlt : c.toNat < 123 := by
    rw [Bool.or_eq_true, beq_iff_eq] at hc
    rcases hc with hc | rfl
    · delta Char.isAlphanum Char.isAlpha Char.isUpper Char.isLower Char.isDigit at hc
      simp only [Bool.or_eq_true, Bool.and_eq_true, decide_eq_true_eq,
        UInt32.le_iff_toNat_le] at hc
      have hval : c.toNat = c.val.toNat := rfl
      have hupper : 'Z'.val.toNat = 90 := rfl
      have hlower : 'z'.val.toNat = 122 := rfl
      have hdigit : '9'.val.toNat = 57 := rfl
      omega
    · decide
  have hself := hascii c.toNat hlt
  rw [Char.ofNat_toNat] at hself
  exact hself hc

/-- An identifier of ASCII letters, digits and underlines is a name for the plain spelling. -/
theorem isName_of_isAsciiIdentifier {s : String} (h : Text.isAsciiIdentifier s = true) :
    Spelling.plain.IsName s := by
  rw [Text.isAsciiIdentifier] at h
  split at h
  · cases h
  · next c rest hs =>
    rw [Bool.and_eq_true, List.all_eq_true] at h
    refine ⟨c, rest, hs, ?_, fun d hd => (continuesName_of_isAlphanum (h.2 d hd)).1⟩
    refine (continuesName_of_isAlphanum ?_).2 h.1
    rw [Char.isAlphanum, Bool.or_right_comm, h.1, Bool.true_or]

/-- Names in ASCII are read as names, whatever other characters names may hold. -/
theorem reads_of_isAsciiIdentifier {spelling : Spelling} (hculture : spelling.culture = {})
    {s : String} (h : Text.isAsciiIdentifier s = true) : spelling.Reads s := by
  obtain ⟨c, r, hs, hc, hr⟩ := isName_of_isAsciiIdentifier h
  refine Spelling.reads_of_starts hculture hs ?_ fun d hd => ?_
  · rwa [Spelling.startsName, show Spelling.plain.nameChars.contains c = false from rfl,
      Bool.or_false] at hc
  · have hd := hr d hd
    rw [Spelling.continuesName, show Spelling.plain.nameChars.contains d = false from rfl,
      Bool.or_false] at hd
    rw [Spelling.continuesName, hd, Bool.true_or]

/-- The functions at the start have names that are printed as names. -/
theorem Registry.isAsciiIdentifier_builtin :
    ∀ f ∈ Registry.builtin.values, Text.isAsciiIdentifier f.name = true := by
  have hall : ∀ b ∈ Builtin.all, Text.isAsciiIdentifier b.definition.name = true := by
    decide +kernel
  intro f hf
  obtain ⟨b, hb, rfl⟩ := Registry.exists_of_mem_values_builtin hf
  exact hall b hb

/-! ## Reading again -/

open Parse

/-- What an engine reads from a source is read again, number by number and text by text, from what
it is printed as.  The engine has the culture that everything is printed in, no other characters in
names and no objects from outside, and its functions have names in ASCII; the numbers of the source
are finite, and its numbers and dates are themselves read back from their texts. -/
theorem Engine.parseSource_text (e : Engine) (source : List Char) (t : Expr)
    (hculture : e.culture = {}) (hchars : e.nameChars = [])
    (hexternals : ∀ name, e.externals name = none) (hfunctions : e.functions.Built)
    (hnames : ∀ f ∈ e.functions.values, Text.isAsciiIdentifier f.name = true)
    (hparse : parseSource e.names e.spelling source = .ok t)
    (hfinite : ∀ x, .literal (.number x) ∈ t.nodes → x.isFinite = true)
    (hread : ∀ x, .literal (.number x) ∈ t.nodes → Number.read? (Number.display x).toList = some x)
    (hdates : ∀ d, .literal (.dateTime d) ∈ t.nodes →
      ({} : Culture).parseDate? d.text.toList = some d) :
    parseSource e.names e.spelling t.text.toList = .ok t := by
  have hspelling : e.spelling = .plain := by rw [Engine.spelling, hculture, hchars]; rfl
  rw [hspelling] at hparse ⊢
  obtain ⟨us, n, ⟨stop, hscan⟩, hderives⟩ := derives_of_parseSource hparse
  have hprefix : us <+: (scan .plain source).tokens := by
    rw [hscan]
    exact List.prefix_append us _
  have hwritten : ∀ t ∈ us, t.lexeme.IsWritten .plain := by
    have hends := scan_ends .plain source
    rw [hscan] at hends
    exact hends.isWritten
  have hself : ∀ s f, e.names.function? s = some f →
      e.names.function? f.name = some f ∧ Spelling.plain.IsName f.name := by
    intro s f hf
    have hmem := List.mem_map_of_mem (f := (·.2)) (Registry.mem_entries_of_get? hf)
    exact ⟨hfunctions.get?_name hf, isName_of_isAsciiIdentifier (hnames f hmem)⟩
  have hliterals : ∀ v, .literal v ∈ t.nodes → v.IsWritten → v.ReadsBack := by
    intro v hv hwritten
    cases v with
    | text => trivial
    | dateTime d => exact hdates d hv
    | number x => exact ⟨hfinite x hv, hwritten, hread x hv⟩
    | empty | decimal | boolean | array | object => exact hwritten
  have hprints : Prints .plain e.names t.text.toList (.upTo t.looseness t) 0 n :=
    hderives.printed hprefix hwritten hself hexternals (List.infix_refl us) hliterals
  obtain ⟨ts, endsLiteral, hscans, hderives'⟩ := hprints t.text.toList [] [] (by simp) .nil
  have hloose := hderives'.loosen t.looseness_le
  obtain ⟨first, rest, rfl, hfirst⟩ := hloose.starts
  exact parseSource_of_derives (tokenizes_of_scans rfl hscans hfirst) hloose

/-- The tree of the formula `=2 Ann`, in which a multiplication is understood. -/
def twiceAnn : Expr :=
  .binary (.arithmetic .multiply) (.literal (.number 2)) (.path 0 [⟨"Ann", false, []⟩] "Ann")

/-- The text `=2 Ann` is a number, the operator that is left out between it and a name, and the
name. -/
theorem tokenizes_twiceAnn : Tokenizes .plain "=2 Ann".toList
    [⟨.literal (.number 2), 1, 2⟩, ⟨.times, 3, 3⟩, ⟨.name "Ann", 3, 6⟩] := by
  have hname : lexemeFrom .plain 'A' ['n', 'n'] = .ok ⟨.name "Ann", 3⟩ :=
    @lexemeFrom_name 'A' (by decide +kernel) .plain rfl ['n', 'n'] []
      (forall_mem_of_all (by decide +kernel)) .nil
  have htwo : scan .plain "=2 Ann".toList =
      (scanFrom .plain true 2 " Ann".toList).prepend [⟨.literal (.number 2), 1, 2⟩] :=
    @scanFrom_ok .plain ⟨.literal (.number 2), 1⟩ false 1 [] " Ann".toList '2' (by simp) rfl rfl
  have hann : scanFrom .plain true 2 " Ann".toList =
      (scanFrom .plain false 6 []).prepend [⟨.times, 3, 3⟩, ⟨.name "Ann", 3, 6⟩] :=
    @scanFrom_ok .plain ⟨.name "Ann", 3⟩ true 2 [' '] ['n', 'n'] 'A' (forall_mem_of_all rfl) rfl
      hname
  rw [Tokenizes, htwo, hann, scanFrom_nil]
  exact ⟨6, rfl⟩

/-- An engine with data and one function. -/
def absoluteOnly : Engine :=
  { functions := Registry.register {} Builtin.abs.definition, context := some (.text "Bob") }

/-- It is read as the product of the two. -/
theorem parseSource_twiceAnn :
    parseSource absoluteOnly.names .plain "=2 Ann".toList = .ok twiceAnn := by
  have hf : absoluteOnly.names.function? "Ann" = none := by
    rw [← Option.isNone_iff_eq_none]
    decide +kernel
  have hpath : Derives absoluteOnly.names "=2 Ann".toList
      (.atom (.path 0 [⟨"Ann", false, []⟩] (pathText "=2 Ann".toList ⟨.name "Ann", 3, 6⟩ []))) 0
      [⟨.name "Ann", 3, 6⟩] 1 :=
    .path rfl hf rfl rfl rfl (.lastStep .noList)
  have hproduct : Derives absoluteOnly.names "=2 Ann".toList
      (.upTo 2 twiceAnn) 0 ([⟨.literal (.number 2), 1, 2⟩] ++ ⟨.times, 3, 3⟩ ::
        [⟨.name "Ann", 3, 6⟩]) 1 :=
    .joined (.operand (.operand (.unsigned (.literal rfl)))) rfl rfl (.operand (.unsigned hpath))
  exact parseSource_of_derives tokenizes_twiceAnn (hproduct.loosen (by decide))

/-- The formula is printed with its multiplication, and read again. -/
theorem Engine.parseSource_text_twiceAnn : twiceAnn.text = "2 * Ann" ∧
    parseSource absoluteOnly.names .plain twiceAnn.text.toList = .ok twiceAnn := by
  have htext : twiceAnn.text = "2 * Ann" := by
    have htwo : (Value.number 2).literalText = "2" := by rfl
    rw [twiceAnn, Expr.text, Expr.text, Expr.text, htwo]
    rfl
  have hnumber : ∀ v, .literal v ∈ twiceAnn.nodes → v = .number 2 := by
    intro v hv
    simpa [twiceAnn, Expr.nodes, Expr.nodesOfSteps, Expr.nodesOfAll] using hv
  refine ⟨htext, ?_⟩
  refine Engine.parseSource_text absoluteOnly "=2 Ann".toList _ rfl rfl (fun _ => rfl)
    (.register _ .empty) (by decide +kernel) parseSource_twiceAnn ?_ ?_ ?_
  · intro x hx
    cases hnumber _ hx
    decide +kernel
  · intro x hx
    cases hnumber _ hx
    rfl
  · intro d hd
    cases hnumber _ hd

end Formula
