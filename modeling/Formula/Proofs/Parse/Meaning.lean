import Formula.Proofs.Expr.Nodes
import Formula.Proofs.Parse.Exact
import Formula.Proofs.Parse.Moved

/-!
# What names mean in a formula

A name that does not follow a period is looked up when a formula is read.  Two readings of the same
tokens agree if all these names mean the same to both; and if they refer to the same variables and
paths, all these names mean the same, at least where functions and objects from outside are the
same.
-/

namespace Formula

/-! ## Meanings -/

/-- What a name that is looked up stands for. -/
inductive Meaning where
  | function (f : FunctionDef)
  | var
  | external (v : Value)
  | path
  | nothing

/-- What a name stands for. -/
def Names.meaning (names : Names) (s : String) : Meaning :=
  match names.function? s with
  | some f => .function f
  | none =>
    if names.isVariable s then .var
    else
      match names.external? s with
      | some v => .external v
      | none => if names.startsPath s then .path else .nothing

namespace Names

variable {names : Names} {s : String}

theorem meaning_eq_function {f : FunctionDef} :
    names.meaning s = .function f ↔ names.function? s = some f := by
  grind [meaning]

theorem meaning_eq_var :
    names.meaning s = .var ↔ names.function? s = none ∧ names.isVariable s = true := by
  grind [meaning]

theorem meaning_eq_external {v : Value} : names.meaning s = .external v ↔
    names.function? s = none ∧ names.isVariable s = false ∧ names.external? s = some v := by
  grind [meaning]

theorem meaning_eq_path : names.meaning s = .path ↔
    names.function? s = none ∧ names.isVariable s = false ∧ names.external? s = none ∧
      names.startsPath s = true := by
  grind [meaning]

end Names

/-- Whether a variable or a path is a name that has a meaning. -/
inductive Expr.Reference.Shows : Expr.Reference → String → Meaning → Prop where
  | var {id : Nat} {s : String} : Shows (.var id s) s .var
  | path {id : Nat} {s : String} {steps : List String} : Shows (.path id (s :: steps)) s .path

/-- Whether a meaning of a name is one, and is shown by some references if they can do so. -/
def Meaning.IsShown (refs : List Expr.Reference) (s : String) (m : Meaning) : Prop :=
  m ≠ .nothing ∧ (m = .var ∨ m = .path → ∃ r ∈ refs, r.Shows s m)

/-- A meaning that some references show is shown by more of them. -/
theorem Meaning.IsShown.mono {refs refs' : List Expr.Reference} {s : String} {m : Meaning}
    (h : m.IsShown refs s) (hsub : refs ⊆ refs') : m.IsShown refs' s := by
  refine ⟨h.1, fun hm => ?_⟩
  obtain ⟨r, hr, hshows⟩ := h.2 hm
  exact ⟨r, hsub hr, hshows⟩

namespace Parse

/-! ## The names that are looked up -/

/-- The names among some tokens, but not those after a period; the first token may be such. -/
def lookedUp : Bool → List Token → List String
  | _, [] => []
  | afterPeriod, t :: ts =>
    match t.lexeme with
    | .name s => if afterPeriod then lookedUp false ts else s :: lookedUp false ts
    | .period => lookedUp true ts
    | _ => lookedUp false ts

/-- The names that are looked up when a source is read. -/
def namesIn (spelling : Spelling) (source : List Char) : List String :=
  lookedUp false (scan spelling source).tokens

variable {names names' : Names} {source : List Char} {p : Phrase} {n n' : Nat} {ts us : List Token}
  {t t' : Token}

theorem lookedUp_name {s : String} (ht : t.lexeme = .name s) :
    lookedUp false (t :: ts) = s :: lookedUp false ts := by
  rw [lookedUp, ht]
  rfl

/-- The names that are looked up in two parts are those of the first and of the second, unless a
period ends the first. -/
theorem lookedUp_append {afterPeriod : Bool} (hts : EndsOperand ts)
    (h : afterPeriod = false ∨ ts ≠ []) :
    lookedUp afterPeriod (ts ++ us) = lookedUp afterPeriod ts ++ lookedUp false us := by
  induction ts generalizing afterPeriod with
  | nil =>
    rcases h with rfl | hne
    · rfl
    · exact absurd rfl hne
  | cons t ts ih =>
    have htail : EndsOperand ts := fun us t' hsplit => hts (t :: us) t' (by rw [hsplit]; rfl)
    rw [List.cons_append, lookedUp, lookedUp]
    split
    · rw [ih htail (.inl rfl)]
      split <;> rfl
    · next hperiod =>
      refine ih htail (.inr fun hnil => ?_)
      have hlast := hts [] t (by rw [hnil]; rfl)
      rw [hperiod] at hlast
      cases hlast
    · exact ih htail (.inl rfl)

/-- The names of a source are those looked up among its tokens; the end of the source adds none. -/
theorem namesIn_of_tokenizes {spelling : Spelling} (h : Tokenizes spelling source ts)
    (hts : EndsOperand ts) : namesIn spelling source = lookedUp false ts := by
  obtain ⟨stop, hscan⟩ := h
  rw [namesIn, hscan, lookedUp_append hts (.inl rfl)]
  exact List.append_nil _

/-! ## Reading with other names -/

/-- Tokens derive the same for names that mean the same where they are looked up. -/
theorem Derives.of_meanings (h : Derives names source p n ts n')
    (hnames : ∀ s ∈ lookedUp false ts, names'.meaning s = names.meaning s) :
    Derives names' source p n ts n' := by
  -- No period stands between two phrases, except before the name of a step.
  have hsplit : ∀ {ts us : List Token}, EndsOperand ts →
      (∀ s ∈ lookedUp false (ts ++ us), names'.meaning s = names.meaning s) →
      (∀ s ∈ lookedUp false ts, names'.meaning s = names.meaning s) ∧
        ∀ s ∈ lookedUp false us, names'.meaning s = names.meaning s := by
    intro ts us hts hall
    rw [lookedUp_append hts (.inl rfl)] at hall
    exact List.forall_mem_append.mp hall
  induction h with
  | operand _ ih => exact .operand (ih hnames)
  | joined hl ht hk _ ihl ihr =>
    obtain ⟨hleft, hright⟩ := hsplit hl.endsOperand hnames
    simp only [lookedUp, ht] at hright
    exact .joined (ihl hleft) ht hk (ihr hright)
  | signed ht _ ih =>
    simp only [lookedUp, ht] at hnames
    exact .signed ht (ih hnames)
  | unsigned _ ih => exact .unsigned (ih hnames)
  | literal ht => exact .literal ht
  | group ht he ht' ih =>
    simp only [lookedUp, ht, List.cons_append] at hnames
    exact .group ht (ih (hsplit he.endsOperand hnames).1) ht'
  | call ht hf _ harity ih =>
    rw [lookedUp_name ht, List.forall_mem_cons] at hnames
    have hf' := Names.meaning_eq_function.mp (hnames.1.trans (Names.meaning_eq_function.mpr hf))
    exact .call ht hf' (ih hnames.2) harity
  | var ht hf hv _ ih =>
    rw [lookedUp_name ht, List.forall_mem_cons] at hnames
    obtain ⟨hf', hv'⟩ :=
      Names.meaning_eq_var.mp (hnames.1.trans (Names.meaning_eq_var.mpr ⟨hf, hv⟩))
    exact .var ht hf' hv' (ih hnames.2)
  | external ht hf hv hx =>
    rw [lookedUp_name ht, List.forall_mem_cons] at hnames
    obtain ⟨hf', hv', hx'⟩ :=
      Names.meaning_eq_external.mp (hnames.1.trans (Names.meaning_eq_external.mpr ⟨hf, hv, hx⟩))
    exact .external ht hf' hv' hx'
  | path ht hf hv hx hstarts _ ih =>
    rw [lookedUp_name ht, List.forall_mem_cons] at hnames
    obtain ⟨hf', hv', hx', hstarts'⟩ :=
      Names.meaning_eq_path.mp (hnames.1.trans (Names.meaning_eq_path.mpr ⟨hf, hv, hx, hstarts⟩))
    exact .path ht hf' hv' hx' hstarts' (ih hnames.2)
  | noList => exact .noList
  | emptyList ht hwanted ht' => exact .emptyList ht hwanted ht'
  | list ht hwanted hitems ht' ih =>
    simp only [lookedUp, ht, List.cons_append] at hnames
    exact .list ht hwanted (ih (hsplit hitems.endsOperand hnames).1) ht'
  | lastItem _ ih => exact .lastItem (ih hnames)
  | item he ht _ ihe ihes =>
    obtain ⟨hitem, hrest⟩ := hsplit he.endsOperand hnames
    simp only [lookedUp, ht] at hrest
    exact .item (ihe hitem) ht (ihes hrest)
  | lastStep _ ih => exact .lastStep (ih hnames)
  | step hkeys ht ht' _ ihkeys ihsteps =>
    -- The name behind the period is that of a step; it is not looked up.
    obtain ⟨hnameskeys, hrest⟩ := hsplit hkeys.endsOperand hnames
    simp only [lookedUp, ht, ht', if_true] at hrest
    exact .step (ihkeys hnameskeys) ht ht' (ihsteps hrest)

/-- A source is read as the same with names that mean the same where they are looked up. -/
theorem parseSource_of_meanings {spelling : Spelling} {e : Expr}
    (h : parseSource names spelling source = .ok e)
    (hnames : ∀ s ∈ namesIn spelling source, names'.meaning s = names.meaning s) :
    parseSource names' spelling source = .ok e := by
  obtain ⟨ts, n, htokens, hderives⟩ := derives_of_parseSource h
  rw [namesIn_of_tokenizes htokens hderives.endsOperand] at hnames
  exact parseSource_of_derives htokens (hderives.of_meanings hnames)

/-! ## Names and references -/

/-- The first step of a path has the name that the path starts with. -/
theorem Derives.steps_eq_cons {s : String} {steps : List (Step Expr)}
    (h : Derives names source (.steps s steps) n ts n') :
    ∃ listed keys rest, steps = ⟨s, listed, keys⟩ :: rest := by
  cases h with
  | lastStep => exact ⟨_, _, _, rfl⟩
  | step => exact ⟨_, _, _, rfl⟩

/-- Variables and paths are names that mean this. -/
theorem Derives.meaning_of_shows (h : Derives names source p n ts n') {r : Expr.Reference}
    (hr : r ∈ Expr.referencesOf p.nodes) {s : String} {m : Meaning} (hshows : r.Shows s m) :
    names.meaning s = m := by
  induction h with
  | operand _ ih | unsigned _ ih | group _ _ _ ih | list _ _ _ _ ih | signed _ _ ih
  | call _ _ _ _ ih => exact ih hr
  | joined _ _ _ _ ihl ihr | item _ _ _ ihl ihr | step _ _ _ _ ihl ihr =>
    rcases List.mem_append.mp ((Expr.referencesOf_append ..) ▸ hr) with hr | hr
    · exact ihl hr
    · exact ihr hr
  | literal | external | noList | emptyList => cases hr
  | var _ hf hv _ ih =>
    rcases List.mem_cons.mp hr with rfl | hr
    · cases hshows
      exact Names.meaning_eq_var.mpr ⟨hf, hv⟩
    · exact ih hr
  | path _ hf hv hx hstarts hsteps ih =>
    rcases List.mem_cons.mp hr with rfl | hr
    · obtain ⟨listed, keys, rest, rfl⟩ := hsteps.steps_eq_cons
      cases hshows
      exact Names.meaning_eq_path.mpr ⟨hf, hv, hx, hstarts⟩
    · exact ih hr
  | lastItem _ ih | lastStep _ ih =>
    rcases List.mem_append.mp ((Expr.referencesOf_append ..) ▸ hr) with hr | hr
    · exact ih hr
    · cases hr

/-- Names that are looked up have a meaning, and they become variables and paths if that is it. -/
theorem Derives.isShown (h : Derives names source p n ts n') :
    ∀ s ∈ lookedUp false ts, (names.meaning s).IsShown (Expr.referencesOf p.nodes) s := by
  -- A name stands in one of two phrases, and what shows it stays among the references of both.
  have hboth : ∀ {nodes nodes' : List Expr} {ts us : List Token}, EndsOperand ts →
      (∀ s ∈ lookedUp false ts, (names.meaning s).IsShown (Expr.referencesOf nodes) s) →
      (∀ s ∈ lookedUp false us, (names.meaning s).IsShown (Expr.referencesOf nodes') s) →
      ∀ s ∈ lookedUp false (ts ++ us),
        (names.meaning s).IsShown (Expr.referencesOf (nodes ++ nodes')) s := by
    intro nodes nodes' ts us hts hl hr s hs
    rw [lookedUp_append hts (.inl rfl)] at hs
    rw [Expr.referencesOf_append]
    rcases List.mem_append.mp hs with hs | hs
    · exact (hl s hs).mono (List.subset_append_left _ _)
    · exact (hr s hs).mono (List.subset_append_right _ _)
  -- Functions and objects from outside are not among the references.
  have hunshown : ∀ {s : String} {refs : List Expr.Reference} {m : Meaning}, names.meaning s = m →
      m ≠ .nothing → m ≠ .var → m ≠ .path → (names.meaning s).IsShown refs s := by
    rintro s refs m rfl hnothing hvar hpath
    exact ⟨hnothing, fun h => (h.elim hvar hpath).elim⟩
  induction h with
  | operand _ ih | unsigned _ ih => exact ih
  | joined hl ht _ _ ihl ihr =>
    refine hboth hl.endsOperand ihl ?_
    simp only [lookedUp, ht]
    exact ihr
  | signed ht _ ih =>
    simp only [lookedUp, ht]
    exact ih
  | literal ht =>
    simp only [lookedUp, ht]
    exact fun s hs => nomatch hs
  | group ht he ht' ih | list ht _ he ht' ih =>
    intro s hs
    simp only [lookedUp, ht, List.cons_append] at hs
    rw [lookedUp_append he.endsOperand (.inl rfl)] at hs
    simp only [lookedUp, ht', List.append_nil] at hs
    exact ih s hs
  | call ht hf _ _ ih =>
    rw [lookedUp_name ht]
    refine List.forall_mem_cons.mpr ⟨?_, ih⟩
    exact hunshown (Names.meaning_eq_function.mpr hf) nofun nofun nofun
  | var ht hf hv _ ih =>
    rw [lookedUp_name ht]
    refine List.forall_mem_cons.mpr ⟨?_, fun s hs => (ih s hs).mono (List.subset_cons_self _ _)⟩
    rw [Names.meaning_eq_var.mpr ⟨hf, hv⟩]
    exact ⟨nofun, fun _ => ⟨_, List.mem_cons_self, .var⟩⟩
  | external ht hf hv hx =>
    rw [lookedUp_name ht]
    refine List.forall_mem_cons.mpr ⟨?_, fun s hs => nomatch hs⟩
    exact hunshown (Names.meaning_eq_external.mpr ⟨hf, hv, hx⟩) nofun nofun nofun
  | path ht hf hv hx hstarts hsteps ih =>
    rw [lookedUp_name ht]
    refine List.forall_mem_cons.mpr ⟨?_, fun s hs => (ih s hs).mono (List.subset_cons_self _ _)⟩
    rw [Names.meaning_eq_path.mpr ⟨hf, hv, hx, hstarts⟩]
    obtain ⟨listed, keys, rest, rfl⟩ := hsteps.steps_eq_cons
    exact ⟨nofun, fun _ => ⟨_, List.mem_cons_self, .path⟩⟩
  | noList => exact fun s hs => nomatch hs
  | emptyList ht _ ht' =>
    simp only [lookedUp, ht, ht']
    exact fun s hs => nomatch hs
  | lastItem _ ih | lastStep _ ih =>
    intro s hs
    exact (ih s hs).mono ((Expr.referencesOf_append ..) ▸ List.subset_append_left _ _)
  | item he ht _ ihe ihes =>
    refine hboth he.endsOperand ihe ?_
    simp only [lookedUp, ht]
    exact ihes
  | step hkeys ht ht' _ ihkeys ihsteps =>
    refine hboth hkeys.endsOperand ihkeys ?_
    simp only [lookedUp, ht, ht', if_true]
    exact ihsteps

/-- If a source is read with the same references for two ways to look names up, its names mean the
same, except that functions and objects from outside may not be compared in this way. -/
theorem meaning_eq_of_parseSource {spelling : Spelling} {e e' : Expr}
    (h : parseSource names spelling source = .ok e)
    (h' : parseSource names' spelling source = .ok e')
    (hrefs : Expr.referencesOf e'.nodes = Expr.referencesOf e.nodes)
    (hfunctions : names'.function? = names.function?)
    (hexternals : names'.external? = names.external?) :
    ∀ s ∈ namesIn spelling source, names'.meaning s = names.meaning s := by
  obtain ⟨ts, n, htokens, hderives⟩ := derives_of_parseSource h
  obtain ⟨ts', n', htokens', hderives'⟩ := derives_of_parseSource h'
  intro s hs
  have hshown := hderives.isShown s (namesIn_of_tokenizes htokens hderives.endsOperand ▸ hs)
  have hshown' := hderives'.isShown s (namesIn_of_tokenizes htokens' hderives'.endsOperand ▸ hs)
  -- A variable or a path of one reading is among the references of the other.
  have hkept : names.meaning s = .var ∨ names.meaning s = .path →
      names'.meaning s = names.meaning s := by
    intro hm
    obtain ⟨r, hr, hshows⟩ := hshown.2 hm
    exact hderives'.meaning_of_shows (hrefs ▸ hr) hshows
  have hkept' : names'.meaning s = .var ∨ names'.meaning s = .path →
      names'.meaning s = names.meaning s := by
    intro hm
    obtain ⟨r, hr, hshows⟩ := hshown'.2 hm
    exact (hderives.meaning_of_shows (hrefs ▸ hr) hshows).symm
  cases hm : names.meaning s with
  | var => exact hm ▸ hkept (.inl hm)
  | path => exact hm ▸ hkept (.inr hm)
  | nothing => exact absurd hm hshown.1
  | function f =>
    have hf := Names.meaning_eq_function.mp hm
    exact Names.meaning_eq_function.mpr (hfunctions ▸ hf)
  | external v =>
    obtain ⟨hf, -, hx⟩ := Names.meaning_eq_external.mp hm
    have hf' : names'.function? s = none := hfunctions ▸ hf
    have hx' : names'.external? s = some v := hexternals ▸ hx
    refine Names.meaning_eq_external.mpr ⟨hf', ?_, hx'⟩
    by_contra hv
    have hm' : names'.meaning s = .var :=
      Names.meaning_eq_var.mpr ⟨hf', Bool.of_not_eq_false hv⟩
    have hsame := hkept' (.inl hm')
    rw [hm, hm'] at hsame
    cases hsame

end Parse

end Formula
