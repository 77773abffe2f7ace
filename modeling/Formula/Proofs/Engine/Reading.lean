import Formula.Engine.Evaluate
import Formula.Proofs.Evaluation.Handles
import Formula.Proofs.Expr.Heads
import Formula.Proofs.Expr.Steady
import Formula.Proofs.Function.Registry
import Formula.Proofs.Parse.Meaning
import Formula.Proofs.Parse.Numbering

/-!
# What a text is read as

How an engine reads a text depends on what names stand for, how tokens are spelt and whether trees
are folded, and on nothing else that an engine has; reading changes nothing.  This needs functions
that are as expected.
-/

namespace Formula.Engine

/-! ## Running operations -/

/-- Reading parses the text without its comments and folds what it stands for, if trees are
folded. -/
theorem run_parse (e : Engine) (text : String) : (parse text).run.run e =
    match parseSource e.names e.spelling (stripComments text.toList) with
    | .error error => (.error error, e)
    | .ok t =>
      if e.optimizes then
        (.ok ((t.fold e.scope).run e.host).1, { e with host := ((t.fold e.scope).run e.host).2 })
      else (.ok t, e) := by
  have hget : (parse text).run.run e =
      (((liftM (parseSource e.names e.spelling (stripComments text.toList)) : EngineM Expr) >>=
        fun t => if e.optimizes then fold t else return t) : EngineM Expr).run.run e := rfl
  rw [hget]
  cases parseSource e.names e.spelling (stripComments text.toList) with
  | error error => rfl
  | ok t =>
    show (if e.optimizes then fold t else return t : EngineM Expr).run.run e =
      if e.optimizes then _ else _
    split <;> rfl

/-- A text is taken as the tree that is kept of it, if trees are kept and this is asked for;
otherwise it is read, and the tree is kept. -/
theorem run_treeOf (e : Engine) (text : String) (useCache : Bool) :
    (treeOf text useCache).run.run e =
      match if useCache then e.cache.bind (·.get? text) else none with
      | some tree => (.ok tree, e)
      | none =>
        match (parse text).run.run e with
        | (.error error, e') => (.error error, e')
        | (.ok t, e') =>
          (.ok { expr := t }, if useCache then
            { e' with cache := e'.cache.map (·.insert text { expr := t }) } else e') := by
  have hget : (treeOf text useCache).run.run e =
      ((match if useCache then e.cache.bind (·.get? text) else none with
        | some tree => return tree
        | none => do
          let tree : Tree := { expr := ← parse text }
          if useCache then modify fun e => { e with cache := e.cache.map (·.insert text tree) }
          return tree) : EngineM Tree).run.run e := rfl
  rw [hget]
  cases if useCache then e.cache.bind (·.get? text) else none with
  | some tree => rfl
  | none =>
    dsimp only
    rw [ExceptT.run_bind, StateT.run_bind]
    rcases (parse text).run.run e with ⟨error | t, e'⟩
    · rfl
    · cases useCache <;> rfl

/-- An evaluation takes the text as a tree, runs it and keeps the tree with the handles that it
found; a text that cannot be read leaves the engine as it is. -/
theorem run_evaluateIn (e : Engine) (mode : Mode) (text : String) (o : EvaluateOptions) :
    (evaluateIn mode text o).run.run e =
      match (treeOf text o.useCache).run.run e with
      | (.error error, e') => (.error error, e')
      | (.ok tree, e') =>
        let ((result, tree'), e'') := (run tree o mode).run e'
        (result, if o.useCache then
          { e'' with cache := e''.cache.map (·.replace text tree') } else e'') := by
  unfold evaluateIn
  rw [ExceptT.run_bind, StateT.run_bind]
  rcases (treeOf text o.useCache).run.run e with ⟨error | tree, e'⟩
  · rfl
  · have hlift : ∀ f : Outcome Value × Tree → EngineM Value,
        ((liftM (run tree o mode) : EngineM (Outcome Value × Tree)) >>= f).run.run e' =
          (f ((run tree o mode).run e').1).run.run ((run tree o mode).run e').2 := fun _ => rfl
    refine (hlift _).trans ?_
    dsimp only
    rcases (run tree o mode).run e' with ⟨⟨error | v, tree'⟩, e''⟩
    · cases o.useCache <;> rfl
    · cases o.useCache <;> rfl

/-! ## Reading -/

/-- What the text of a formula stands for, before it is folded. -/
def parsed (e : Engine) (text : String) : Outcome Expr :=
  parseSource e.names e.spelling (stripComments text.toList)

/-- What an engine reads a text as. -/
def reads (e : Engine) (text : String) : Outcome Expr := ((parse text).run.run e).1

/-- What an engine makes of what a text stands for: it is folded, if trees are. -/
def folded (e : Engine) (u : Expr) : Expr :=
  if e.optimizes then ((u.fold e.scope).run e.host).1 else u

/-- What holds of an expression and of what it is folded to holds of what the engine makes of it. -/
theorem folded_cases {e : Engine} {u : Expr} {motive : Expr → Prop} (same : motive u)
    (fold : motive ((u.fold e.scope).run e.host).1) : motive (e.folded u) := by
  unfold folded
  split
  · exact fold
  · exact same

/-- What a text stands for is folded once it is parsed. -/
theorem reads_of_parsed {e : Engine} {text : String} {u : Expr} (h : e.parsed text = .ok u) :
    e.reads text = .ok (e.folded u) := by
  rw [reads, run_parse, ← parsed, h, folded]
  dsimp only
  split <;> rfl

/-- What a text is read as comes from what it stands for, folded or not. -/
theorem exists_parsed_of_reads {e : Engine} {text : String} {t : Expr} (h : e.reads text = .ok t) :
    ∃ u, e.parsed text = .ok u ∧ e.folded u = t := by
  cases hparsed : e.parsed text with
  | error error =>
    rw [reads, run_parse, ← parsed, hparsed] at h
    cases h
  | ok u =>
    rw [reads_of_parsed hparsed] at h
    exact ⟨u, rfl, Except.ok.inj h⟩

/-- What is read calls and refers to nothing that the text does not. -/
theorem exists_parsed_sublist {e : Engine} {text : String} {t : Expr} (ht : e.reads text = .ok t) :
    ∃ u, e.parsed text = .ok u ∧ (Expr.headsOf t.nodes).Sublist (Expr.headsOf u.nodes) := by
  obtain ⟨u, hu, rfl⟩ := exists_parsed_of_reads ht
  let sublist : Expr → Prop := fun t => (Expr.headsOf t.nodes).Sublist (Expr.headsOf u.nodes)
  exact ⟨u, hu, folded_cases (motive := sublist) (.refl _) (u.sublist_fold e.scope e.host)⟩

/-- The numbers in what a text stands for are all different. -/
theorem nodup_ids_of_parsed {e : Engine} {text : String} {u : Expr} (hu : e.parsed text = .ok u) :
    (u.nodes.filterMap Expr.id?).Nodup := by
  obtain ⟨ts, n, -, hderives⟩ := Parse.derives_of_parseSource hu
  obtain ⟨count, -, hids⟩ := hderives.ids
  rw [show u.nodes.filterMap Expr.id? = _ from hids]
  exact List.nodup_range'

/-- The numbers in what is read are all different. -/
theorem nodup_ids_of_reads {e : Engine} {text : String} {t : Expr} (ht : e.reads text = .ok t) :
    (t.nodes.filterMap Expr.id?).Nodup := by
  obtain ⟨u, hu, hheads⟩ := exists_parsed_sublist ht
  have hnodup := nodup_ids_of_parsed hu
  rw [Expr.filterMap_id?] at hnodup ⊢
  exact (hheads.map Expr.Head.id).nodup hnodup

/-- Whether all functions of an engine are as expected. -/
def HasSteadyFunctions (e : Engine) : Prop := ∀ f ∈ e.functions.values, f.Steady

/-- The built-in functions are those that the registry of built-in functions holds. -/
theorem exists_builtin_of_eq {e : Engine} (hfunctions : e.functions = .builtin) :
    ∀ f ∈ e.functions.values, ∃ b : Builtin, f = b.definition := by
  intro f hf
  rw [hfunctions] at hf
  obtain ⟨b, -, rfl⟩ := Registry.exists_of_mem_values_builtin hf
  exact ⟨b, rfl⟩

/-- Built-in functions are as expected, so an engine that has no others is too. -/
theorem hasSteadyFunctions_of_builtins {e : Engine}
    (h : ∀ f ∈ e.functions.values, ∃ b : Builtin, f = b.definition) : e.HasSteadyFunctions := by
  intro f hf
  obtain ⟨b, rfl⟩ := h f hf
  exact b.steady

theorem steady_of_names {e : Engine} (h : e.HasSteadyFunctions) {s : String} {f : FunctionDef}
    (hf : e.names.function? s = some f) : f.Steady :=
  h f (List.mem_map_of_mem (f := Prod.snd) (Registry.mem_entries_of_get? hf))

/-- Engines for which a text stands for the same read it as the same, and are not changed by it.
What is read refers to the variables and paths that the text names. -/
theorem exists_reading {e : Engine} (h : e.HasSteadyFunctions) (text : String) : ∃ r : Outcome Expr,
    (∀ e', e'.parsed text = e.parsed text → e'.optimizes = e.optimizes →
      (parse text).run.run e' = (r, e')) ∧
    ∀ t, r = .ok t → ∃ u, e.parsed text = .ok u ∧
      Expr.referencesOf t.nodes = Expr.referencesOf u.nodes := by
  cases hparsed : e.parsed text with
  | error error =>
    refine ⟨.error error, fun e' he' _ => ?_, fun t ht => nomatch ht⟩
    rw [run_parse, ← parsed, he']
  | ok t =>
    obtain ⟨ts, n, -, hderives⟩ := Parse.derives_of_parseSource hparsed
    have hsteady : ∀ id f args, .call id f args ∈ t.nodes → f.Steady := by
      intro id f args hcall
      obtain ⟨⟨s, hf⟩, -⟩ := hderives.resolves _ (Expr.mem_headsOf hcall rfl)
      exact steady_of_names h hf
    -- Folding works on nothing but the tree, so all that is read depends on what was parsed.
    obtain ⟨t', hfold, hrefs⟩ := t.exists_fold_steady hsteady
    refine ⟨.ok (if e.optimizes then t' else t), fun e' he' hoptimizes => ?_,
      fun u hu => ⟨t, rfl, ?_⟩⟩
    · rw [run_parse, ← parsed, he', ← hoptimizes]
      dsimp only
      rw [hfold]
      split <;> rfl
    · cases hu
      split
      · exact hrefs
      · rfl

section
variable {e : Engine} (h : e.HasSteadyFunctions) {text : String}
include h

theorem run_parse_eq (text : String) : (parse text).run.run e = (e.reads text, e) := by
  obtain ⟨r, hr, -⟩ := exists_reading h text
  rw [reads, hr e rfl rfl]

theorem reads_eq_of_parsed_eq {e' : Engine} (hparsed : e'.parsed text = e.parsed text)
    (hoptimizes : e'.optimizes = e.optimizes) : e'.reads text = e.reads text := by
  obtain ⟨r, hr, -⟩ := exists_reading h text
  rw [reads, reads, hr e' hparsed hoptimizes, hr e rfl rfl]

/-- What a text is read as comes from what the text stands for, and refers to the same variables and
paths in the same order. -/
theorem exists_parsed {t : Expr} (ht : e.reads text = .ok t) : ∃ u, e.parsed text = .ok u ∧
    Expr.referencesOf t.nodes = Expr.referencesOf u.nodes := by
  obtain ⟨r, hr, hrefs⟩ := exists_reading h text
  rw [reads, hr e rfl rfl] at ht
  exact hrefs t ht

end

/-! ## Reading at different times -/

/-- The names that are looked up when an engine reads a text. -/
def namesIn (e : Engine) (text : String) : List String :=
  Parse.namesIn e.spelling (stripComments text.toList)

/-- Whether two engines have the same functions, objects from outside and settings for reading. -/
structure SameSettings (e' e : Engine) : Prop where
  functions_eq : e'.functions = e.functions
  externals_eq : e'.externals = e.externals
  spelling_eq : e'.spelling = e.spelling
  optimizes_eq : e'.optimizes = e.optimizes

namespace SameSettings

variable {e e' e'' : Engine}

theorem refl (e : Engine) : SameSettings e e := ⟨rfl, rfl, rfl, rfl⟩

theorem trans (h' : SameSettings e'' e') (h : SameSettings e' e) : SameSettings e'' e :=
  ⟨h'.functions_eq.trans h.functions_eq, h'.externals_eq.trans h.externals_eq,
    h'.spelling_eq.trans h.spelling_eq, h'.optimizes_eq.trans h.optimizes_eq⟩

theorem hasSteadyFunctions_iff (h : SameSettings e' e) :
    e'.HasSteadyFunctions ↔ e.HasSteadyFunctions := by
  rw [HasSteadyFunctions, HasSteadyFunctions, h.functions_eq]

theorem namesIn_eq (h : SameSettings e' e) (text : String) : e'.namesIn text = e.namesIn text := by
  rw [namesIn, namesIn, h.spelling_eq]

/-- With the same functions, objects from outside and settings, a text that can be read is read as
before if and only if all names that are looked up mean the same as before. -/
theorem reads_eq_iff (h : SameSettings e' e) (he : e.HasSteadyFunctions) {text : String} {t : Expr}
    (ht : e.reads text = .ok t) : e'.reads text = .ok t ↔
      ∀ s ∈ e.namesIn text, e'.names.meaning s = e.names.meaning s := by
  obtain ⟨u, hu, hrefs⟩ := exists_parsed he ht
  constructor
  · intro ht'
    obtain ⟨u', hu', hrefs'⟩ := exists_parsed (h.hasSteadyFunctions_iff.mpr he) ht'
    rw [parsed, h.spelling_eq] at hu'
    refine Parse.meaning_eq_of_parseSource hu hu' (hrefs'.symm.trans hrefs) ?_ h.externals_eq
    show e'.functions.get? = e.functions.get?
    rw [h.functions_eq]
  · intro hnames
    rw [← ht]
    refine reads_eq_of_parsed_eq he ?_ h.optimizes_eq
    rw [hu, parsed, h.spelling_eq]
    exact Parse.parseSource_of_meanings hu hnames

end SameSettings

/-! ## Reading by names -/

/-- Whether two engines with the same settings for reading have variables of the same names, and
have data or not, and skip the same names.  The values of the variables and the data themselves may
be others, and so may anything else that an engine has. -/
structure SameNames (e' e : Engine) : Prop where
  settings : SameSettings e' e
  contains_eq : ∀ name, e'.vars.contains name = e.vars.contains name
  isSome_eq : e'.context.isSome = e.context.isSome
  skipped_eq : e'.options.skipped = e.options.skipped

/-- Engines with the same names take each name for the same. -/
theorem SameNames.names_eq {e e' : Engine} (h : SameNames e' e) : e'.names = e.names := by
  have hvars : e'.vars.contains = e.vars.contains := funext h.contains_eq
  have hstarts : ∀ name, (e'.context.isSome && !e'.options.isSkipped name) =
      (e.context.isSome && !e.options.isSkipped name) := by
    intro name
    rw [h.isSome_eq, Options.isSkipped, Options.isSkipped, h.skipped_eq]
  rw [names, names, h.settings.functions_eq, h.settings.externals_eq, hvars, funext hstarts]

/-- Reading depends on names and never on data: engines with built-in functions for which the same
names stand for something read every text as the same tree or fail with the same error, and neither
is changed by it. -/
theorem parse_eq_of_sameNames (e e' : Engine)
    (hfunctions : ∀ f ∈ e.functions.values, ∃ b : Builtin, f = b.definition)
    (h : SameNames e' e) (text : String) :
    ∃ r, (parse text).run.run e = (r, e) ∧ (parse text).run.run e' = (r, e') := by
  have hsteady := hasSteadyFunctions_of_builtins hfunctions
  have hparsed : e'.parsed text = e.parsed text := by
    rw [parsed, parsed, h.names_eq, h.settings.spelling_eq]
  have hreads := reads_eq_of_parsed_eq hsteady hparsed h.settings.optimizes_eq
  have hsteady' := h.settings.hasSteadyFunctions_iff.mpr hsteady
  refine ⟨e.reads text, run_parse_eq hsteady text, ?_⟩
  rw [run_parse_eq hsteady' text, hreads]

/-- An engine with a number for the variable `rate` and a text as data. -/
def withNumber : Engine :=
  { vars := ({} : NameMap Value).insert "rate" (.number 2), context := some (.text "Bob") }

/-- An engine with a text for that variable, other data and a trace, but no cache. -/
def withText : Engine :=
  { vars := ({} : NameMap Value).insert "RATE" (.text "two"), context := some (.array []),
    options := { trimStart := [' '] }, cache := none, lastTrace := some ⟨"1", []⟩ }

/-- Engines in which `rate` has different values read `rate * Name` the same. -/
theorem parse_eq_of_sameNames_rate : withNumber.vars.get? "rate" ≠ withText.vars.get? "rate" ∧
    ∃ r, (parse "rate * Name").run.run withNumber = (r, withNumber) ∧
      (parse "rate * Name").run.run withText = (r, withText) := by
  refine ⟨(fun h => nomatch h), ?_⟩
  refine parse_eq_of_sameNames withNumber withText (exists_builtin_of_eq rfl)
    ⟨⟨rfl, rfl, rfl, rfl⟩, fun name => ?_, rfl, rfl⟩ _
  show (List.lookup (Text.lowercase name) [("rate", _)]).isSome =
    (List.lookup (Text.lowercase name) [("rate", _)]).isSome
  rw [List.lookup_cons, List.lookup_cons]
  split <;> rfl

end Formula.Engine
