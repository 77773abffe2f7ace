import Formula.Proofs.Engine.Tracing
import Formula.Proofs.Evaluation.Respelled
import Formula.Proofs.Parse.Respelled

/-!
# The case of names is unseen

Texts whose tokens are the same but for the case of the ASCII letters in their names mean the same:
either both are formulas or neither, and as formulas they give the same value in every mode, or
errors of the same variant (`spelling_unseen`).  Objects from outside have exact names, so this asks
of them what it shows of functions, variables and members.
-/

namespace Formula.Engine

variable {e : Engine} {text text' : String}

/-! ## Names -/

/-- Whether objects from outside have the same names in upper and lower case, as it is where there
are none. -/
def ExternalsIgnoreCase (e : Engine) : Prop :=
  ∀ s s' : String, s'.toLower = s.toLower → e.externals s' = e.externals s

/-- Functions, variables and skipped names are found in any case, and so are objects from outside
where the host finds them so. -/
theorem ignoresCase_names (hexternals : e.ExternalsIgnoreCase) : e.names.IgnoresCase := by
  intro s s' h
  have hsame := Text.equalIgnoringAsciiCase_iff_toLower.mpr h
  have hfunction : e.names.function? s' = e.names.function? s :=
    NameMap.get?_congr hsame e.functions
  have hvar : e.names.isVariable s' = e.names.isVariable s :=
    congrArg Option.isSome (NameMap.get?_congr hsame e.vars)
  have hexternal : e.names.external? s' = e.names.external? s := hexternals s s' h
  have hstarts : e.names.startsPath s' = e.names.startsPath s := by
    show (e.context.isSome && !e.options.isSkipped s') =
      (e.context.isSome && !e.options.isSkipped s)
    rw [Options.isSkipped_congr hsame]
  rw [Names.meaning, Names.meaning, hfunction, hvar, hexternal, hstarts]

/-! ## Reading -/

/-- Whether two texts have the same tokens but for the case of the ASCII letters in names, wherever
the tokens stand. -/
def SameTokens (e : Engine) (text text' : String) : Prop :=
  lowerLexemes (scan e.spelling (stripComments text.toList)).tokens =
    lowerLexemes (scan e.spelling (stripComments text'.toList)).tokens

/-- What a text is read as, another with the same tokens is read as in another spelling. -/
theorem exists_reads_respells (hnames : e.names.IgnoresCase) (h : e.SameTokens text text')
    {t : Expr} (ht : e.reads text = .ok t) : ∃ t', e.reads text' = .ok t' ∧ t.Respells t' := by
  obtain ⟨u, hu, rfl⟩ := exists_parsed_of_reads ht
  obtain ⟨u', hu', hrespells⟩ := Parse.exists_parseSource_respells hnames hu h.symm
  refine ⟨e.folded u', reads_of_parsed hu', ?_⟩
  -- Either both are folded or neither.
  unfold folded
  split
  · exact (hrespells.symm.fold e.scope e.host).1
  · exact hrespells.symm

/-! ## Evaluating -/

/-- What a text gives that no tree is kept of is what it is read as gives. -/
theorem result_evaluateIn_of_read (he : e.HasSteadyFunctions) {t : Expr} {o : EvaluateOptions}
    (mode : Mode) (hnone : o.useCache = true → e.kept? text = none) (ht : e.reads text = .ok t) :
    ((evaluateIn mode text o).run.run e).1 =
      (t.evaluate.exec ⟨e.scope, mode, o.trace, o.token⟩ { host := e.host }).1 := by
  rw [run_evaluateIn, run_treeOf_of_none he hnone, ht]
  cases o.useCache <;> rfl

/-- The case of names is unseen by engines with built-in functions and no objects from outside, or
such as ignore it too.  Of two texts whose tokens are the same but for the case of names both are
read or neither.  If they are, they give the same value in every mode, or errors of the same
variant, which for paths includes the kind of the problem; and so do the trees that they are read
as.  Trees that were kept before may stand for what their texts meant then. -/
theorem spelling_unseen (e : Engine)
    (hfunctions : ∀ f ∈ e.functions.values, ∃ b : Builtin, f = b.definition)
    (hexternals : e.ExternalsIgnoreCase) (text text' : String) (h : e.SameTokens text text') :
    (e.reads text').isOk = (e.reads text).isOk ∧
    ∀ t t', e.reads text = .ok t → e.reads text' = .ok t' → ∀ (mode : Mode) (o : EvaluateOptions),
      ((run { expr := t' } o mode).run e).1.1.mapError CalcError.variant =
        ((run { expr := t } o mode).run e).1.1.mapError CalcError.variant ∧
      ((o.useCache = true → e.kept? text = none ∧ e.kept? text' = none) →
        ((evaluateIn mode text' o).run.run e).1.mapError CalcError.variant =
          ((evaluateIn mode text o).run.run e).1.mapError CalcError.variant) := by
  have hnames := ignoresCase_names hexternals
  have hsteady := hasSteadyFunctions_of_builtins hfunctions
  refine ⟨?_, fun t t' ht ht' mode o => ?_⟩
  · -- If one of them is read, so is the other.
    cases hreads : e.reads text with
    | ok t =>
      obtain ⟨t', ht', -⟩ := exists_reads_respells hnames h hreads
      rw [ht']
      rfl
    | error error =>
      cases hreads' : e.reads text' with
      | ok t' =>
        obtain ⟨t, ht, -⟩ := exists_reads_respells hnames h.symm hreads'
        rw [hreads] at ht
        cases ht
      | error error' => rfl
  · obtain ⟨u, hu, hrespells⟩ := exists_reads_respells hnames h ht
    rw [ht'] at hu
    cases hu
    have hcalls := callsOnlyBuiltins_of_resolvedBy hfunctions (resolvedBy_of_reads ht)
    have hsame := Expr.mapError_exec_of_respells ⟨e.scope, mode, o.trace, o.token⟩ hrespells hcalls
      { host := e.host }
    refine ⟨hsame.symm, fun hkept => ?_⟩
    rw [result_evaluateIn_of_read hsteady mode (fun hcached => (hkept hcached).1) ht,
      result_evaluateIn_of_read hsteady mode (fun hcached => (hkept hcached).2) ht']
    exact hsame.symm

/-! ## A name in another spelling -/

/-- `Name` and `nAME` have the same token. -/
theorem sameTokens_name : (after [.setContext ann]).SameTokens "Name" "nAME" := by
  have hstrip : stripComments "nAME".toList = ['n', 'A', 'M', 'E'] := by
    show stripComments ['n', 'A', 'M', 'E'] = ['n', 'A', 'M', 'E']
    simp [stripComments]
  have hscan : scan .plain ['n', 'A', 'M', 'E'] =
      ⟨[⟨.name "nAME", 0, 4⟩, ⟨.finish, 4, 4⟩], none⟩ :=
    scan_name (by decide +kernel) rfl (forall_mem_of_all (by decide +kernel))
  have hsame : "Name".toLower = "nAME".toLower :=
    Text.equalIgnoringAsciiCase_iff_toLower.mp (by decide)
  obtain ⟨stop, hscanName⟩ := tokenizes_name
  rw [SameTokens, stripComments_name, hstrip,
    show (after [.setContext ann]).spelling = .plain from rfl, hscanName, hscan]
  show [Lexeme.name "Name".toLower, .finish] = [Lexeme.name "nAME".toLower, .finish]
  rw [hsame]

/-- The name of the person is found under another spelling. -/
theorem spelling_unseen_name :
    (∀ f ∈ (after [.setContext ann]).functions.values, ∃ b : Builtin, f = b.definition) ∧
    (after [.setContext ann]).ExternalsIgnoreCase ∧
    (after [.setContext ann]).SameTokens "Name" "nAME" ∧
    ((evaluate "nAME").run.run (after [.setContext ann])).1 = .ok (.text "Ann") := by
  have hfunctions : ∀ f ∈ (after [.setContext ann]).functions.values,
      ∃ b : Builtin, f = b.definition := exists_builtin_of_eq rfl
  have hexternals : (after [.setContext ann]).ExternalsIgnoreCase := fun _ _ _ => rfl
  refine ⟨hfunctions, hexternals, sameTokens_name, ?_⟩
  obtain ⟨-, hevaluates⟩ := spelling_unseen _ hfunctions hexternals _ _ sameTokens_name
  obtain ⟨t', ht', -⟩ :=
    exists_reads_respells (ignoresCase_names hexternals) sameTokens_name reads_namePath
  have hsame := (hevaluates _ _ reads_namePath ht' .strict {}).2 nofun
  have hvalue : ((evaluateIn .strict "Name" {}).run.run (after [.setContext ann])).1 =
      .ok (.text "Ann") := by
    have hsteady := hasSteadyFunctions_of_builtins hfunctions
    refine (result_evaluateIn_of_read hsteady .strict ?_ reads_namePath).trans rfl
    exact nofun
  rw [hvalue] at hsame
  show ((evaluateIn .strict "nAME" {}).run.run (after [.setContext ann])).1 = _
  revert hsame
  cases ((evaluateIn .strict "nAME" {}).run.run (after [.setContext ann])).1 with
  | ok v => exact fun hsame => congrArg Except.ok (Except.ok.inj hsame)
  | error error =>
    intro hsame
    cases hsame

end Formula.Engine
