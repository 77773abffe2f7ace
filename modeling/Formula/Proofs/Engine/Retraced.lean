import Formula.Proofs.Engine.Tracing
import Formula.Proofs.Expr.RoundTrip
import Formula.Proofs.Parse.Reprinted

/-!
# Traces as formulas

The formula that a trace shows can be read and evaluated again, since its annotations are comments.
It gives the value that it shows (`evaluate_trace`), unless something in the trace is taken for
something else: a single quote in a text, which is read as a double one; a date, an array, a decimal
or an absent value among the literals, which are written like something else; the start of a comment
in the formula, or the end of one in a value.
-/

namespace Formula

/-- Whether nothing that a trace shows is taken for something else when the trace is read. -/
structure Trace.IsPlain (e : Expr) (recorded : Recorded) (result : Value) : Prop where
  literals : ∀ v, .literal v ∈ e.shown → v.Retraces
  formula : ¬ ['/', '*'] <:+: (annotated [] e).toList
  values : ∀ v ∈ result :: shownValues recorded e, FitsComment v

namespace Engine

variable {e : Engine} {text : String} {t u : Expr} {good : Value → Prop}

/-! ## Reading traces -/

/-- What a text stands for is read as something with the same values. -/
theorem exists_reads (h : e.parsed text = .ok u) :
    ∃ t, e.reads text = .ok t ∧ u.KeepsMeaning t := by
  exact ⟨_, reads_of_parsed h, folded_cases (.refl u) (u.keepsMeaning_fold e.scope e.host)⟩

/-- A trace stands for what its formula without comments is, in brackets or not. -/
theorem parsed_render_of_prints (hclear : e.spelling.Clear) {recorded : Recorded} {v : Value}
    (hformula : ¬ ['/', '*'] <:+: (Trace.annotated [] t).toList)
    (hvalues : ∀ w ∈ v :: Trace.shownValues recorded t, Trace.FitsComment w) {n : Nat}
    (h : Parse.Prints e.spelling e.names (Trace.annotated [] t).toList (.upTo u.looseness u) 0 n) :
    e.parsed (Trace.render t recorded v) = .ok u := by
  rw [parsed]
  rcases Trace.stripComments_render hformula hvalues with hstrip | hstrip
  · rw [hstrip]
    exact Parse.parseSource_of_prints hclear.culture h u.looseness_le
  · have hbrackets := ((h.loosen u.looseness_le).inBrackets hclear).unsigned
    rw [hstrip]
    exact Parse.parseSource_of_prints hclear.culture hbrackets (Nat.zero_le 5)

/-- Built-in functions go by their names in engines that have no others. -/
theorem namesBuiltins (hclear : e.spelling.Clear) (hfunctions : e.functions = .builtin) :
    Parse.NamesBuiltins e.spelling e.names := by
  intro b hb
  have hget : e.functions.get? b.name = some b.definition := by
    rw [hfunctions]
    exact Registry.get?_builtin hb
  have hvalue : b.definition ∈ Registry.builtin.values := by
    rw [← hfunctions]
    exact List.mem_map_of_mem (f := Prod.snd) (Registry.mem_entries_of_get? hget)
  exact ⟨reads_of_isAsciiIdentifier hclear.culture (Registry.isAsciiIdentifier_builtin _ hvalue),
    hget⟩

section
variable (hclear : e.spelling.Clear) (hfunctions : e.functions = .builtin) {run : Run}
  (hgood : HandleContract good) (hrun : run.token = none)
  (hroot : ∀ root, run.scope.context = some root → good root)
include hclear hfunctions hgood hrun hroot

/-- What a trace prints for the nodes of what was read is read as such nodes. -/
theorem readsAgain_of_reads (hparsed : e.parsed text = .ok u) (hreads : e.reads text = .ok t)
    (hliterals : ∀ v, .literal v ∈ t.shown → v.Retraces) :
    ∀ node ∈ t.shown, Parse.ReadsAgain e.spelling e.names good u.stepName run node := by
  obtain ⟨u', hu', hkept⟩ := exists_parsed_pathsKept hreads
  cases hparsed.symm.trans hu'
  obtain ⟨u', hu', hheads⟩ := exists_parsed_sublist hreads
  cases hparsed.symm.trans hu'
  have hbuilt := exists_builtin_of_eq hfunctions
  have hresolved := resolvedBy_of_reads hreads
  intro node hshown
  have hmem := Expr.mem_nodes_of_mem_shown hshown
  cases node with
  | literal v => exact hliterals v hshown
  | call id f args =>
    obtain ⟨⟨s, hf⟩, harity⟩ := hresolved _ (Expr.mem_headsOf hmem rfl)
    have hvalue := mem_functions_of_resolvedBy hresolved hmem
    refine ⟨reads_of_isAsciiIdentifier hclear.culture ?_, ?_, harity, hbuilt f hvalue⟩
    · rw [hfunctions] at hvalue
      exact Registry.isAsciiIdentifier_builtin f hvalue
    · have hget : e.functions.get? s = some f := hf
      show e.functions.get? f.name = some f
      rw [hfunctions] at hget ⊢
      exact Registry.Built.builtin.get?_name hget
  | var id name index =>
    obtain ⟨node, hnode, hhead⟩ := List.mem_filterMap.mp (hheads.subset (Expr.mem_headsOf hmem rfl))
    cases node with
    | var id' name' index' =>
      cases hhead
      exact Parse.reads_var hparsed hnode
    | _ => cases hhead
  | path id steps written =>
    obtain ⟨steps₀, hpath, hkeeps⟩ := hkept id steps written hmem
    exact Parse.reprints_path hgood hrun hroot hparsed
      (callsOnlyBuiltins_of_resolvedBy hbuilt (resolvedBy_of_parsed hparsed))
      (Expr.stepsNamed_stepName (nodup_ids_of_parsed hparsed)) hpath hkeeps
  | _ => trivial

/-- The formula of a plain trace stands for something that restates what was evaluated. -/
theorem exists_parsed_render (hparsed : e.parsed text = .ok u) (hreads : e.reads text = .ok t)
    {recorded : Recorded} {v : Value} (hplain : Trace.IsPlain t recorded v) :
    ∃ u', e.parsed (Trace.render t recorded v) = .ok u' ∧ t.Restates good u.stepName run u' := by
  have hagain :=
    readsAgain_of_reads hclear hfunctions hgood hrun hroot hparsed hreads hplain.literals
  obtain ⟨u', n, hprints, -, hrestates⟩ := Parse.reprints_annotated hclear hrun
    (namesBuiltins hclear hfunctions) hagain 0
  exact ⟨u', parsed_render_of_prints hclear hplain.formula hplain.values hprints, hrestates⟩

end

/-- A formula that is a text is shown in single quotes, and is read again with double quotes for the
single quotes in it: another text, if there are any. -/
theorem parsed_render_text (hclear : e.spelling.Clear) (content : String)
    (hformula : ¬ ['/', '*'] <:+: (Trace.annotated [] (.literal (.text content))).toList)
    (hvalue : Trace.FitsComment (.text content)) :
    e.parsed (Trace.render (.literal (.text content)) [] (.text content)) =
      .ok (.literal (.text (String.ofList (requoted '\'' content.toList)))) := by
  have hprints := @Parse.prints_text e.spelling e.names Trace.style '\'' hclear rfl
    (.inr rfl) content 0
  exact parsed_render_of_prints hclear hformula (List.forall_mem_singleton.mpr hvalue) hprints

/-! ## Evaluating traces -/

/-- An evaluation of a text that is taken as an expression leaves the trace of the expression, and
changes the world of the host and the cache besides. -/
theorem exists_trace_of_evaluate (hgood : HandleContract good) (hsteady : e.HasSteadyFunctions)
    (hkept : e.KeepsUsed good) {o : EvaluateOptions} (hstrict : o.strict = true)
    (htraced : o.trace = true) (hserved : e.served text o.useCache = .ok t) {v : Value}
    {e' : Engine} (hrun : (evaluate text o).run.run e = (.ok v, e')) :
    ∃ s : EvalState,
      t.evaluate.exec ⟨e.scope, .strict, true, o.token⟩ ⟨[], [], e.host⟩ = (.ok v, s) ∧
      ∃ cache, e' = { e with
        host := s.host, lastTrace := some (Trace.ofRun t s.recorded v), cache } := by
  have hsound : Sound good e :=
    ⟨hsteady, hkept.context_good, fun text tree h => (hkept.kept_used text tree h).isValid hgood⟩
  obtain ⟨cache, -, hevaluate⟩ := @exists_evaluateIn _ _ text o .strict hgood hsound
  rcases hexec : t.evaluate.exec ⟨e.scope, .strict, true, o.token⟩ ⟨[], [], e.host⟩ with ⟨r, s⟩
  have hfresh : (run { expr := t } o .strict).run e = ((r, { expr := t, memo := s.memo }),
      { e with host := s.host, lastTrace := e.traceAfter t o r s.recorded }) :=
    run_run (by rw [htraced]; exact hexec)
  have hmode : o.mode = .strict := if_pos hstrict
  rw [hserved, evaluated, hfresh] at hevaluate
  rw [evaluate, hmode, hevaluate] at hrun
  obtain ⟨rfl, rfl⟩ := Prod.mk.inj hrun
  refine ⟨s, rfl, cache, ?_⟩
  rw [traceAfter, if_pos htraced]

/-- A text that is read and not taken from the cache is evaluated as what it is read as. -/
theorem evaluate_of_reads (hsteady : e.HasSteadyFunctions) (hreads : e.reads text = .ok t)
    {o : EvaluateOptions} (hstrict : o.strict = true) (htoken : o.token = none)
    (hcached : o.useCache = false) : ((evaluate text o).run.run e).1 =
      (t.evaluate.exec ⟨e.scope, .strict, o.trace, none⟩ ⟨[], [], e.host⟩).1 := by
  have hmode : o.mode = .strict := if_pos hstrict
  rw [evaluate, hmode, evaluateIn_of_read o .strict hsteady (by rw [hcached]; nofun) hreads
    (by rw [hcached]; rfl), ← htoken]
  rfl

/-- The trace of an evaluation in strict mode is read and evaluated to the same value again, on the
engine as it is after the evaluation, if nothing in the trace is taken for something else. -/
theorem evaluate_trace (hgood : HandleContract good) (e : Engine) (hclear : e.spelling.Clear)
    (hfunctions : e.functions = .builtin) (hkept : e.KeepsUsed good) (text : String)
    (o : EvaluateOptions) (hstrict : o.strict = true) (htraced : o.trace = true) (t : Expr)
    (hreads : e.reads text = .ok t) (hserved : e.served text o.useCache = .ok t) (v : Value)
    (e' : Engine) (hrun : (evaluate text o).run.run e = (.ok v, e'))
    (hplain : Trace.IsPlain t
      (t.evaluate.exec ⟨e.scope, .strict, true, o.token⟩ ⟨[], [], e.host⟩).2.recorded v) :
    ∃ trace t', e'.lastTrace = some trace ∧
      (parse trace.expression).run.run e' = (.ok t', e') ∧
      ∀ o' : EvaluateOptions, o'.strict = true → o'.token = none → o'.useCache = false →
        ((evaluate trace.expression o').run.run e').1 = .ok v := by
  have hbuilt := exists_builtin_of_eq hfunctions
  have hsteady := hasSteadyFunctions_of_builtins hbuilt
  obtain ⟨s, hexec, cache, rfl⟩ :=
    exists_trace_of_evaluate hgood hsteady hkept hstrict htraced hserved hrun
  rw [hexec] at hplain
  let e' : Engine := { e with
    host := s.host, lastTrace := some (Trace.ofRun t s.recorded v), cache }
  have hsteady' : e'.HasSteadyFunctions := hsteady
  obtain ⟨u, hparsed, hheads⟩ := exists_parsed_sublist hreads
  -- What the trace stands for restates what was evaluated, in a run that may be traced or not.
  let alone : Bool → Run := fun traced => ⟨e.scope, .strict, traced, none⟩
  have hagain : ∀ traced, ∃ u', e'.parsed (Trace.render t s.recorded v) = .ok u' ∧
      t.Restates good u.stepName (alone traced) u' := fun traced =>
    @exists_parsed_render e text t u good hclear hfunctions (alone traced) hgood rfl
      (fun root => hkept.context_good root) hparsed hreads s.recorded v hplain
  obtain ⟨u', hu', -⟩ := hagain true
  obtain ⟨t', ht', hkeeps⟩ := exists_reads hu'
  refine ⟨_, t', rfl, ?_, fun o' hstrict' htoken hcached => ?_⟩
  · rw [← ht']
    exact run_parse_eq hsteady' _
  -- What was evaluated, what the trace stands for, and what it is read as have the same value.
  obtain ⟨u'', hu'', hrestates⟩ := hagain o'.trace
  cases hu'.symm.trans hu''
  have hnamed := Expr.stepsNamed_stepName (nodup_ids_of_parsed hparsed)
  have hnil : ∀ names, Memo.IsValid good names [] := fun _ => .nil
  have hcalls := callsOnlyBuiltins_of_resolvedBy hbuilt (resolvedBy_of_reads hreads)
  have hcalls' := @callsOnlyBuiltins_of_resolvedBy e' u' hbuilt (resolvedBy_of_parsed hu')
  have hvalue : (t.evaluate.exec (alone o'.trace) ⟨[], [], e.host⟩).1 = .ok v :=
    Expr.yields_of_exec hgood (fun root => hkept.context_good root) (.refl t) hcalls
      (hnamed.of_sublist hheads) (hnil _) (.refl e.host) hexec (alone o'.trace) u.stepName [] []
      ⟨rfl, rfl, .inl rfl⟩ (hnamed.of_sublist hheads) (hnil _)
  have hvalue' : (u'.evaluate.exec (alone o'.trace) ⟨[], [], s.host⟩).1 = .ok v :=
    hrestates.exec_eq_ok rfl (Expr.stepsNamed_stepName (nodup_ids_of_parsed hu')) (hnil _) (hnil _)
      hvalue
  have hfolded : (t'.evaluate.exec (alone o'.trace) ⟨[], [], s.host⟩).1 = .ok v :=
    (hkeeps.exec_eq_ok_iff hcalls' rfl _ v).mpr hvalue'
  exact (evaluate_of_reads hsteady' ht' hstrict' htoken hcached).trans hfolded

/-! ## A formula on a person -/

/-- The formula `Name + "!"`. -/
def exclaimed : Expr :=
  .binary (.arithmetic .add) namePath (.literal (.text "!"))

/-- The text `Name + "!"` is a name, an operator and a text. -/
theorem tokenizes_exclaimed : Parse.Tokenizes .plain "Name + \"!\"".toList
    [nameToken, ⟨.operator (.arithmetic .add) "+", 5, 6⟩, ⟨.literal (.text "!"), 7, 10⟩] := by
  have hname : lexemeFrom .plain 'N' "ame + \"!\"".toList = .ok ⟨.name "Name", 4⟩ :=
    @lexemeFrom_name 'N' (by decide +kernel) .plain rfl ['a', 'm', 'e'] " + \"!\"".toList
      (forall_mem_of_all (by decide +kernel)) (.cons (Spelling.clear_plain.setsOff (by decide)))
  have hfirst : scan .plain "Name + \"!\"".toList =
      (scanFrom .plain false 4 " + \"!\"".toList).prepend [nameToken] :=
    @scanFrom_ok .plain ⟨.name "Name", 4⟩ false 0 [] "ame + \"!\"".toList 'N' (by simp) rfl hname
  have hplus : scanFrom .plain false 4 " + \"!\"".toList =
      (scanFrom .plain false 6 " \"!\"".toList).prepend
        [⟨.operator (.arithmetic .add) "+", 5, 6⟩] :=
    @scanFrom_ok .plain ⟨.operator (.arithmetic .add) "+", 1⟩ false 4 [' '] " \"!\"".toList '+'
      (forall_mem_of_all rfl) rfl rfl
  have htext : scanFrom .plain false 6 " \"!\"".toList =
      (scanFrom .plain true 10 []).prepend [⟨.literal (.text "!"), 7, 10⟩] :=
    @scanFrom_ok .plain ⟨.literal (.text "!"), 3⟩ false 6 [' '] "!\"".toList '"'
      (forall_mem_of_all rfl) rfl rfl
  rw [Parse.Tokenizes, hfirst, hplus, htext, scanFrom_nil]
  exact ⟨10, rfl⟩

/-- With data and no variable of that name it is read as the sum of a path and a literal. -/
theorem reads_exclaimed : (after [.setContext ann]).reads "Name + \"!\"" = .ok exclaimed := by
  have hstrip : stripComments "Name + \"!\"".toList = "Name + \"!\"".toList := by
    show stripComments ['N', 'a', 'm', 'e', ' ', '+', ' ', '"', '!', '"'] = _
    simp [stripComments]
  have hpath : Parse.Derives (after [.setContext ann]).names "Name + \"!\"".toList
      (.atom (.path 0 [⟨"Name", false, []⟩]
        (Parse.pathText "Name + \"!\"".toList nameToken []))) 0 [nameToken] 1 :=
    .path rfl function?_name rfl rfl rfl (.lastStep .noList)
  have hsum : Parse.Derives (after [.setContext ann]).names "Name + \"!\"".toList
      (.upTo 3 exclaimed) 0 ([nameToken] ++ ⟨.operator (.arithmetic .add) "+", 5, 6⟩ ::
        [⟨.literal (.text "!"), 7, 10⟩]) 1 :=
    .joined (Parse.Derives.loosen (.unsigned hpath) (by decide)) rfl rfl
      (Parse.Derives.loosen (.unsigned (.literal rfl)) (by decide))
  have hparsed : (after [.setContext ann]).parsed "Name + \"!\"" = .ok exclaimed := by
    rw [parsed, hstrip]
    exact Parse.parseSource_of_derives tokenizes_exclaimed (hsum.loosen (by decide))
  exact reads_of_parsed hparsed

/-- The formula is shown with the name and the whole in comments and another sort of quotes; read
again, it gives the same. -/
theorem evaluate_trace_exclaimed : ∃ e',
    (evaluate "Name + \"!\"").run.run (after [.setContext ann]) = (.ok (.text "Ann!"), e') ∧
      e'.lastTrace.map (·.expression) =
        some "(Name/*\x7bAnn\x7d*/ + '!')/*\x7bAnn!\x7d*/" ∧
      ((evaluate "(Name/*\x7bAnn\x7d*/ + '!')/*\x7bAnn!\x7d*/").run.run e').1 =
        .ok (.text "Ann!") := by
  have hsteady : (after [.setContext ann]).HasSteadyFunctions :=
    (sound_start fun _ => True).hasSteadyFunctions
  have hkept : (after [.setContext ann]).KeepsUsed Value.HostFree := by
    refine .of_kept_eq_none ?_ fun _ => rfl
    rintro _ ⟨⟩
    exact hostFree_ann
  have hserved : (after [.setContext ann]).served "Name + \"!\"" false = .ok exclaimed :=
    (served_of_none hsteady fun h => absurd h Bool.false_ne_true).trans reads_exclaimed
  have hplain : Trace.IsPlain exclaimed [(0, .text "Ann")] (.text "Ann!") := by
    have hwritten : Trace.annotated [] exclaimed = "Name + '!'" := by rfl
    refine ⟨fun v hv => ?_, ?_, ?_⟩
    · obtain rfl : v = .text "!" := by simpa [exclaimed, namePath, Expr.shown] using hv
      show '\'' ∉ ['!']
      decide
    · rw [hwritten]
      simp [List.infix_cons_iff]
    · have hvalues : ∀ v ∈ [Value.text "Ann!", .text "Ann"], Trace.FitsComment v := by
        refine List.forall_mem_cons.mpr ⟨?_, List.forall_mem_singleton.mpr ?_⟩
        · show ¬ ['*', '/'] <:+: "Ann!".toList
          decide
        · show ¬ ['*', '/'] <:+: "Ann".toList
          decide
      exact hvalues
  have hshown : (Trace.ofRun exclaimed [(0, .text "Ann")] (.text "Ann!")).expression =
      "(Name/*\x7bAnn\x7d*/ + '!')/*\x7bAnn!\x7d*/" := by rfl
  have hrun := @evaluateIn_of_read _ "Name + \"!\"" {} .strict _ _ _ _ hsteady (fun _ => rfl)
    reads_exclaimed rfl
  obtain ⟨trace, t', htrace, -, hvalue⟩ := evaluate_trace Value.HostFree.handleContract
    (after [.setContext ann]) Spelling.clear_plain rfl hkept "Name + \"!\"" {} rfl rfl exclaimed
    reads_exclaimed hserved (.text "Ann!") _ hrun hplain
  obtain rfl : Trace.ofRun exclaimed [(0, .text "Ann")] (.text "Ann!") = trace :=
    Option.some.inj htrace
  have hagain := hvalue {} rfl rfl rfl
  rw [hshown] at hagain
  exact ⟨_, hrun, congrArg some hshown, hagain⟩

end Engine

end Formula
