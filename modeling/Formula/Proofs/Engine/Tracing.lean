import Formula.Proofs.Engine.Bindings
import Formula.Proofs.Engine.Handles
import Formula.Proofs.Engine.Resolved
import Formula.Proofs.Evaluation.Afresh
import Formula.Proofs.Parse.PathText

/-!
# What a trace shows

Every value that an evaluation records for a node is the value of that node on its own, and so what
a trace lists for a path is the value of the path, wherever else the path stands in the formula
(`recorded_alone`).
-/

namespace Formula

/-! ## Listed values -/

namespace Trace

variable {k : String} {v : Value}

/-- What is listed was recorded for a variable or a path with that text. -/
theorem exists_of_mem_collect {e : Expr} {recorded : Recorded} (h : (k, v) ∈ collect e recorded) :
    ∃ node ∈ e.nodes, ∃ id, keyOf? node = some (k, id) ∧ recorded.lookup id = some v := by
  have hall : ∀ (nodes : List Expr) (bindings : List (String × Value)),
      (k, v) ∈ nodes.foldl (putNode recorded) bindings → (k, v) ∈ bindings ∨
        ∃ node ∈ nodes, ∃ id, keyOf? node = some (k, id) ∧ recorded.lookup id = some v := by
    intro nodes
    induction nodes with
    | nil => exact fun _ h => .inl h
    | cons node nodes ih =>
      intro bindings h
      rcases ih _ h with h | ⟨node', hmem, hfound⟩
      · rw [putNode] at h
        split at h
        · next key id hkey =>
          split at h
          · next v' hlookup =>
            rcases mem_of_mem_put h with ⟨rfl, rfl⟩ | h
            · exact .inr ⟨node, List.mem_cons_self, id, hkey, hlookup⟩
            · exact .inl h
          · exact .inl h
        · exact .inl h
      · exact .inr ⟨node', List.mem_cons_of_mem _ hmem, hfound⟩
  exact (hall e.nodes [] h).resolve_left (List.not_mem_nil)

end Trace

namespace Engine

variable {e : Engine} {t : Expr}

theorem callsOnlyBuiltins_of_resolvedBy
    (hfunctions : ∀ f ∈ e.functions.values, ∃ b : Builtin, f = b.definition)
    (h : t.ResolvedBy e.names) : t.CallsOnlyBuiltins :=
  fun _ f _ hcall => hfunctions f (mem_functions_of_resolvedBy h hcall)

/-- The paths of what is read are paths that the text names, and keep their meaning. -/
theorem exists_parsed_pathsKept {text : String} (h : e.reads text = .ok t) :
    ∃ u, e.parsed text = .ok u ∧ Expr.PathsKept u.nodes t.nodes := by
  obtain ⟨u, hu, rfl⟩ := exists_parsed_of_reads h
  let kept : Expr → Prop := fun t => Expr.PathsKept u.nodes t.nodes
  exact ⟨u, hu, folded_cases (motive := kept) (.refl _) (u.pathsKept_fold e.scope e.host)⟩

/-! ## Nodes on their own -/

/-- Whether a node of a tree has a value when it is evaluated alone, whatever handles the tree
remembers, with some token or with none. -/
def YieldsAlone (e : Engine) (mode : Mode) (token : Option Nat) (t node : Expr) (v : Value) :
    Prop :=
  ∀ memo (o : EvaluateOptions), Tree.Used Value.HostFree ⟨t, memo⟩ →
    o.token = none ∨ o.token = token → ((run ⟨node, memo⟩ o mode).run e).1.1 = .ok v

/-- What a node yields on its own in any run that mirrors a run, it yields when it is evaluated
alone. -/
theorem yieldsAlone_of_yields {mode : Mode} {traced : Bool} {token : Option Nat} {node : Expr}
    {v : Value} (hmem : node ∈ t.nodes)
    (h : node.Yields Value.HostFree ⟨e.scope, mode, traced, token⟩ e.host v) :
    e.YieldsAlone mode token t node v := by
  intro memo o hused htoken
  obtain ⟨names, hnamed, hmemo⟩ := hused.isValid Value.HostFree.handleContract
  rw [run_result]
  exact h _ names memo [] ⟨rfl, rfl, htoken⟩ (hnamed.part hmem) hmemo

section
variable {reader : Engine}
  (hfunctions : ∀ f ∈ reader.functions.values, ∃ b : Builtin, f = b.definition) {text : String}
  (hreads : reader.reads text = .ok t)
include hreads

/-- The text of a path in what is read is not the name of a variable in it. -/
theorem path_ne_var_of_reads {id id' : Nat} {steps : List (Step Expr)} {key : String}
    {index : List Expr} (hpath : .path id steps key ∈ t.nodes) : .var id' key index ∉ t.nodes := by
  intro hvar
  obtain ⟨u, hu, hkept⟩ := exists_parsed_pathsKept hreads
  obtain ⟨u', hu', hheads⟩ := exists_parsed_sublist hreads
  cases hu.symm.trans hu'
  obtain ⟨steps', hpath', -⟩ := hkept id steps key hpath
  obtain ⟨node, hnode, hhead⟩ := List.mem_filterMap.mp (hheads.subset (Expr.mem_headsOf hvar rfl))
  cases node with
  | var id'' name index' =>
    cases hhead
    exact Parse.path_ne_var_of_parseSource hu hpath' hnode
  | _ => cases hhead

include hfunctions

/-- What a path in what is read yields, every path in it with the same text yields without a
token. -/
theorem yields_of_sameText {run : Run} {host : Host}
    (hroot : ∀ root, run.scope.context = some root → root.HostFree) {id id' : Nat}
    {steps steps' : List (Step Expr)} {key : String} {v : Value}
    (hpath : .path id steps key ∈ t.nodes) (hpath' : .path id' steps' key ∈ t.nodes)
    (h : (Expr.path id steps key).Yields Value.HostFree run host v) :
    (Expr.path id' steps' key).Yields Value.HostFree { run with token := none } host v := by
  have hgood := Value.HostFree.handleContract
  obtain ⟨u, hu, hkept⟩ := exists_parsed_pathsKept hreads
  obtain ⟨steps₀, hpath₀, hkeeps⟩ := hkept id steps key hpath
  obtain ⟨steps₁, hpath₁, hkeeps'⟩ := hkept id' steps' key hpath'
  have hcalls := callsOnlyBuiltins_of_resolvedBy hfunctions (resolvedBy_of_parsed hu)
  have hnamed := Expr.stepsNamed_stepName (nodup_ids_of_reads hreads)
  have hnamed₀ := Expr.stepsNamed_stepName (nodup_ids_of_parsed hu)
  have hnil : ∀ names, Memo.IsValid Value.HostFree names [] := fun _ => .nil
  let alone : Run := { run with token := none }
  have hroot' : ∀ root, alone.scope.context = some root → root.HostFree := hroot
  have hyields : ∀ {names : Nat → Nat → String} {node node' : Expr}, node.Matches node' →
      node.CallsOnlyBuiltins → node.StepsNamed names →
      (node.evaluate.exec alone ⟨[], [], host⟩).1 = .ok v →
      node'.Yields Value.HostFree alone host v := by
    intro names node node' hmatches hcalls hnamed hvalue
    have hexec : node.evaluate.exec alone ⟨[], [], host⟩ = (.ok v, _) := Prod.ext hvalue rfl
    exact Expr.yields_of_exec hgood hroot' hmatches hcalls hnamed (hnil _) (.refl host) hexec
  -- The path, what it was before it was folded, the other path before it was folded, and the other
  -- path have the same value.
  have hvalue : ((Expr.path id steps key).evaluate.exec alone ⟨[], [], host⟩).1 = .ok v :=
    h _ _ [] [] ⟨rfl, rfl, .inl rfl⟩ (hnamed.part hpath) (hnil _)
  have hvalue₀ := (hkeeps.exec_eq_ok_iff (hcalls.part hpath₀) rfl _ v).mp hvalue
  have hyields₁ := hyields (Parse.matches_of_parseSource hu hpath₀ hpath₁) (hcalls.part hpath₀)
    (hnamed₀.part hpath₀) hvalue₀
  have hvalue₁ := hyields₁ alone _ [] [] ⟨rfl, rfl, .inl rfl⟩ (hnamed₀.part hpath₁) (hnil _)
  have hvalue' := (hkeeps'.exec_eq_ok_iff (hcalls.part hpath₁) rfl _ v).mpr hvalue₁
  have hcalls' := callsOnlyBuiltins_of_resolvedBy hfunctions (resolvedBy_of_reads hreads)
  exact hyields (.refl _) (hcalls'.part hpath') (hnamed.part hpath') hvalue'

end

/-- Every value that an evaluation of a tree records for a number is recorded for the one call,
variable or path with that number, which has this value when it is evaluated alone; and what the
trace lists under the text of a path is what every path with that text gives alone. -/
theorem recorded_alone (reader : Engine)
    (hfunctions : ∀ f ∈ reader.functions.values, ∃ b : Builtin, f = b.definition)
    (text : String) (t : Expr) (hreads : reader.reads text = .ok t) (memo : Memo)
    (hused : Tree.Used Value.HostFree ⟨t, memo⟩) (e : Engine)
    (hcontext : ∀ root, e.context = some root → root.HostFree) (mode : Mode) (o : EvaluateOptions)
    (htrace : o.trace = true) :
    (∀ id v, (id, v) ∈ (t.evaluate.exec ⟨e.scope, mode, true, o.token⟩
        ⟨memo, [], e.host⟩).2.recorded →
      ∃ node, t.nodes.filter (·.id? == some id) = [node] ∧ e.YieldsAlone mode o.token t node v) ∧
    ∀ trace, ((run ⟨t, memo⟩ o mode).run e).2.lastTrace = some trace →
      ∀ key v, (key, v) ∈ trace.bindings → ∀ id steps, .path id steps key ∈ t.nodes →
        e.YieldsAlone mode none t (.path id steps key) v := by
  have hgood := Value.HostFree.handleContract
  have hcalls := callsOnlyBuiltins_of_resolvedBy hfunctions (resolvedBy_of_reads hreads)
  have hids := nodup_ids_of_reads hreads
  obtain ⟨names, hnamed, hmemo⟩ := hused.isValid hgood
  rcases hrun : t.evaluate.exec ⟨e.scope, mode, true, o.token⟩ ⟨memo, [], e.host⟩ with ⟨r, s⟩
  have hrecorded :=
    Expr.yields_of_recorded hgood (fun root => hcontext root) hcalls hnamed hmemo hrun
  refine ⟨fun id v hmem => ?_, fun trace htraced key v hmem id steps hpath => ?_⟩
  · obtain ⟨node, hnode, hid, hyields⟩ := hrecorded (id, v) hmem
    exact ⟨node, Expr.filter_eq_singleton hids hnode hid, yieldsAlone_of_yields hnode hyields⟩
  · have hbindings : (key, v) ∈ Trace.collect t s.recorded := by
      have hafter : e.traceAfter t o r s.recorded = some trace := by
        rw [← htrace] at hrun
        rwa [@run_run e ⟨t, memo⟩ o mode r s hrun] at htraced
      unfold traceAfter at hafter
      rw [if_pos htrace] at hafter
      cases r with
      | ok v =>
        cases hafter
        exact hmem
      | error error => cases hafter
    obtain ⟨node, hnode, id', hkey, hlookup⟩ := Trace.exists_of_mem_collect hbindings
    cases node with
    | path id'' steps' key' =>
      cases hkey
      obtain ⟨before, behind, hsplit, -⟩ := List.lookup_eq_some_iff.mp hlookup
      obtain ⟨node', hnode', hid', hyields⟩ := hrecorded (id', v) (by simp [hsplit])
      have hsame := (Expr.filter_eq_singleton hids hnode' hid').symm.trans
        (Expr.filter_eq_singleton hids hnode rfl)
      cases hsame
      exact yieldsAlone_of_yields hpath
        (yields_of_sameText hfunctions hreads (fun root => hcontext root) hnode hpath hyields)
    | var id'' name index =>
      cases hkey
      exact absurd hnode (path_ne_var_of_reads hreads hpath)
    | _ => cases hkey

/-- The formula `Name` on data with a name, which the trace lists. -/
theorem recorded_alone_namePath :
    Tree.Used Value.HostFree ⟨namePath, []⟩ ∧
      ∃ trace,
        ((run ⟨namePath, []⟩ {} .strict).run { context := some ann }).2.lastTrace = some trace ∧
        trace.bindings = [("Name", .text "Ann")] ∧
        YieldsAlone { context := some ann } .strict none namePath namePath (.text "Ann") := by
  have hfunctions : ∀ f ∈ (after [.setContext ann]).functions.values,
      ∃ b : Builtin, f = b.definition := exists_builtin_of_eq rfl
  have hcontext : ∀ root, (some ann : Option Value) = some root → root.HostFree := by
    rintro _ ⟨⟩
    exact hostFree_ann
  have hused : Tree.Used Value.HostFree ⟨namePath, []⟩ := .fresh (by decide)
  obtain ⟨-, htraced⟩ := recorded_alone (after [.setContext ann]) hfunctions "Name" namePath
    reads_namePath [] hused { context := some ann } hcontext .strict {} rfl
  refine ⟨hused, _, rfl, rfl, ?_⟩
  exact htraced _ rfl "Name" (.text "Ann") List.mem_cons_self 0 _ List.mem_cons_self

end Engine

end Formula
