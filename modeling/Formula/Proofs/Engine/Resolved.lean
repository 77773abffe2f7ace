import Formula.Proofs.Engine.History
import Formula.Proofs.Expr.Folding

/-!
# What reading resolves, evaluation finds

A text that an engine can read calls functions with right numbers of arguments, names declared
variables, and has paths only where there are data.  As long as all functions are built in, an
evaluation on the same engine finds all of it (`resolved_of_reads`).
-/

namespace Formula

/-- Whether an error tells of something that was to be resolved when the formula was read. -/
def CalcError.isUnresolved : CalcError → Bool
  | .invalidSyntax _ | .argumentCount _ _ _ | .unknownVariable _ | .argument (.missing _) => true
  | .binding e => e.kind = .noDataContext
  | _ => false

/-- Operational errors are not among those of names and numbers of arguments. -/
theorem CalcError.isUnresolved_of_isOperational {e : CalcError} (h : e.isOperational = true) :
    e.isUnresolved = false := by
  cases e with
  | evaluation problem => rfl
  | argument problem =>
    cases problem with
    | missing i => cases h
    | _ => rfl
  | _ => cases h

/-! ## Evaluating what is resolved -/

/-- Whether names stand for all calls, variables and paths of an expression. -/
def Expr.ResolvedBy (names : Names) (e : Expr) : Prop :=
  ∀ head ∈ headsOf e.nodes, Parse.Resolves names head

namespace Engine

variable {e : Engine} {t : Expr}

/-- What a text stands for is resolved by the names of the engine. -/
theorem resolvedBy_of_parsed {text : String} (h : e.parsed text = .ok t) :
    t.ResolvedBy e.names := by
  obtain ⟨ts, n, -, hderives⟩ := Parse.derives_of_parseSource h
  exact hderives.resolves

/-- What an engine reads is resolved by its names, folded or not. -/
theorem resolvedBy_of_reads {text : String} (h : e.reads text = .ok t) :
    t.ResolvedBy e.names := by
  obtain ⟨u, hu, hheads⟩ := exists_parsed_sublist h
  exact fun head hmem => resolvedBy_of_parsed hu head (hheads.subset hmem)

/-- A path is resolved only where there are data. -/
theorem context_isSome_of_startsPath {s : String} (h : e.names.startsPath s = true) :
    e.context.isSome = true := by
  have hboth : (e.context.isSome && !e.options.isSkipped s) = true := h
  rw [Bool.and_eq_true] at hboth
  exact hboth.1

/-- The functions that are called are those of the engine. -/
theorem mem_functions_of_resolvedBy (h : t.ResolvedBy e.names) {id : Nat} {f : FunctionDef}
    {args : List Expr} (hcall : .call id f args ∈ t.nodes) : f ∈ e.functions.values := by
  obtain ⟨⟨s, hf⟩, -⟩ := h _ (Expr.mem_headsOf hcall rfl)
  exact List.mem_map_of_mem (f := Prod.snd) (Registry.mem_entries_of_get? hf)

/-- An evaluation on the data of an engine finds what the names of the engine resolve. -/
theorem isUnresolved_of_exec
    (hfunctions : ∀ f ∈ e.functions.values, ∃ b : Builtin, f = b.definition)
    (h : t.ResolvedBy e.names) {run : Run} (hscope : run.scope = e.scope) {s s' : EvalState}
    {error : CalcError} (hrun : t.evaluate.exec run s = (.error error, s')) :
    error.isUnresolved = false := by
  let cause : CalcError → Prop := fun error => error.isUnresolved = false
  have hadmits : (Coupling.same run).Admits cause :=
    ⟨fun _ he => CalcError.isUnresolved_of_isOperational he, fun _ => rfl⟩
  refine Coupling.cause_of_evaluate hadmits (fun id f args hmem => ?_)
    (fun id name index hmem hnone => ?_) (fun id steps text hmem b _ hnone => ?_) hrun
  · obtain ⟨b, rfl⟩ := hfunctions f (mem_functions_of_resolvedBy h hmem)
    have haccepts : b.arity.accepts args.length = true := (h _ (Expr.mem_headsOf hmem rfl)).2
    refine ⟨b, rfl, fun hrejects => ?_⟩
    rw [haccepts] at hrejects
    cases hrejects
  · have hdeclared : (e.vars.get? name).isSome = true := h _ (Expr.mem_headsOf hmem rfl)
    rw [hscope] at hnone
    rw [show e.vars.get? name = none from hnone] at hdeclared
    cases hdeclared
  · obtain ⟨s, hstarts⟩ := h _ (Expr.mem_headsOf hmem rfl)
    have hcontext : run.scope.context.isSome = true := by
      rw [hscope]
      exact context_isSome_of_startsPath hstarts
    refine decide_eq_false fun hkind => ?_
    rw [hnone hkind] at hcontext
    cases hcontext

/-- What an engine with built-in functions reads a text as is resolved: calls have right numbers of
arguments, variables are declared, and there are data if there is a path.  Evaluating it on this
engine, in any mode, never fails for want of any of these. -/
theorem resolved_of_reads (e : Engine)
    (hfunctions : ∀ f ∈ e.functions.values, ∃ b : Builtin, f = b.definition) (text : String)
    (t : Expr) (h : e.reads text = .ok t) :
    ((∀ id f args, .call id f args ∈ t.nodes → f.arity.accepts args.length = true) ∧
      (∀ id name index, .var id name index ∈ t.nodes → e.vars.contains name = true) ∧
      ∀ id steps written, .path id steps written ∈ t.nodes → e.context.isSome = true) ∧
    ((parse text).run.run e).2 = e ∧
    (∀ memo o mode error, ((run ⟨t, memo⟩ o mode).run e).1.1 = .error error →
      error.isUnresolved = false) ∧
    ∀ mode o error, o.useCache = false →
      ((evaluateIn mode text o).run.run e).1 = .error error → error.isUnresolved = false := by
  have hresolved := resolvedBy_of_reads h
  have hsteady : e.HasSteadyFunctions := by
    intro f hf
    obtain ⟨b, rfl⟩ := hfunctions f hf
    exact b.steady
  have hrun : ∀ memo o mode error, ((run ⟨t, memo⟩ o mode).run e).1.1 = .error error →
      error.isUnresolved = false := by
    intro memo o mode error herror
    rw [run_result] at herror
    have hexec : t.evaluate.exec ⟨e.scope, mode, o.trace, o.token⟩ ⟨memo, [], e.host⟩ =
        (.error error, _) := Prod.ext herror rfl
    exact isUnresolved_of_exec hfunctions hresolved rfl hexec
  refine ⟨⟨fun id f args hmem => ?_, fun id name index hmem => ?_, fun id steps written hmem => ?_⟩,
    ?_, hrun, fun mode o error hcached herror => ?_⟩
  · exact (hresolved _ (Expr.mem_headsOf hmem rfl)).2
  · exact hresolved _ (Expr.mem_headsOf hmem rfl)
  · obtain ⟨s, hstarts⟩ := hresolved _ (Expr.mem_headsOf hmem rfl)
    exact context_isSome_of_startsPath hstarts
  · rw [run_parse_eq hsteady]
  · have hnone : o.useCache = true → e.kept? text = none := by
      intro htrue
      rw [hcached] at htrue
      cases htrue
    rw [evaluateIn_of_read o mode hsteady hnone h (by rw [hcached]; rfl)] at herror
    exact hrun [] o mode error herror

/-- The formula `Name` read by an engine with data. -/
theorem resolved_of_reads_namePath :
    (after [.setContext ann]).reads "Name" = .ok namePath ∧
      (after [.setContext ann]).context.isSome = true ∧
      ∀ memo o mode error, ((run ⟨namePath, memo⟩ o mode).run (after [.setContext ann])).1.1 =
        .error error → error.isUnresolved = false := by
  have hfunctions : ∀ f ∈ (after [.setContext ann]).functions.values,
      ∃ b : Builtin, f = b.definition := by
    intro f hf
    obtain ⟨b, -, rfl⟩ := Registry.exists_of_mem_values_builtin hf
    exact ⟨b, rfl⟩
  obtain ⟨⟨-, -, hcontext⟩, -, hrun, -⟩ :=
    resolved_of_reads (after [.setContext ann]) hfunctions "Name" namePath reads_namePath
  exact ⟨reads_namePath, hcontext 0 _ "Name" List.mem_cons_self, hrun⟩

end Engine

end Formula
