import Formula.Engine.Evaluate
import Formula.Proofs.Evaluation.Comparison
import Formula.Proofs.Expr.Steady

/-!
# Constant folding keeps the meaning

What is folded works on literals only, so it has one result for all data and all modes
(`Eval.Constant`); hence folding is unseen wherever the expression stands, be it in an argument that
is evaluated late or in the keys of a path (`exists_fold`).  Only the printed keys in the error of
a path may differ.
-/

namespace Formula

/-! ## Outcomes up to printed keys -/

/-- Errors that count as the same: the printed steps in the error of a path are of no account, only
its kind and its path are. -/
def CalcError.Alike : CalcError → CalcError → Prop
  | .binding e, .binding e' => e.kind = e'.kind ∧ e.path = e'.path
  | e, e' => e = e'

theorem CalcError.Alike.refl (e : CalcError) : e.Alike e := by
  cases e with
  | binding e => exact ⟨rfl, rfl⟩
  | _ => rfl

/-- The same value, or errors that count as the same. -/
def Outcome.Alike {α : Type} : Outcome α → Outcome α → Prop
  | .ok a, .ok b => a = b
  | .error e, .error e' => e.Alike e'
  | _, _ => False

/-- Evaluations without a token whose printed forms may differ. -/
def Comparison.unprinted : Comparison where
  runs run := run.token = none
  states s t := s.memo = t.memo ∧ s.host = t.host
  errors := CalcError.Alike
  errors_refl := .refl
  bindingKind?_eq {e e'} h := by
    cases e <;> cases e' <;> first
      | exact congrArg some h.1
      | rfl
      | cases h
  host_eq h := h.2
  setHost _ h := ⟨h.1, rfl⟩
  record _ h := h

open Comparison (relates_iff unprinted)

/-- Looking up a member has nothing to do with printed forms. -/
theorem unprinted_objectMember {id : Nat} {text : String} {labels labels' : Unit → List String}
    (i : Nat) (name : String) (c : Contents Value) :
    unprinted.Relates (PathSite.objectMember ⟨id, text, labels⟩ i name c)
      (PathSite.objectMember ⟨id, text, labels'⟩ i name c) fun _ => True := by
  refine relates_iff.mpr fun run _ => ?_
  have hmemo : Coupling.SharesMemo (unprinted.coupling run).states :=
    ⟨fun h => h.1, fun _ h => ⟨rfl, h.2⟩⟩
  exact .objectMember (p := ⟨id, text, labels⟩) (q := ⟨id, text, labels'⟩) (hmemo.handles id)
    (fun _ => ⟨rfl, rfl⟩) (fun _ _ => trivial) fun _ _ _ => trivial

/-! ## Folding -/

namespace Expr

open Eval (Constant)

variable {scope : Scope} {host : Host}

/-- What folding gives for an expression: the world of the host stays, and what the folded
expression evaluates to too. -/
def FoldsTo (scope : Scope) (host : Host) (e e' : Expr) : Prop :=
  (fold scope e).run host = (e', host) ∧ RelatedBy unprinted e' e

/-- A node that is replaced by its value stays related to what it is related to. -/
theorem relatedBy_literal {e₀ e : Expr} {v : Value} {s : EvalState}
    (h : ∃ r, Constant (evaluate e) r) (hvalue : (evaluate e).exec { scope } { host } = (.ok v, s))
    (he : RelatedBy unprinted e e₀) : RelatedBy unprinted (literal v) e₀ := by
  obtain ⟨r, hr⟩ := h
  -- In all runs the node has the value that it was replaced by.
  have hr' : r = .ok v := by
    obtain ⟨recorded, hrun⟩ := hr { scope } { host } rfl
    rw [hvalue] at hrun
    exact (congrArg Prod.fst hrun).symm
  subst hr'
  intro run s t hrun hst
  obtain ⟨recorded, hliteral⟩ := constant_literal v run s hrun
  obtain ⟨recorded', hfolded⟩ := hr run s hrun
  rcases he hrun hst with ⟨a, s', t', hx, hy, -, hst'⟩ | ⟨e, e', s', t', hx, -, -, -⟩
  · rw [hfolded] at hx
    cases hx
    exact .inl ⟨v, _, t', hliteral, hy, trivial, hst'⟩
  · rw [hfolded] at hx
    cases hx

/-- What is left of an expression that calls built-in functions only. -/
def KeepsMeaning (e e' : Expr) : Prop := e.CallsOnlyBuiltins → RelatedBy unprinted e' e

/-- What is left of an expression has the same values without a token. -/
theorem KeepsMeaning.exec_eq_ok_iff {e e' : Expr} (h : KeepsMeaning e e')
    (hcalls : e.CallsOnlyBuiltins) {run : Run} (hrun : run.token = none) (s : EvalState)
    (v : Value) :
    (e'.evaluate.exec run s).1 = .ok v ↔ (e.evaluate.exec run s).1 = .ok v := by
  rcases h hcalls (s := s) (t := s) hrun ⟨rfl, rfl⟩ with
    ⟨a, t, t', hx, hy, -⟩ | ⟨error, error', t, t', hx, hy, -⟩
  · rw [hx, hy]
  · rw [hx, hy]
    exact ⟨nofun, nofun⟩

theorem KeepsMeaning.refl (e : Expr) : KeepsMeaning e e := by
  refine fun _ => @RelatedBy.refl unprinted (fun _ => True) (fun _ _ _ => True) .all
    (fun id text labels => ?_) (fun _ _ _ _ => trivial) e fun _ _ _ _ _ _ _ => trivial
  exact ⟨fun i problem => ⟨rfl, rfl⟩, fun i name o _ _ => unprinted_objectMember i name o.contents⟩

theorem forall₂_relatedBy {es es' : List Expr} (h : List.Forall₂ KeepsMeaning es es')
    (hcalls : ∀ e ∈ es, e.CallsOnlyBuiltins) : List.Forall₂ (RelatedBy unprinted) es' es :=
  (((List.forall₂_and_left es es').mpr ⟨hcalls, h⟩).imp fun _ _ h => h.2 h.1).flip

/-- Folding keeps the meaning, by induction on the expression: it is the same whatever the parts are
replaced by that keep theirs, and a node is replaced by its value only where it has this at all
times. -/
theorem keepsMeaning_fold (scope : Scope) (e : Expr) (host : Host) :
    KeepsMeaning e ((fold scope e).run host).1 := by
  -- A node that was rebuilt has one value at all times if it is made of literals.
  let Rebuilt : Expr → Expr → Prop := fun e e' => e.CallsOnlyBuiltins →
    RelatedBy unprinted e' e ∧ (e'.isReducible = true → ∃ r, Constant (evaluate e') r)
  refine @fold_rec scope KeepsMeaning Rebuilt ?_ ?_ ?_ ?_ ?_ ?_ ?_ e host
  · intro e e' host h hcalls
    obtain ⟨hrelated, hconstant⟩ := h hcalls
    exact settle_cases (motive := fun t => RelatedBy unprinted t e) (fun _ => hrelated)
      fun hreducible v s hvalue => relatedBy_literal (hconstant hreducible) hvalue hrelated
  · exact fun v _ => ⟨.literal v, nofun⟩
  · exact fun op e e' h hcalls => ⟨(h hcalls.operand).unary, exists_constant_unary⟩
  · intro op l l' r r' hl hr hcalls
    refine ⟨(hl hcalls.left).binary (hr hcalls.right), fun hreducible => ?_⟩
    obtain ⟨hl', hr'⟩ := Bool.and_eq_true_iff.mp hreducible
    exact exists_constant_binary hl' hr'
  · intro id f args args' h hcalls
    obtain ⟨b, rfl⟩ := hcalls.function
    refine ⟨.call (Plan.Confined.ofBuiltin b args'.length)
      (forall₂_relatedBy h fun e he => hcalls.argument he), fun hreducible => ?_⟩
    obtain ⟨hfoldable, hargs'⟩ := Bool.and_eq_true_iff.mp hreducible
    exact exists_constant_call hfoldable hargs'
  · exact fun id name index index' h hcalls =>
      ⟨.var (forall₂_relatedBy h fun e he => hcalls.index he), nofun⟩
  · intro id steps steps' text _ h _ hcalls
    refine ⟨?_, nofun⟩
    have hkeys : ∀ s ∈ steps, ∀ e ∈ s.keys, e.CallsOnlyBuiltins := fun s hs e he => hcalls.key hs he
    have hfolded := (List.forall₂_and_left steps steps').mpr ⟨hkeys, h⟩
    have hsteps : List.Forall₂ (RelatedBy.OfStep unprinted) steps' steps := by
      refine (hfolded.imp fun s s' hs => ?_).flip
      exact ⟨hs.2.name_eq, forall₂_relatedBy hs.2.keys hs.1⟩
    -- The sites differ in the printed keys of the steps, which are in errors only.
    have hsite : unprinted.SameSite (fun _ => True) (fun _ _ => True)
        ⟨id, text, fun _ => steps'.map Step.text⟩ ⟨id, text, fun _ => steps.map Step.text⟩ :=
      ⟨fun i problem => ⟨rfl, rfl⟩, fun i name o _ _ => unprinted_objectMember i name o.contents⟩
    exact .path .all hsite hsteps (fun _ _ _ => trivial) fun _ _ _ _ => trivial

/-- Whether the paths among some nodes are left of paths among others, and keep their meaning. -/
def PathsKept (nodes nodes' : List Expr) : Prop :=
  ∀ id steps' text, path id steps' text ∈ nodes' →
    ∃ steps, path id steps text ∈ nodes ∧ KeepsMeaning (path id steps text) (path id steps' text)

namespace PathsKept

variable {nodes nodes' others others' : List Expr}

theorem refl (nodes : List Expr) : PathsKept nodes nodes :=
  fun id steps text hmem => ⟨steps, hmem, .refl (.path id steps text)⟩

theorem none : PathsKept nodes [] := fun _ _ _ hmem => nomatch hmem

/-- Paths are kept in lists put together from lists in which they are kept. -/
theorem append (h : PathsKept nodes nodes') (h' : PathsKept others others') :
    PathsKept (nodes ++ others) (nodes' ++ others') := by
  intro id steps' text hmem
  rcases List.mem_append.mp hmem with hmem | hmem
  · obtain ⟨steps, hsteps, hkeeps⟩ := h id steps' text hmem
    exact ⟨steps, List.mem_append_left _ hsteps, hkeeps⟩
  · obtain ⟨steps, hsteps, hkeeps⟩ := h' id steps' text hmem
    exact ⟨steps, List.mem_append_right _ hsteps, hkeeps⟩

/-- A node that is no path may stand before the others. -/
theorem cons (h : PathsKept nodes nodes') (node : Expr) {node' : Expr}
    (hnode : ∀ id steps text, node' ≠ path id steps text) :
    PathsKept (node :: nodes) (node' :: nodes') := by
  intro id steps' text hmem
  rcases List.mem_cons.mp hmem with hself | hmem
  · exact absurd hself.symm (hnode id steps' text)
  · obtain ⟨steps, hsteps, hkeeps⟩ := h id steps' text hmem
    exact ⟨steps, List.mem_cons_of_mem _ hsteps, hkeeps⟩

/-- A path in front is kept if it keeps its meaning. -/
theorem path {id : Nat} {steps steps' : List (Step Expr)} {text : String}
    (h : PathsKept nodes nodes')
    (hkeeps : KeepsMeaning (.path id steps text) (.path id steps' text)) :
    PathsKept (.path id steps text :: nodes) (.path id steps' text :: nodes') := by
  intro id' steps'' text' hmem
  rcases List.mem_cons.mp hmem with hself | hmem
  · cases hself
    exact ⟨steps, List.mem_cons_self, hkeeps⟩
  · obtain ⟨steps, hsteps, hkeeps⟩ := h id' steps'' text' hmem
    exact ⟨steps, List.mem_cons_of_mem _ hsteps, hkeeps⟩

/-- Paths are kept in a list of expressions if they are kept in each of them. -/
theorem nodesOfAll {es es' : List Expr}
    (h : List.Forall₂ (fun e e' => PathsKept e.nodes e'.nodes) es es') :
    PathsKept (Expr.nodesOfAll es) (Expr.nodesOfAll es') := by
  induction h with
  | nil => exact none
  | cons he _ ih => exact he.append ih

/-- Paths are kept in the keys of steps if they are kept in each of the keys. -/
theorem nodesOfSteps {steps steps' : List (Step Expr)}
    (h : List.Forall₂ (FoldedStep fun e e' => PathsKept e.nodes e'.nodes) steps steps') :
    PathsKept (Expr.nodesOfSteps steps) (Expr.nodesOfSteps steps') := by
  induction h with
  | nil => exact none
  | cons hs _ ih => exact (nodesOfAll hs.keys).append ih

end PathsKept

/-- The paths of a folded expression are paths of the expression, and keep their meaning. -/
theorem pathsKept_fold (scope : Scope) (e : Expr) (host : Host) :
    PathsKept e.nodes ((fold scope e).run host).1.nodes := by
  let Kept : Expr → Expr → Prop := fun e e' => PathsKept e.nodes e'.nodes
  refine @fold_rec scope Kept Kept ?_ ?_ ?_ ?_ ?_ ?_ ?_ e host
  · intro e e' host h
    refine @settle_cases scope host (fun t => Kept e t) e' (fun _ => h) fun _ v _ _ => ?_
    exact fun id steps text hmem => nomatch List.mem_singleton.mp hmem
  · exact fun v => PathsKept.none.cons _ fun _ _ _ => nofun
  · exact fun op e e' h => h.cons _ fun _ _ _ => nofun
  · exact fun op l l' r r' hl hr => (hl.append hr).cons _ fun _ _ _ => nofun
  · exact fun id f args args' h => (PathsKept.nodesOfAll h).cons _ fun _ _ _ => nofun
  · exact fun id name index index' h => (PathsKept.nodesOfAll h).cons _ fun _ _ _ => nofun
  · intro id steps steps' text host h hfold
    have hkeeps := keepsMeaning_fold scope (.path id steps text) host
    rw [hfold] at hkeeps
    exact (PathsKept.nodesOfSteps h).path hkeeps

/-- Folding an expression that calls built-in functions only leaves the world of the host as it is,
and gives an expression that evaluates to the same. -/
theorem exists_fold (e : Expr) (h : e.CallsOnlyBuiltins) : ∃ e', FoldsTo scope host e e' := by
  obtain ⟨e', he⟩ := e.exists_run_fold_steady fun id f args hmem => by
    obtain ⟨b, rfl⟩ := h id f args hmem
    exact b.steady
  refine ⟨e', he scope host, ?_⟩
  have hrelated := keepsMeaning_fold scope e host h
  rw [he scope host] at hrelated
  exact hrelated

end Expr

/-! ## On an engine -/

theorem Engine.run_result (engine : Engine) (tree : Tree) (o : EvaluateOptions) (mode : Mode) :
    ((Engine.run tree o mode).run engine).1.1 =
      (tree.expr.evaluate.exec
        { scope := engine.scope, mode, traced := o.trace, token := o.token }
        { memo := tree.memo, host := engine.host }).1 := rfl

theorem Engine.run_fold (engine : Engine) (e : Expr) : (Engine.fold e).run.run engine =
    (.ok ((e.fold engine.scope).run engine.host).1,
      { engine with host := ((e.fold engine.scope).run engine.host).2 }) := rfl

/-- Folding keeps what an expression means: on any engine the folded expression gives the same value
in every mode, or an error that counts as the same, and folding leaves the engine as it was. -/
theorem Engine.alike_of_fold (engine : Engine) (e : Expr) (h : e.CallsOnlyBuiltins) :
    ∃ e', (Engine.fold e).run.run engine = (.ok e', engine) ∧
      ∀ (memo : Memo) (o : EvaluateOptions) (mode : Mode), o.token = none →
        Outcome.Alike ((Engine.run ⟨e', memo⟩ o mode).run engine).1.1
          ((Engine.run ⟨e, memo⟩ o mode).run engine).1.1 := by
  obtain ⟨e', hfold, hrelated⟩ : ∃ e', Expr.FoldsTo engine.scope engine.host e e' := e.exists_fold h
  refine ⟨e', ?_, fun memo o mode htoken => ?_⟩
  · show (Except.ok ((e.fold engine.scope).run engine.host).1,
      { engine with host := ((e.fold engine.scope).run engine.host).2 }) = _
    rw [hfold]
  · rw [run_result, run_result]
    rcases @hrelated ⟨engine.scope, mode, o.trace, o.token⟩ _ _ htoken ⟨rfl, rfl⟩ with
      ⟨v, s, t, hx, hy, -, -⟩ | ⟨error, error', s, t, hx, hy, herror, -⟩
    · rw [hx, hy]
      exact rfl
    · rw [hx, hy]
      exact herror

/-- The formula `ValueOr(Ann(1 + 2), -2) / ABS(1 / 0)`, part of which is folded. -/
def partlyConstant : Expr :=
  .binary (.arithmetic .divide)
    (.call 0 Builtin.valueOr.definition
      [.path 1 [⟨"Ann", true, [.binary (.arithmetic .add) (.literal (.number 1))
        (.literal (.number 2))]⟩] "Ann(1 + 2)",
       .unary .negate (.literal (.number 2))])
    (.call 2 Builtin.abs.definition
      [.binary (.arithmetic .divide) (.literal (.number 1)) (.literal (.number 0))])

/-- With text as data the formula comes to the same before and after it is folded. -/
theorem Engine.alike_of_fold_partlyConstant :
    partlyConstant.CallsOnlyBuiltins ∧
      ∃ e', (Engine.fold partlyConstant).run.run { context := some (.text "Bob") } =
          (.ok e', { context := some (.text "Bob") }) ∧
        Outcome.Alike
          ((Engine.run ⟨e', []⟩ { strict := false } .lenient).run
            { context := some (.text "Bob") }).1.1
          ((Engine.run ⟨partlyConstant, []⟩ { strict := false } .lenient).run
            { context := some (.text "Bob") }).1.1 := by
  have h : partlyConstant.CallsOnlyBuiltins := by
    intro id f args hmem
    simp only [partlyConstant, Expr.nodes, Expr.nodesOfAll, Expr.nodesOfSteps, List.mem_cons,
      List.mem_append, List.not_mem_nil, reduceCtorEq, or_false, false_or, Expr.call.injEq] at hmem
    rcases hmem with ⟨-, rfl, -⟩ | ⟨-, rfl, -⟩
    · exact ⟨_, rfl⟩
    · exact ⟨_, rfl⟩
  obtain ⟨e', hfold, halike⟩ := Engine.alike_of_fold { context := some (.text "Bob") } _ h
  exact ⟨h, e', hfold, halike [] { strict := false } .lenient rfl⟩

end Formula
