import Formula.Proofs.Engine.KeptTexts

/-!
# The last trace

The trace of an engine belongs to the last evaluation that was traced and got past reading
(`lastTrace_eq`).  Tracing only records values that an evaluation finds, which nothing in it reads
again, so the evaluation gives the same without it, and leaves the same engine but for the trace
(`evaluateIn_untraced`).
-/

namespace Formula

/-! ## Evaluating without a trace -/

/-- A run that records what it finds coupled with one that does not. -/
def Coupling.untraced (run : Run) : Coupling where
  first := { run with traced := true }
  second := { run with traced := false }
  states s t := s.memo = t.memo ∧ s.host = t.host
  errors := Eq
  alone _ := False
  errors_refl _ := rfl
  bindingKind?_eq := CalcError.bindingKind?_congr
  scope_eq := rfl
  mode := .inl rfl
  strict h := h.elim
  poll {s t} h := by
    obtain ⟨hstop, hhost⟩ := @Run.poll_congr { run with traced := true }
      { run with traced := false } s t rfl h.2
    refine .inr ⟨hstop, ?_, hhost⟩
    rw [Run.memo_poll, Run.memo_poll]
    exact h.1
  records _ _ _ := True
  record _ h := h

/-- Any expression gives the same without a trace, whatever functions it calls. -/
theorem Expr.repeats_untraced (e : Expr) (run : Run) :
    (Coupling.untraced run).Repeats (fun _ => True) e e := by
  refine .of_nodes .any e fun node _ => ?_
  cases node with
  | call id f args =>
    intro hargs
    have hhost : SharesHost (Coupling.untraced run).states := ⟨And.right, fun _ h => ⟨h.1, rfl⟩⟩
    exact .call .any (fun _ _ _ _ _ _ => trivial) (.plan_self rfl hhost (fun _ h => h)
      (Coupling.Repeats.arguments (List.forall₂_same.mpr hargs)) _)
  | var => exact ⟨fun _ _ _ _ _ _ => trivial, fun _ => trivial⟩
  | path id steps text =>
    have hmemo : Coupling.SharesMemo (Coupling.untraced run).states :=
      ⟨And.left, fun _ h => ⟨rfl, h.2⟩⟩
    exact .path (fun _ _ _ _ _ _ => trivial) .any (.of_graph .all (Coupling.not_validates rfl))
      (hmemo.handles id) (fun _ _ _ _ _ => trivial) (fun _ _ => trivial)
      (fun h => absurd h (Coupling.not_validates rfl)) fun _ _ _ => trivial
  | _ => trivial

namespace Engine

variable (e : Engine)

/-- Evaluating a tree without a trace gives the same, and leaves the same but for the trace. -/
theorem run_untraced (tree : Tree) (o : EvaluateOptions) (mode : Mode) :
    (run tree { o with trace := false } mode).run e =
      (((run tree { o with trace := true } mode).run e).1,
        { ((run tree { o with trace := true } mode).run e).2 with lastTrace := e.lastTrace }) := by
  obtain ⟨r, s, t, hx, hy, hmemo, hhost⟩ : ∃ r s t,
      tree.expr.evaluate.exec { scope := e.scope, mode, traced := true, token := o.token }
        { memo := tree.memo, host := e.host } = (r, s) ∧
      tree.expr.evaluate.exec { scope := e.scope, mode, traced := false, token := o.token }
        { memo := tree.memo, host := e.host } = (r, t) ∧ s.memo = t.memo ∧ s.host = t.host := by
    rcases @Expr.repeats_untraced tree.expr ⟨e.scope, mode, o.trace, o.token⟩
        ⟨tree.memo, [], e.host⟩ ⟨tree.memo, [], e.host⟩ ⟨rfl, rfl⟩ with
      ⟨v, s, t, hx, hy, -, hst⟩ | ⟨error, s, hx, -, h | ⟨_, t, hy, rfl, hst⟩⟩
    · exact ⟨.ok v, s, t, hx, hy, hst⟩
    · exact h.elim
    · exact ⟨.error error, s, t, hx, hy, hst⟩
  have htraced := @run_run e tree { o with trace := true } mode r s hx
  have huntraced := @run_run e tree { o with trace := false } mode r t hy
  rw [htraced, huntraced, hmemo, hhost]
  rfl

/-- Reading a text leaves the last trace as it is. -/
theorem lastTrace_treeOf (text : String) (useCache : Bool) :
    ((treeOf text useCache).run.run e).2.lastTrace = e.lastTrace := by
  obtain ⟨host, hparse⟩ := exists_run_parse e text
  rw [run_treeOf, hparse]
  cases if useCache then e.cache.bind (·.get? text) else none with
  | some tree => rfl
  | none =>
    cases e.reads text with
    | error error => rfl
    | ok t => cases useCache <;> rfl

/-- Evaluating a text without a trace gives the same, and leaves the same but for the trace. -/
theorem evaluateIn_untraced (mode : Mode) (text : String) (o : EvaluateOptions) :
    (evaluateIn mode text { o with trace := false }).run.run e =
      (((evaluateIn mode text { o with trace := true }).run.run e).1,
        { ((evaluateIn mode text { o with trace := true }).run.run e).2 with
          lastTrace := e.lastTrace }) := by
  have hread := lastTrace_treeOf e text o.useCache
  rw [run_evaluateIn, run_evaluateIn]
  dsimp only
  rcases htree : (treeOf text o.useCache).run.run e with ⟨error | tree, e'⟩
  · rw [htree] at hread
    dsimp only at hread ⊢
    rw [← hread]
  · rw [htree] at hread
    dsimp only at hread ⊢
    rw [run_untraced, hread]
    cases o.useCache <;> rfl

end Engine

/-! ## Evaluations of a history -/

/-- The evaluation of a tree, which a text was read as or which was given, on an engine. -/
structure Evaluation where
  engine : Engine
  tree : Tree
  options : EvaluateOptions

namespace Evaluation

variable (ev : Evaluation)

/-- What the evaluation gives, and the state that it leaves. -/
def exec : Outcome Value × EvalState :=
  ev.tree.expr.evaluate.exec
    { scope := ev.engine.scope, mode := ev.options.mode, traced := ev.options.trace,
      token := ev.options.token }
    { memo := ev.tree.memo, host := ev.engine.host }

/-- The trace of the evaluation, if it gives a value. -/
def trace? : Option Trace :=
  match ev.exec with
  | (.ok v, s) => some (Trace.ofRun ev.tree.expr s.recorded v)
  | (.error _, _) => none

theorem trace?_of_error {error : CalcError} (h : ev.exec.1 = .error error) : ev.trace? = none := by
  unfold trace?
  rw [show ev.exec = (.error error, ev.exec.2) from Prod.ext h rfl]

theorem trace?_of_ok {v : Value} (h : ev.exec.1 = .ok v) :
    ev.trace? = some (Trace.ofRun ev.tree.expr ev.exec.2.recorded v) := by
  unfold trace?
  rw [show ev.exec = (.ok v, ev.exec.2) from Prod.ext h rfl]

/-- Evaluating a tree gives what its run gives, and leaves the world and the trace of that run. -/
theorem run_eq : (Engine.run ev.tree ev.options ev.options.mode).run ev.engine =
    ((ev.exec.1, { ev.tree with memo := ev.exec.2.memo }),
      { ev.engine with
        host := ev.exec.2.host
        lastTrace := if ev.options.trace then ev.trace? else ev.engine.lastTrace }) := by
  rw [@Engine.run_run ev.engine ev.tree ev.options ev.options.mode ev.exec.1 ev.exec.2 rfl, trace?]
  unfold Engine.traceAfter
  rcases ev.exec with ⟨error | v, s⟩ <;> rfl

end Evaluation

/-- The evaluation that an operation comes to, if it is one and its text can be read.  A validation
is none. -/
def Op.evaluation? (e : Engine) : Op → Option Evaluation
  | evaluate text o =>
    match (Engine.treeOf text o.useCache).run.run e with
    | (.ok tree, e') => some ⟨e', tree, o⟩
    | (.error _, _) => none
  | evaluateTree tree o => some ⟨e, tree, o⟩
  | _ => none

open Engine

/-- An operation leaves the trace of its evaluation if this is traced and gets past reading, and
otherwise the trace that was there. -/
theorem Op.lastTrace_apply (e : Engine) (op : Op) : (op.apply e).lastTrace =
    match (op.evaluation? e).filter (·.options.trace) with
    | some ev => ev.trace?
    | none => e.lastTrace := by
  cases op with
  | setVariable | removeVariable | clearVariables | setContext | clearContext | modifyOptions | act
  | modifyFunctions | setCulture | setNameChars | setOptimizes | clearCache | setExternals
  | setCaching => rfl
  | parse text =>
    obtain ⟨host, hparse⟩ := exists_run_parse e text
    rw [apply, hparse]
    rfl
  | evaluate text o =>
    have hread := lastTrace_treeOf e text o.useCache
    rw [apply, Engine.evaluate, run_evaluateIn, evaluation?]
    rcases htree : (treeOf text o.useCache).run.run e with ⟨error | tree, e'⟩
    · rw [htree] at hread
      exact hread
    · have hrun := Evaluation.run_eq ⟨e', tree, o⟩
      rw [htree] at hread
      dsimp only at hrun hread ⊢
      rw [hrun, Option.filter_some, hread]
      cases o.useCache <;> cases o.trace <;> rfl
  | evaluateTree tree o =>
    have hrun := Evaluation.run_eq ⟨e, tree, o⟩
    dsimp only at hrun
    rw [apply, Engine.evaluateTree, hrun, evaluation?, Option.filter_some]
    cases o.trace <;> rfl
  | validate text useCache =>
    rw [apply, Engine.validate, evaluateIn_untraced e .validation text { useCache }]
    rfl

namespace Engine

/-- The last evaluation of a history that was traced and got past reading. -/
def lastTraced : List Op → Option Evaluation
  | [] => none
  | op :: past => ((op.evaluation? (after past)).filter (·.options.trace)).or (lastTraced past)

/-- The trace after a history is that of the last evaluation that was traced and got past
reading. -/
theorem lastTrace_after (history : List Op) :
    (after history).lastTrace = (lastTraced history).bind Evaluation.trace? := by
  induction history with
  | nil => rfl
  | cons op past ih =>
    rw [after, op.lastTrace_apply, lastTraced]
    cases (op.evaluation? (after past)).filter (·.options.trace) with
    | none => exact ih
    | some ev => rfl

/-- An evaluation of a text gives what the evaluation gives that it comes to; it comes to none if
the text cannot be read. -/
theorem result_evaluate (e : Engine) (text : String) (o : EvaluateOptions) :
    match (Op.evaluate text o).evaluation? e with
    | some ev => ((evaluate text o).run.run e).1 = ev.exec.1
    | none => ∃ error, ((evaluate text o).run.run e).1 = .error error := by
  rw [Op.evaluation?, evaluate, run_evaluateIn]
  rcases (treeOf text o.useCache).run.run e with ⟨error | tree, e'⟩
  · exact ⟨error, rfl⟩
  · rfl

/-- The trace of an engine belongs to the last evaluation that was traced and got past reading:
there is none if that failed, and otherwise it shows what the evaluation found, even if its value
could not be converted afterwards.  A request that is no such evaluation leaves the trace as it was.
Results do not depend on whether evaluations are traced. -/
theorem lastTrace_eq (requests : List Request) :
    let e := afterAll requests
    let last := lastTraced (requests.map Request.untyped)
    (last = none → e.parsedExpression = none ∧ e.contextBindings = []) ∧
    (∀ ev, last = some ev →
      (∀ error, ev.exec.1 = .error error → e.parsedExpression = none ∧ e.contextBindings = []) ∧
      ∀ v, ev.exec.1 = .ok v →
        e.parsedExpression = some (Trace.ofRun ev.tree.expr ev.exec.2.recorded v).expression ∧
        e.contextBindings = (Trace.ofRun ev.tree.expr ev.exec.2.recorded v).bindings) ∧
    (∀ r : Request, (∀ ev, r.untyped.evaluation? e = some ev → ev.options.trace = false) →
      (r.apply e).lastTrace = e.lastTrace) ∧
    (∀ (text : String) (o : EvaluateOptions),
      match (Op.evaluate text o).evaluation? e with
      | some ev => ((evaluate text o).run.run e).1 = ev.exec.1
      | none => ∃ error, ((evaluate text o).run.run e).1 = .error error) ∧
    (∀ (mode : Mode) (text : String) (o : EvaluateOptions),
      ((evaluateIn mode text { o with trace := true }).run.run e).1 =
        ((evaluateIn mode text { o with trace := false }).run.run e).1) ∧
    ∀ (mode : Mode) (tree : Tree) (o : EvaluateOptions),
      ((run tree { o with trace := true } mode).run e).1 =
        ((run tree { o with trace := false } mode).run e).1 := by
  intro e last
  have htrace : e.lastTrace = last.bind Evaluation.trace? :=
    (congrArg Engine.lastTrace (afterAll_eq requests)).trans (lastTrace_after _)
  refine ⟨fun hlast => ?_, fun ev hlast => ⟨fun error herror => ?_, fun v hv => ?_⟩,
    fun r hr => ?_, result_evaluate e, fun mode text o => ?_, fun mode tree o => ?_⟩
  · rw [parsedExpression, contextBindings, htrace, hlast]
    exact ⟨rfl, rfl⟩
  · rw [parsedExpression, contextBindings, htrace, hlast, Option.bind_some,
      ev.trace?_of_error herror]
    exact ⟨rfl, rfl⟩
  · rw [parsedExpression, contextBindings, htrace, hlast, Option.bind_some, ev.trace?_of_ok hv]
    exact ⟨rfl, rfl⟩
  · rw [r.apply_eq, r.untyped.lastTrace_apply]
    cases hev : r.untyped.evaluation? e with
    | none => rfl
    | some ev => rw [Option.filter_some, hr ev hev, if_neg Bool.false_ne_true]
  · rw [evaluateIn_untraced e mode text o]
  · rw [run_untraced e tree o mode]

end Engine

end Formula
