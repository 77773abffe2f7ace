import Formula.Proofs.Engine.History

/-!
# Requests

A host asks an engine for operations and for evaluations with typed results.  A typed evaluation
does to the engine what the evaluation behind it does; the conversion comes after, and changes
nothing, whether it fails or not.
-/

namespace Formula

/-- What a host can ask of an engine.  Evaluating a formula and discarding any failure is asking for
a `Value` that need not be there. -/
inductive Request : Type 1 where
  | operation (op : Op)
  | evaluateAs (α : Type) [OfValue α] (text : String) (o : EvaluateOptions)
  | evaluateAs? (α : Type) [OfValue α] (text : String)
  | validateAs (α : Type) [OfValue α] (text : String)

namespace Engine

variable (e : Engine) (α : Type) [OfValue α] (text : String)

/-! ## Typed results -/

/-- The conversion of a value comes after the operation and leaves the engine as this did. -/
theorem run_cast_bind (x : EngineM Value) :
    (x >>= fun v => liftM (cast α v) : EngineM α).run.run e =
      ((x.run.run e).1.bind (cast α), (x.run.run e).2) := by
  rw [ExceptT.run_bind, StateT.run_bind]
  rcases x.run.run e with ⟨error | v, e'⟩
  · rfl
  · show (liftM (cast α v) : EngineM α).run.run e' = (cast α v, e')
    cases cast α v <;> rfl

theorem run_evaluateAs (o : EvaluateOptions) : (evaluateAs α text o).run.run e =
    (((evaluate text o).run.run e).1.bind (cast α), ((evaluate text o).run.run e).2) :=
  run_cast_bind e α (evaluate text o)

theorem run_validateAs : (validateAs α text).run.run e =
    (((validate text).run.run e).1.bind (cast α), ((validate text).run.run e).2) :=
  run_cast_bind e α (validate text)

/-- Asking for a result that need not be there leaves the same engine, with no error. -/
theorem run_evaluateAs? : (evaluateAs? α text).run e =
    ((((evaluate text).run.run e).1.bind (cast α)).toOption, ((evaluate text).run.run e).2) := by
  have hrun : (evaluateAs? α text).run e =
      (((evaluateAs α text).run.run e).1.toOption, ((evaluateAs α text).run.run e).2) := rfl
  rw [hrun, run_evaluateAs]

end Engine

namespace Request

/-- The engine after a request. -/
def apply (e : Engine) : Request → Engine
  | operation op => op.apply e
  | evaluateAs α text o => ((Engine.evaluateAs α text o).run.run e).2
  | evaluateAs? α text => ((Engine.evaluateAs? α text).run e).2
  | validateAs α text => ((Engine.validateAs α text).run.run e).2

/-- The operation that a request comes to, but for the conversion of the result. -/
def untyped : Request → Op
  | operation op => op
  | evaluateAs _ text o => .evaluate text o
  | evaluateAs? _ text => .evaluate text {}
  | validateAs _ text => .validate text false

/-- A typed request does to the engine what the operation behind it does. -/
theorem apply_eq (e : Engine) (r : Request) : r.apply e = r.untyped.apply e := by
  cases r with
  | operation op => rfl
  | evaluateAs α text o => exact congrArg Prod.snd (Engine.run_evaluateAs e α text o)
  | evaluateAs? α text => exact congrArg Prod.snd (Engine.run_evaluateAs? e α text)
  | validateAs α text => exact congrArg Prod.snd (Engine.run_validateAs e α text)

end Request

namespace Engine

/-- The engine after some requests, the last one first. -/
def afterAll : List Request → Engine
  | [] => {}
  | r :: past => r.apply (afterAll past)

/-- Some requests do to an engine what the operations behind them do, one after another. -/
theorem afterAll_eq (requests : List Request) :
    afterAll requests = after (requests.map Request.untyped) := by
  induction requests with
  | nil => rfl
  | cons r past ih => rw [afterAll, List.map_cons, after, ← ih, r.apply_eq]

end Engine

end Formula
