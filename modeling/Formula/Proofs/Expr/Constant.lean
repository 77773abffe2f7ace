import Formula.Proofs.Evaluation.Exec
import Formula.Proofs.Expr.Nodes
import Formula.Proofs.Function.Builtins

/-!
# Constant expressions

What works on literals only has one result for all data and all modes (`Eval.Constant`), and changes
nothing but the record of values.
-/

namespace Formula

/-! ## Constant computations -/

namespace Eval

variable {α β : Type}

/-- A computation with one result in all runs without a token, which changes nothing but the record
of values. -/
def Constant (x : Eval α) (r : Outcome α) : Prop :=
  ∀ run s, run.token = none → ∃ recorded, x.exec run s = (r, { s with recorded })

namespace Constant

variable {x : Eval α} {r : Outcome α}

theorem pure (a : α) : Constant (Pure.pure a) (.ok a) := fun _ s _ => ⟨s.recorded, rfl⟩

theorem throw (e : CalcError) : Constant (MonadExcept.throw e : Eval α) (.error e) :=
  fun _ s _ => ⟨s.recorded, rfl⟩

theorem ofOutcome (r : Outcome α) : Constant (Eval.ofOutcome r) r :=
  fun run s _ => ⟨s.recorded, exec_ofOutcome run s r⟩

theorem poll : Constant Eval.poll (.ok ()) :=
  fun _ s h => ⟨s.recorded, exec_poll_of_token_none s h⟩

/-- What goes on from a constant value to a constant result has that result. -/
theorem bind {f : α → Eval β} {a : α} {r : Outcome β} (hx : Constant x (.ok a))
    (hf : Constant (f a) r) : Constant (x >>= f) r := by
  intro run s h
  obtain ⟨recorded, hx⟩ := hx run s h
  obtain ⟨recorded', hf⟩ := hf run { s with recorded } h
  exact ⟨recorded', by rw [exec_bind, hx]; exact hf⟩

/-- A constant error ends a computation. -/
theorem bind_error {f : α → Eval β} {e : CalcError} (hx : Constant x (.error e)) :
    Constant (x >>= f) (.error e) := by
  intro run s h
  obtain ⟨recorded, hx⟩ := hx run s h
  exact ⟨recorded, by rw [exec_bind, hx]⟩

/-- Going on with whatever a constant computation gives is constant again. -/
theorem exists_bind {f : α → Eval β} (hx : ∃ r, Constant x r) (hf : ∀ a, ∃ r, Constant (f a) r) :
    ∃ r, Constant (x >>= f) r := by
  obtain ⟨r, hx⟩ := hx
  cases r with
  | error e => exact ⟨_, hx.bind_error⟩
  | ok a =>
    obtain ⟨r, hf⟩ := hf a
    exact ⟨r, hx.bind hf⟩

/-- Taking an absent value in place of a problem keeps a computation constant. -/
theorem exists_orEmpty {x : Eval Value} (hx : ∃ r, Constant x r) : ∃ r, Constant x.orEmpty r := by
  obtain ⟨r, hx⟩ := hx
  cases r with
  | ok v =>
    refine ⟨.ok v, fun run s h => ?_⟩
    obtain ⟨recorded, hx⟩ := hx run s h
    exact ⟨recorded, by rw [orEmpty, exec_tryCatch, hx]⟩
  | error e =>
    refine ⟨if e.bindingKind?.any fun _ => true then .ok .empty else .error e, fun run s h => ?_⟩
    obtain ⟨recorded, hx⟩ := hx run s h
    refine ⟨recorded, ?_⟩
    rw [orEmpty_eq, tolerating, exec_tryCatch, hx]
    dsimp only
    split <;> rfl

/-- Recording a value changes the record of values and nothing else. -/
theorem record (id : Nat) (v : Value) : Constant (Eval.record id v) (.ok ()) := by
  intro run s _
  rw [exec_record]
  split
  · exact ⟨(id, v) :: s.recorded, rfl⟩
  · exact ⟨s.recorded, rfl⟩

end Constant

end Eval

open Eval (Constant)

/-- A plan that sees neither scope nor mode is constant on constant arguments. -/
theorem Plan.Confined.exists_constant {α : Type} {asks : Nat → Prop} {recovers : Prop} {p : Plan α}
    (hp : Plan.Confined asks False recovers p) {args : List Argument}
    (hargs : ∀ i, ∃ r, Constant (Argument.get args i) r) : ∃ r, Constant (p.run args) r := by
  induction hp with
  | done a => exact ⟨_, .pure a⟩
  | fail h => exact ⟨_, .throw _⟩
  | argument _ _ ih => exact Constant.exists_bind (hargs _) ih
  | argumentOrEmpty _ _ _ ih => exact Constant.exists_bind (Constant.exists_orEmpty (hargs _)) ih
  | poll _ ih => exact Constant.exists_bind ⟨_, .poll⟩ ih
  | askScope hs _ _ => exact hs.elim

namespace Expr

/-! ## Nodes made of literals -/

theorem constant_literal (v : Value) : Constant (evaluate (literal v)) (.ok v) :=
  Constant.poll.bind (.pure v)

/-- A literal has its own value at all times. -/
theorem exists_constant_of_isLiteral {e : Expr} (h : e.isLiteral = true) :
    ∃ r, Constant (evaluate e) r := by
  cases e with
  | literal v => exact ⟨_, constant_literal v⟩
  | _ => cases h

theorem exists_constant_unary {op : UnaryOp} {e : Expr} (h : e.isLiteral = true) :
    ∃ r, Constant (evaluate (unary op e)) r :=
  Constant.exists_bind ⟨_, .poll⟩ fun _ =>
    Constant.exists_bind (exists_constant_of_isLiteral h) fun _ => ⟨_, .ofOutcome _⟩

theorem exists_constant_truth {e : Expr} (h : e.isLiteral = true) :
    ∃ r, Constant (evaluate e).truth r :=
  Constant.exists_bind (exists_constant_of_isLiteral h) fun v => ⟨_, .ofOutcome v.asBool⟩

/-- An operator between literals has one result; the right one may be left out, but it is constant
too. -/
theorem exists_constant_binary {op : BinaryOp} {l r : Expr} (hl : l.isLiteral = true)
    (hr : r.isLiteral = true) : ∃ r', Constant (evaluate (binary op l r)) r' := by
  -- Operators on truth values may leave out their right operand; the others take both.
  have hstrict : ∃ r', Constant (do
      Eval.poll
      let l ← evaluate l
      let r ← evaluate r
      Eval.ofOutcome (l.applyBinary op r)) r' :=
    Constant.exists_bind ⟨_, .poll⟩ fun _ =>
      Constant.exists_bind (exists_constant_of_isLiteral hl) fun _ =>
        Constant.exists_bind (exists_constant_of_isLiteral hr) fun _ => ⟨_, .ofOutcome _⟩
  have htruth : ∃ r', Constant (do return Value.boolean (← (evaluate r).truth)) r' :=
    Constant.exists_bind (exists_constant_truth hr) fun b => ⟨_, .pure (Value.boolean b)⟩
  cases op with
  | and =>
    refine Constant.exists_bind ⟨_, .poll⟩ fun _ =>
      Constant.exists_bind (exists_constant_truth hl) fun b => ?_
    cases b with
    | true => exact htruth
    | false => exact ⟨_, .pure _⟩
  | or =>
    refine Constant.exists_bind ⟨_, .poll⟩ fun _ =>
      Constant.exists_bind (exists_constant_truth hl) fun b => ?_
    cases b with
    | true => exact ⟨_, .pure _⟩
    | false => exact htruth
  | arithmetic op => exact hstrict
  | equal => exact hstrict
  | notEqual => exact hstrict
  | order op => exact hstrict

/-- An argument among literals is constant, and so is the error that there is none. -/
theorem exists_constant_get {args : List Expr} (h : args.all isLiteral = true) (i : Nat) :
    ∃ r, Constant (Argument.get (arguments args) i) r := by
  unfold Argument.get
  rw [arguments_eq_map, List.getElem?_map]
  cases hi : args[i]? with
  | none => exact ⟨_, .throw _⟩
  | some e => exact exists_constant_of_isLiteral (List.all_eq_true.1 h e (List.mem_of_getElem? hi))

/-- A call of a built-in function that can be folded, with literal arguments. -/
theorem exists_constant_call {id : Nat} {b : Builtin} {args : List Expr}
    (hb : b.definition.isFoldable = true) (h : args.all isLiteral = true) :
    ∃ r, Constant (evaluate (call id b.definition args)) r := by
  -- What can be folded is not contextual, so its plan never asks for the scope.
  have hsees : ¬ b.isContextual = true := by
    simpa [FunctionDef.isFoldable, Builtin.definition, Implementation.isContextual] using hb
  have hplan := Plan.Confined.ofBuiltin b args.length
  rw [eq_false hsees] at hplan
  refine Constant.exists_bind ⟨_, .poll⟩ fun _ =>
    Constant.exists_bind (hplan.exists_constant (exists_constant_get h)) fun v => ?_
  exact Constant.exists_bind ⟨_, .record id v⟩ fun _ => ⟨_, .pure v⟩

end Expr

end Formula
