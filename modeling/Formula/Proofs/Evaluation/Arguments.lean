import Formula.Proofs.Evaluation.Exec
import Formula.Proofs.Expr.Nodes

/-!
# Arguments of calls

What a function does with its arguments is a plan.  A plan that asks for one argument after another
evaluates them in this order and goes on with their values (`Expr.run_valuesFrom`), and a call that
was not stopped has the outcome of its plan (`Expr.outcome_call`).
-/

namespace Formula

/-! ## Plans -/

namespace Plan

variable {α β : Type} {args : List Argument}

/-- What goes on with the result of a plan is carried out after it. -/
theorem run_bind (p : Plan α) (f : α → Plan β) :
    (p >>= f).run args = p.run args >>= fun a => (f a).run args := by
  induction p with
  | done a => exact (pure_bind a fun a => (f a).run args).symm
  | fail e => rfl
  | argument i next ih | argumentOrEmpty i next ih =>
    show (_ >>= fun v => (next v >>= f).run args) = (_ >>= fun v => (next v).run args) >>= _
    simp only [ih, bind_assoc]
  | poll next ih | cancel token next ih =>
    show (_ >>= fun _ => (next () >>= f).run args) = (_ >>= fun _ => (next ()).run args) >>= _
    simp only [ih, bind_assoc]
  | askMode next ih =>
    show (_ >>= fun r : Run => (next r.mode >>= f).run args) =
      (_ >>= fun r : Run => (next r.mode).run args) >>= _
    simp only [ih, bind_assoc]
  | askScope next ih =>
    show (_ >>= fun r : Run => (next r.scope >>= f).run args) =
      (_ >>= fun r : Run => (next r.scope).run args) >>= _
    simp only [ih, bind_assoc]
  | source i next ih => exact ih _
  | tally next ih =>
    show (_ >>= fun _ => _ >>= fun s : EvalState => (next s.host.calls >>= f).run args) =
      (_ >>= fun _ => _ >>= fun s : EvalState => (next s.host.calls).run args) >>= _
    simp only [ih, bind_assoc]

/-- A plan that comes to a result goes on with it. -/
theorem exec_run_bind {p : Plan α} (f : α → Plan β) {run : Run} {s t : EvalState} {a : α}
    (h : (p.run args).exec run s = (.ok a, t)) :
    ((p >>= f).run args).exec run s = ((f a).run args).exec run t := by
  rw [run_bind, Eval.exec_bind, h]

theorem run_ofOutcome (r : Outcome α) : (ofOutcome r).run args = Eval.ofOutcome r := by
  cases r <;> rfl

end Plan

namespace Expr

/-! ## Asking for arguments -/

variable {α : Type}

/-- Behind so many arguments, the next one is the expression that stands there. -/
theorem get_arguments (before : List Expr) (e : Expr) (es : List Expr) :
    Argument.get (arguments (before ++ e :: es)) before.length = e.evaluate := by
  rw [Argument.get, arguments_eq_map, List.getElem?_map, List.getElem?_append_right (Nat.le_refl _),
    Nat.sub_self]
  rfl

/-- A plan that asks for all arguments from some number on evaluates them in order. -/
theorem run_valuesFrom (next : List Value → Plan α) (vs : List Value) (before es : List Expr) :
    (Plan.valuesFrom next es.length before.length vs).run (arguments (before ++ es)) =
      es.mapM evaluate >>= fun ws => (next (vs.reverse ++ ws)).run (arguments (before ++ es)) := by
  induction es generalizing vs before with
  | nil => simp [Plan.valuesFrom]
  | cons e es ih =>
    have hrest (v : Value) := ih (v :: vs) (before ++ [e])
    simp only [List.append_assoc, List.singleton_append, List.length_append,
      List.length_singleton, List.reverse_cons] at hrest
    rw [List.length_cons, Plan.valuesFrom, Plan.run, get_arguments, List.mapM_cons, bind_assoc]
    simp only [hrest, bind_assoc, pure_bind]

theorem run_items (es : List Expr) : (Plan.items es.length).run (arguments es) =
    es.mapM evaluate >>= fun vs => pure (vs.flatMap Plan.itemsOf) :=
  run_valuesFrom (fun vs => Plan.done (vs.flatMap Plan.itemsOf)) [] [] es

theorem run_array (es : List Expr) :
    (Plan.array es.length).run (arguments es) = es.mapM evaluate >>= fun vs => pure (.array vs) :=
  run_valuesFrom (fun vs => Plan.done (Value.array vs)) [] [] es

/-! ## One argument -/

theorem exec_value?_none {es : List Expr} {i : Nat} (hi : es.length ≤ i) (run : Run)
    (s : EvalState) :
    ((Plan.value? es.length i).run (arguments es)).exec run s = (.ok none, s) := by
  rw [Plan.value?, if_neg (Nat.not_lt.mpr hi)]
  rfl

section
variable {run : Run} {s t : EvalState} {es : List Expr} {i : Nat} {e : Expr} {v : Value}
  (he : es[i]? = some e) (h : e.evaluate.exec run s = (.ok v, t))
include he

theorem get_arguments_getElem? : Argument.get (arguments es) i = e.evaluate := by
  rw [Argument.get, arguments_eq_map, List.getElem?_map, he]
  rfl

include h

/-- An argument that is there is evaluated and its value is given. -/
theorem exec_value? :
    ((Plan.value? es.length i).run (arguments es)).exec run s = (.ok (some v), t) := by
  have hi : i < es.length := (List.getElem?_eq_some_iff.mp he).1
  rw [Plan.value?, if_pos hi, Plan.run, get_arguments_getElem? he, Eval.exec_bind, h]
  rfl

theorem exec_text :
    ((Plan.text i).run (arguments es)).exec run s = (.ok v.toText.toList, t) := by
  rw [Plan.text, Plan.run, get_arguments_getElem? he, Eval.exec_bind, h]
  rfl

/-- An argument as a number is its value converted, after which the state is that of the
argument. -/
theorem exec_number : ((Plan.number i).run (arguments es)).exec run s = (v.asNumber, t) := by
  rw [Plan.number, Plan.run, get_arguments_getElem? he, Eval.exec_bind, h]
  dsimp only
  rw [Plan.run_ofOutcome, Eval.exec_ofOutcome]

theorem exec_numberOr (default : Float) :
    ((Plan.numberOr es.length i default).run (arguments es)).exec run s = (v.asNumber, t) := by
  have hi : i < es.length := (List.getElem?_eq_some_iff.mp he).1
  rw [Plan.numberOr, if_pos hi, exec_number he h]

end

/-! ## Calls -/

/-- The values of the arguments of a call, which polls before. -/
def argumentValues (es : List Expr) : Eval (List Value) := do
  Eval.poll
  es.mapM evaluate

section
variable {run : Run} {s t u : EvalState} {e : Expr} {es : List Expr} {v : Value} {vs : List Value}

/-- Arguments with values have them one after another. -/
theorem exec_mapM_ok_cons (h : ((e :: es).mapM evaluate).exec run s = (.ok (v :: vs), u)) :
    ∃ t, e.evaluate.exec run s = (.ok v, t) ∧ (es.mapM evaluate).exec run t = (.ok vs, u) := by
  rw [List.mapM_cons] at h
  obtain ⟨w, t, hfirst, hrest⟩ := Eval.exec_bind_ok h
  obtain ⟨ws, u', hws, hcons⟩ := Eval.exec_bind_ok hrest
  cases hcons
  exact ⟨t, hfirst, hws⟩

/-- If the arguments have values, the run did not stop at the poll before them. -/
theorem exec_of_argumentValues (h : (argumentValues es).exec run s = (.ok vs, u)) :
    (run.poll s).1 = false ∧ (es.mapM evaluate).exec run (run.poll s).2 = (.ok vs, u) := by
  rw [argumentValues, Eval.exec_polled] at h
  cases hstop : (run.poll s).1 with
  | true => rw [hstop] at h; cases h
  | false => rw [hstop] at h; exact ⟨rfl, h⟩

/-- If three arguments have values, each was evaluated in the state that the one before left. -/
theorem exec_of_argumentValues_three {e₀ e₁ e₂ : Expr} {v₀ v₁ v₂ : Value}
    (h : (argumentValues [e₀, e₁, e₂]).exec run s = (.ok [v₀, v₁, v₂], u)) :
    (run.poll s).1 = false ∧ ∃ t₀ t₁, e₀.evaluate.exec run (run.poll s).2 = (.ok v₀, t₀) ∧
      e₁.evaluate.exec run t₀ = (.ok v₁, t₁) ∧ e₂.evaluate.exec run t₁ = (.ok v₂, u) := by
  obtain ⟨hgo, h⟩ := exec_of_argumentValues h
  obtain ⟨t₀, h₀, h⟩ := exec_mapM_ok_cons h
  obtain ⟨t₁, h₁, h⟩ := exec_mapM_ok_cons h
  obtain ⟨t₂, h₂, h⟩ := exec_mapM_ok_cons h
  obtain rfl : t₂ = u := congrArg Prod.snd h
  exact ⟨hgo, t₀, t₁, h₀, h₁, h₂⟩

/-- A call that goes on has the outcome of its plan. -/
theorem outcome_call (id : Nat) (f : FunctionDef) (hgo : (run.poll s).1 = false) :
    ((call id f es).evaluate.exec run s).1 =
      (((f.implementation.plan es.length).run (arguments es)).exec run (run.poll s).2).1 := by
  rw [evaluate, Eval.outcome_recorded, Eval.exec_polled, hgo]
  rfl

end

end Expr

end Formula
