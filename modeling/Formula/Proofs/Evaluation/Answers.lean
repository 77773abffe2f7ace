import Formula.Proofs.Evaluation.Arguments

/-!
# Outcomes by the values of arguments

A plan that asks for its arguments in order can be carried out on their values alone
(`Plan.onValues?`).  What it comes to is the outcome of every call whose arguments have these values
(`FunctionDef.computes_of_onValues?`).
-/

namespace Formula

/-! ## Plans on values -/

namespace Plan

variable {α β γ : Type}

/-- What a plan goes on with may be grouped in either way, by induction on the plan. -/
theorem bind_assoc (p : Plan α) (f : α → Plan β) (g : β → Plan γ) :
    (p >>= f) >>= g = p >>= fun a => f a >>= g := by
  induction p with
  | done | fail => rfl
  | argument i next ih | argumentOrEmpty i next ih | source i next ih =>
    exact congrArg _ (funext ih)
  | poll next ih | askMode next ih | askScope next ih | cancel token next ih | tally next ih =>
    exact congrArg _ (funext ih)

/-- What a plan comes to if it asks for its arguments in order, from number `i` on, and these have
some values. -/
def onValues? : Plan α → (i : Nat) → List Value → Option (Outcome α)
  | done a, _, _ => some (.ok a)
  | fail e, _, _ => some (.error e)
  | argument j next, i, v :: vs => if j = i then onValues? (next v) (i + 1) vs else none
  | _, _, _ => none

section
variable (f : List Char → Plan β) (g : Float → Plan β) (h : Option Value → Plan β)
  (i : Nat) (v : Value) (vs : List Value)

theorem onValues?_text :
    (text i >>= f).onValues? i (v :: vs) = (f v.toText.toList).onValues? (i + 1) vs :=
  if_pos rfl

theorem onValues?_value? {count : Nat} (hi : i < count) :
    (value? count i >>= h).onValues? i (v :: vs) = (h (some v)).onValues? (i + 1) vs := by
  rw [value?, if_pos hi]
  exact if_pos rfl

theorem onValues?_value?_none {count : Nat} (hi : ¬i < count) :
    (value? count i >>= h).onValues? i vs = (h none).onValues? i vs := by
  rw [value?, if_neg hi]
  rfl

variable {v} {x : Float} (hx : v.asNumber = .ok x)
include hx

/-- A plan that asks for a number goes on with the one that the next value converts to. -/
theorem onValues?_number :
    (number i >>= g).onValues? i (v :: vs) = (g x).onValues? (i + 1) vs := by
  have hask : (number i >>= g).onValues? i (v :: vs) =
      (ofOutcome v.asNumber >>= g).onValues? (i + 1) vs := if_pos rfl
  rw [hask, hx]
  rfl

theorem onValues?_numberOr {count : Nat} (hi : i < count) (default : Float) :
    (numberOr count i default >>= g).onValues? i (v :: vs) = (g x).onValues? (i + 1) vs := by
  rw [numberOr, if_pos hi, onValues?_number g i vs hx]

end

/-- A plan that asks for its arguments in order comes to the same where they are evaluated. -/
theorem outcome_run_of_onValues? {p : Plan α} {i : Nat} {vs : List Value} {r : Outcome α}
    (h : p.onValues? i vs = some r) {es : List Expr} {run : Run} {s u : EvalState}
    (hvalues : ((es.drop i).mapM Expr.evaluate).exec run s = (.ok vs, u)) :
    ((p.run (Expr.arguments es)).exec run s).1 = r := by
  induction p generalizing i vs s with
  | done a => exact Option.some.inj h
  | fail e => exact Option.some.inj h
  | argument j next ih =>
    cases vs with
    | nil => cases h
    | cons v vs =>
      rw [onValues?] at h
      split at h
      · next hj =>
        subst hj
        obtain ⟨e, rest, hdrop⟩ : ∃ e rest, es.drop j = e :: rest := by
          have hlength := Eval.length_of_exec_mapM hvalues
          cases hdrop : es.drop j with
          | nil => rw [hdrop] at hlength; cases hlength
          | cons e rest => exact ⟨e, rest, rfl⟩
        have he : es[j]? = some e := by
          have hhead : (es.drop j)[0]? = es[j + 0]? := List.getElem?_drop
          rw [hdrop] at hhead
          exact hhead.symm
        have hrest : es.drop (j + 1) = rest := by
          rw [← List.tail_drop, hdrop]
          rfl
        rw [hdrop] at hvalues
        obtain ⟨t, hfirst, hothers⟩ := Expr.exec_mapM_ok_cons hvalues
        rw [Plan.run, Expr.get_arguments_getElem? he, Eval.exec_bind, hfirst]
        exact ih v h (hrest ▸ hothers)
      · cases h
  | _ => cases h

end Plan

/-! ## Calls -/

/-- The values of literals. -/
theorem Expr.argumentValues_literals (vs : List Value) :
    (argumentValues (vs.map literal)).exec { scope := {} } {} = (.ok vs, {}) := by
  have hall : ((vs.map literal).mapM evaluate).exec { scope := {} } {} = (.ok vs, {}) := by
    induction vs with
    | nil => rfl
    | cons v vs ih =>
      have hv : (literal v).evaluate.exec { scope := {} } {} = (.ok v, {}) := rfl
      rw [List.map_cons, Eval.exec_mapM_cons, hv]
      dsimp only
      rw [ih]
      rfl
  exact hall

namespace FunctionDef

/-- Whether every call of a function whose arguments have some values has an outcome. -/
def Computes (f : FunctionDef) (vs : List Value) (r : Outcome Value) : Prop :=
  ∀ es run s u, (Expr.argumentValues es).exec run s = (.ok vs, u) →
    ∀ id, ((Expr.call id f es).evaluate.exec run s).1 = r

variable {f : FunctionDef} {vs : List Value} {r : Outcome Value}

/-- A function computes what its plan gives when the arguments are answered in order. -/
theorem computes_of_onValues?
    (h : (f.implementation.plan vs.length).onValues? 0 vs = some r) : f.Computes vs r := by
  intro es run s u hvalues id
  obtain ⟨hgo, hall⟩ := Expr.exec_of_argumentValues hvalues
  rw [Expr.outcome_call id f hgo, ← Eval.length_of_exec_mapM hall]
  exact Plan.outcome_run_of_onValues? h (u := u) hall

/-- Literals have their values, so there are such calls for all values. -/
theorem Computes.outcome_literals (h : f.Computes vs r) (id : Nat) :
    ((Expr.call id f (vs.map Expr.literal)).evaluate.exec { scope := {} } {}).1 = r :=
  h _ _ _ _ (Expr.argumentValues_literals vs) id

/-- There is one outcome for the values. -/
theorem Computes.unique (h : f.Computes vs r) {r' : Outcome Value} (h' : f.Computes vs r') :
    r' = r :=
  (h'.outcome_literals 0).symm.trans (h.outcome_literals 0)

end FunctionDef

end Formula
