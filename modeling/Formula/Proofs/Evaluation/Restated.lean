import Formula.Proofs.Evaluation.Afresh
import Formula.Proofs.Expr.Folding

/-!
# Expressions that restate others

One expression restates another if without a token it does the same, whatever handles the steps of
the two remember.  An expression put together like another from parts that restate those of the
other restates it; besides, a literal may be restated by whatever has its value at all times, and a
folded expression by what restates it unfolded.
-/

namespace Formula

theorem Run.Mirrors.refl (run : Run) : run.Mirrors run := ⟨rfl, rfl, .inr rfl⟩

namespace Expr

open Coupling (Repeats)
open Eval (Constant)

/-- Whether an expression does the same in a run as another one, whose steps have some names. -/
def Restates (good : Value → Prop) (names : Nat → Nat → String) (run : Run) (e e' : Expr) : Prop :=
  ∀ names', e'.StepsNamed names' →
    (Coupling.afresh good names names' (.refl run)).Repeats (fun _ => True) e e'

namespace Restates

variable {good : Value → Prop} {names : Nat → Nat → String} {run : Run} {e e' : Expr}

/-! ## Nodes -/

theorem unary {op : UnaryOp} (h : Restates good names run e e') :
    Restates good names run (.unary op e) (.unary op e') :=
  fun names' hnamed => .unary .any (h names' (hnamed.of_subset fun _ => mem_nodes_operand))

theorem binary {op : BinaryOp} {l l' r r' : Expr} (hl : Restates good names run l l')
    (hr : Restates good names run r r') :
    Restates good names run (.binary op l r) (.binary op l' r') :=
  fun names' hnamed => .binary .any (hl names' (hnamed.of_subset fun _ => mem_nodes_left))
    (hr names' (hnamed.of_subset fun _ => mem_nodes_right))

/-- A call of a built-in function restates one with arguments that are restated. -/
theorem call {id id' : Nat} {b : Builtin} {args args' : List Expr}
    (h : List.Forall₂ (Restates good names run) args args') :
    Restates good names run (.call id b.definition args) (.call id' b.definition args') := by
  intro names' hnamed
  refine .builtin (fun _ hb => nomatch hb) (fun _ _ _ _ _ _ => trivial) ?_
  refine (forall₂_mem h).imp fun a a' ha => ha.2 names' (hnamed.of_subset fun _ => ?_)
  exact mem_nodes_argument ha.1.2

/-- A variable restates one whose keys are restated. -/
theorem var {id id' : Nat} {name : String} {index index' : List Expr}
    (h : List.Forall₂ (Restates good names run) index index') :
    Restates good names run (.var id name index) (.var id' name index') := by
  intro names' hnamed
  refine .var .any (fun _ _ _ _ _ _ => trivial) (fun _ => trivial) ?_
  refine (forall₂_mem h).imp fun a a' ha => ha.2 names' (hnamed.of_subset fun _ => ?_)
  exact mem_nodes_index ha.1.2

/-- What is the same but for its numbers. -/
theorem of_matches (hgood : HandleContract good)
    (hroot : ∀ root, run.scope.context = some root → good root) (h : e.Matches e')
    (hcalls : e.CallsOnlyBuiltins) (hnamed : e.StepsNamed names) :
    Restates good names run e e' :=
  fun _ hnamed' => repeats_of_matches hgood (.refl run) hroot h hcalls hnamed hnamed'

section
variable (hrun : run.token = none)
include hrun

/-- What has the value of a literal at all times. -/
theorem of_constant {v : Value} (h : Constant (evaluate e') (.ok v)) :
    Restates good names run (.literal v) e' := by
  intro names' _ s t hst
  obtain ⟨recorded, hx⟩ := constant_literal v run s hrun
  obtain ⟨recorded', hy⟩ := h run t hrun
  exact .inl ⟨v, _, _, hx, hy, trivial, hst⟩

/-- What restates an expression restates what is left of it. -/
theorem of_keepsMeaning {e₀ : Expr} (hkeeps : KeepsMeaning e₀ e) (hcalls : e₀.CallsOnlyBuiltins)
    (h : Restates good names run e₀ e') : Restates good names run e e' := by
  intro names' hnamed' s t hst
  rcases hkeeps hcalls (s := s) (t := s) hrun ⟨rfl, rfl⟩ with
    ⟨v, s', s₀, hx, hx₀, -, hmemo, -⟩ | ⟨error, error₀, s', s₀, hx, hx₀, halike, hmemo, -⟩
  · rcases h names' hnamed' hst with ⟨a, s₁, t', hx₁, hy, -, hst'⟩ | ⟨error, s₁, hx₁, -⟩
    · cases hx₀.symm.trans hx₁
      refine .inl ⟨v, s', t', hx, hy, trivial, ⟨?_, .inl hrun⟩⟩
      rw [hmemo]
      exact hst'.1
    · cases hx₀.symm.trans hx₁
  · rcases h names' hnamed' hst with ⟨a, s₁, t', hx₁, -⟩ |
      ⟨error₁, s₁, hx₁, -, halone | ⟨error', t', hy, herrors, hst'⟩⟩
    · cases hx₀.symm.trans hx₁
    · cases hx₀.symm.trans hx₁
      refine .inr ⟨error, s', hx, trivial, .inl ?_⟩
      obtain rfl : error₀ = .cancelled := halone
      cases error <;> exact halike
    · cases hx₀.symm.trans hx₁
      refine .inr ⟨error, s', hx, trivial, .inr ⟨error', t', hy, ?_, ⟨?_, .inl hrun⟩⟩⟩
      · exact (Comparison.unprinted.bindingKind?_eq halike).trans herrors
      · rw [hmemo]
        exact hst'.1

end

/-! ## Values -/

/-- What an expression gives, what restates it gives too. -/
theorem exec_eq_ok {names' : Nat → Nat → String} {s t : EvalState} {v : Value}
    (h : Restates good names run e e') (hrun : run.token = none) (hnamed : e'.StepsNamed names')
    (hs : s.memo.IsValid good names) (ht : t.memo.IsValid good names')
    (hvalue : (e.evaluate.exec run s).1 = .ok v) : (e'.evaluate.exec run t).1 = .ok v := by
  have hst : (Coupling.afresh good names names' (.refl run)).states s t := ⟨⟨hs, ht⟩, .inl hrun⟩
  rcases h names' hnamed hst with ⟨a, s', t', hx, hy, -⟩ | ⟨error, s', hx, -⟩
  · have hy : e'.evaluate.exec run t = (.ok a, t') := hy
    rw [hy, ← hvalue]
    exact (congrArg Prod.fst hx).symm
  · cases hvalue.symm.trans (congrArg Prod.fst hx)

end Restates

end Expr

end Formula
