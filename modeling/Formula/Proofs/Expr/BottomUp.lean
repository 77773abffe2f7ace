import Formula.Expr.Fold
import Formula.Proofs.Expr.Nodes
import Mathlib.Data.List.Forall2

/-!
# Folding from the bottom up

Folding rebuilds a node from its folded parts and then settles it: a node that is made of literals
is replaced by its value, if it has one.  So what rebuilding and settling keep, folding keeps,
whatever the functions are and whatever they do to the world of the host (`fold_rec`).
-/

namespace Formula.Expr

variable {scope : Scope} {host : Host}

/-! ## Settling a node -/

/-- What a node is reduced to that has some value or none. -/
def reduced (e : Expr) : Outcome Value → Expr
  | .ok v => literal v
  | .error _ => e

/-- A node is reduced to its value if it has one, and the world of the host is that of the
evaluation. -/
theorem run_reduce {e : Expr} {r : Outcome Value} {s : EvalState}
    (h : (evaluate e).exec { scope } { host } = (r, s)) :
    (reduce scope e).run host = (reduced e r, s.host) := by
  unfold reduce
  simp only [StateT.run_bind, StateT.run_get, pure_bind, h, StateT.run_set]
  cases r <;> rfl

/-- Whether a node is made of literals, so that it can be replaced by its value. -/
def isReducible : Expr → Bool
  | unary _ e => e.isLiteral
  | binary _ l r => l.isLiteral && r.isLiteral
  | call _ f args => f.isFoldable && args.all isLiteral
  | _ => false

/-- What folding does with a node that was rebuilt from its folded parts. -/
def settle (scope : Scope) (e : Expr) : StateM Host Expr :=
  if e.isReducible then reduce scope e else return e

theorem run_settle_of_isReducible {e : Expr} {r : Outcome Value} {s : EvalState}
    (h : e.isReducible = true) (hrun : (evaluate e).exec { scope } { host } = (r, s)) :
    (settle scope e).run host = (reduced e r, s.host) := by
  rw [settle, if_pos h, run_reduce hrun]

theorem run_settle_of_not_isReducible {e : Expr} (h : e.isReducible = false) :
    (settle scope e).run host = (e, host) := by
  rw [settle, if_neg (Bool.eq_false_iff.mp h)]
  rfl

/-- A settled node is the value of the node, or the node itself where there is none to be had. -/
theorem settle_cases {motive : Expr → Prop} {e : Expr}
    (kept : (e.isReducible = true → ∃ error s,
      (evaluate e).exec { scope } { host } = (.error error, s)) → motive e)
    (value : e.isReducible = true → ∀ v s, (evaluate e).exec { scope } { host } = (.ok v, s) →
      motive (literal v)) : motive ((settle scope e).run host).1 := by
  cases h : e.isReducible with
  | false =>
    rw [run_settle_of_not_isReducible h]
    exact kept fun htrue => absurd htrue (by rw [h]; exact Bool.false_ne_true)
  | true =>
    rcases hrun : (evaluate e).exec { scope } { host } with ⟨v | error, s⟩
    · rw [run_settle_of_isReducible h hrun]
      exact kept fun _ => ⟨_, _, hrun⟩
    · rw [run_settle_of_isReducible h hrun]
      exact value h _ _ hrun

/-! ## Whole expressions -/

/-- Steps with the same names, and keys of which one is folded to the other. -/
structure FoldedStep (Folded : Expr → Expr → Prop) (s s' : Step Expr) : Prop where
  name_eq : s'.name = s.name
  listed_eq : s'.listed = s.listed
  keys : List.Forall₂ Folded s.keys s'.keys

section
variable {Folded Rebuilt : Expr → Expr → Prop}

/-- Expressions are folded one after another, each in the world that the one before left. -/
theorem forall₂_foldAll {es : List Expr}
    (h : ∀ e ∈ es, ∀ host, Folded e ((fold scope e).run host).1) (host : Host) :
    List.Forall₂ Folded es ((foldAll scope es).run host).1 := by
  induction es generalizing host with
  | nil => exact .nil
  | cons e es ih =>
    obtain ⟨he, hes⟩ := List.forall_mem_cons.mp h
    exact .cons (he host) (ih hes _)

/-- So are the keys of steps, whose names stay. -/
theorem forall₂_foldSteps {steps : List (Step Expr)}
    (h : ∀ s ∈ steps, ∀ e ∈ s.keys, ∀ host, Folded e ((fold scope e).run host).1) (host : Host) :
    List.Forall₂ (FoldedStep Folded) steps ((foldSteps scope steps).run host).1 := by
  induction steps generalizing host with
  | nil => exact .nil
  | cons s steps ih =>
    obtain ⟨hs, hsteps⟩ := List.forall_mem_cons.mp h
    exact .cons ⟨rfl, rfl, forall₂_foldAll hs host⟩ (ih hsteps _)

/-- What holds between a node and the same node rebuilt from folded parts, and then between the node
and what it is settled to, holds between an expression and what it is folded to.  A path is folded
to itself with folded keys. -/
theorem fold_rec
    (settled : ∀ e e' host, Rebuilt e e' → Folded e ((settle scope e').run host).1)
    (literal : ∀ v, Rebuilt (.literal v) (.literal v))
    (unary : ∀ op e e', Folded e e' → Rebuilt (.unary op e) (.unary op e'))
    (binary : ∀ op l l' r r', Folded l l' → Folded r r' →
      Rebuilt (.binary op l r) (.binary op l' r'))
    (call : ∀ id f args args', List.Forall₂ Folded args args' →
      Rebuilt (.call id f args) (.call id f args'))
    (var : ∀ id name index index', List.Forall₂ Folded index index' →
      Rebuilt (.var id name index) (.var id name index'))
    (path : ∀ id steps steps' text host, List.Forall₂ (FoldedStep Folded) steps steps' →
      ((fold scope (.path id steps text)).run host).1 = .path id steps' text →
      Rebuilt (.path id steps text) (.path id steps' text))
    (e : Expr) (host : Host) : Folded e ((fold scope e).run host).1 := by
  induction e generalizing host with
  | literal v => exact settled _ _ host (literal v)
  | unary op e ih => exact settled _ _ ((fold scope e).run host).2 (unary op _ _ (ih host))
  | binary op l r ihl ihr => exact settled _ _ _ (binary op _ _ _ _ (ihl host) (ihr _))
  | call id f args ih =>
    exact settled _ _ ((foldAll scope args).run host).2 (call id f _ _ (forall₂_foldAll ih host))
  | var id name index ih =>
    exact settled _ _ ((foldAll scope index).run host).2
      (var id name _ _ (forall₂_foldAll ih host))
  | path id steps text ih =>
    exact settled _ _ ((foldSteps scope steps).run host).2
      (path id _ _ text host (forall₂_foldSteps ih host) rfl)

end

end Formula.Expr
