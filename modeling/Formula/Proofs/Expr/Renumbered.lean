import Formula.Proofs.Expr.Nodes
import Mathlib.Data.List.Forall2

/-!
# Expressions with other numbers

Numbers tell the nodes of one expression apart and mean nothing beyond it.  Expressions match when
they are the same but for their numbers; then their parts match too.
-/

namespace Formula.Expr

mutual

/-- The expression with other numbers for its calls, variables and paths. -/
def renumber (f : Nat → Nat) : Expr → Expr
  | literal v => literal v
  | unary op e => unary op (renumber f e)
  | binary op l r => binary op (renumber f l) (renumber f r)
  | call id g args => call (f id) g (renumberAll f args)
  | var id name index => var (f id) name (renumberAll f index)
  | path id steps text => path (f id) (renumberSteps f steps) text

/-- Expressions with other numbers. -/
def renumberAll (f : Nat → Nat) : List Expr → List Expr
  | [] => []
  | e :: es => renumber f e :: renumberAll f es

/-- Steps with keys with other numbers. -/
def renumberSteps (f : Nat → Nat) : List (Step Expr) → List (Step Expr)
  | [] => []
  | ⟨name, listed, keys⟩ :: steps => ⟨name, listed, renumberAll f keys⟩ :: renumberSteps f steps

end

/-- Renumbering a list is renumbering its elements. -/
theorem renumberAll_eq_map (f : Nat → Nat) (es : List Expr) :
    renumberAll f es = es.map (renumber f) := by
  induction es with
  | nil => rfl
  | cons e es ih => rw [renumberAll, ih, List.map_cons]

/-- Renumbering steps is renumbering their keys. -/
theorem renumberSteps_eq_map (f : Nat → Nat) (steps : List (Step Expr)) :
    renumberSteps f steps = steps.map fun s => { s with keys := s.keys.map (renumber f) } := by
  induction steps with
  | nil => rfl
  | cons s steps ih => rw [renumberSteps, ih, renumberAll_eq_map, List.map_cons]

/-- Numbers that are changed twice are changed once. -/
theorem renumber_renumber (f g : Nat → Nat) (e : Expr) :
    (e.renumber f).renumber g = e.renumber (g ∘ f) := by
  have hall : ∀ {es : List Expr},
      (∀ e ∈ es, (e.renumber f).renumber g = e.renumber (g ∘ f)) →
      renumberAll g (renumberAll f es) = renumberAll (g ∘ f) es := by
    intro es h
    simp only [renumberAll_eq_map, List.map_map]
    exact List.map_congr_left h
  induction e with
  | literal v => rfl
  | unary op e ih => exact congrArg (unary op) ih
  | binary op l r ihl ihr => exact congrArg₂ (binary op) ihl ihr
  | call id f' args ih => exact congrArg (call _ f') (hall ih)
  | var id name index ih => exact congrArg (var _ name) (hall ih)
  | path id steps text ih =>
    refine congrArg (path _ · text) ?_
    simp only [renumberSteps_eq_map, List.map_map]
    refine List.map_congr_left fun s hs => ?_
    have hkeys := hall (ih s hs)
    simp only [renumberAll_eq_map] at hkeys
    exact congrArg (Step.mk s.name s.listed) hkeys

/-- Numbers that are changed to themselves. -/
theorem renumber_id (e : Expr) : e.renumber id = e := by
  have hall : ∀ {es : List Expr}, (∀ e ∈ es, e.renumber id = e) → renumberAll id es = es := by
    intro es h
    rw [renumberAll_eq_map, List.map_congr_left h, List.map_id']
  induction e with
  | literal v => rfl
  | unary op e ih => exact congrArg (unary op) ih
  | binary op l r ihl ihr => exact congrArg₂ (binary op) ihl ihr
  | call n f args ih => exact congrArg (call n f) (hall ih)
  | var n name index ih => exact congrArg (var n name) (hall ih)
  | path n steps text ih =>
    refine congrArg (path n · text) ?_
    have hsteps : ∀ s ∈ steps, { s with keys := s.keys.map (renumber id) } = s := by
      intro s hs
      have hkeys := hall (ih s hs)
      rw [renumberAll_eq_map] at hkeys
      exact congrArg (Step.mk s.name s.listed) hkeys
    rw [renumberSteps_eq_map, List.map_congr_left hsteps, List.map_id']

/-! ## The same but for numbers -/

/-- Whether expressions are the same but for their numbers. -/
def Matches (e e' : Expr) : Prop := e.renumber (fun _ => 0) = e'.renumber fun _ => 0

namespace Matches

theorem refl (e : Expr) : e.Matches e := rfl

theorem renumber (f : Nat → Nat) (e : Expr) : e.Matches (e.renumber f) :=
  (renumber_renumber f (fun _ => 0) e).symm

variable {e e' e'' : Expr}

theorem symm (h : e.Matches e') : e'.Matches e := Eq.symm h

theorem trans (h : e.Matches e') (h' : e'.Matches e'') : e.Matches e'' := Eq.trans h h'

/-- Lists that are the same but for numbers have items that are. -/
theorem forall₂ {es es' : List Expr}
    (h : renumberAll (fun _ => 0) es = renumberAll (fun _ => 0) es') :
    List.Forall₂ Matches es es' := by
  rw [renumberAll_eq_map, renumberAll_eq_map, ← List.forall₂_eq_eq_eq, List.forall₂_map_left_iff,
    List.forall₂_map_right_iff] at h
  exact h

end Matches

/-- Two steps that are the same but for the numbers in their keys. -/
structure MatchesStep (s s' : Step Expr) : Prop where
  name_eq : s.name = s'.name
  keys : List.Forall₂ Matches s.keys s'.keys

/-- Steps that are the same but for numbers match one by one. -/
theorem forall₂_matchesStep {steps steps' : List (Step Expr)}
    (h : renumberSteps (fun _ => 0) steps = renumberSteps (fun _ => 0) steps') :
    List.Forall₂ MatchesStep steps steps' := by
  rw [renumberSteps_eq_map, renumberSteps_eq_map, ← List.forall₂_eq_eq_eq,
    List.forall₂_map_left_iff, List.forall₂_map_right_iff] at h
  refine h.imp fun s s' hs => ?_
  obtain ⟨hname, -, hkeys⟩ := Step.mk.inj hs
  refine ⟨hname, Matches.forall₂ ?_⟩
  rw [renumberAll_eq_map, renumberAll_eq_map]
  exact hkeys

/-- Steps that match have the same names. -/
theorem names_eq {steps steps' : List (Step Expr)} (h : List.Forall₂ MatchesStep steps steps') :
    steps.map (·.name) = steps'.map (·.name) := by
  induction h with
  | nil => rfl
  | cons hs _ ih => rw [List.map_cons, List.map_cons, hs.name_eq, ih]

/-- Items of lists with related items are related as members of these lists. -/
theorem forall₂_mem {α β : Type} {R : α → β → Prop} {as : List α} {bs : List β}
    (h : List.Forall₂ R as bs) :
    List.Forall₂ (fun a b => (a ∈ as ∧ b ∈ bs) ∧ R a b) as bs := by
  obtain ⟨hlength, hzip⟩ := List.forall₂_iff_zip.mp h
  exact List.forall₂_iff_zip.mpr ⟨hlength, fun hmem => ⟨List.of_mem_zip hmem, hzip hmem⟩⟩

end Formula.Expr
