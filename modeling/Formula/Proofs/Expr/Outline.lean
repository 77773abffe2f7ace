import Formula.Proofs.Expr.BottomUp

/-!
# What folding leaves in an expression

Whatever the functions of a formula are, folding puts nothing into it that was not there, and takes
nothing out that depends on more than its operands.  The outline of a node is all of it but the
operands themselves.  The outlines of a folded expression are some of those of the expression, in
the same order; those of all variables and paths are among them, and of all calls that depend on
more than their arguments (`leaves_fold`).
-/

namespace Formula

/-- A step of a path without its keys: its name, whether a list was written, and how many keys are
in it. -/
def Step.outline (s : Step Expr) : String × Bool × Nat := (s.name, s.listed, s.keys.length)

namespace Expr

/-! ## Outlines of nodes -/

/-- A call, a variable or a path without its operands, of which only the number is kept. -/
inductive Outline where
  | call (id : Nat) (f : FunctionDef) (count : Nat)
  | var (id : Nat) (name : String) (count : Nat)
  | path (id : Nat) (steps : List (String × Bool × Nat)) (text : String)

/-- The outline of a node. -/
def outline? : Expr → Option Outline
  | call id f args => some (.call id f args.length)
  | var id name index => some (.var id name index.length)
  | path id steps text => some (.path id (steps.map Step.outline) text)
  | _ => none

/-- The outlines of some nodes, in order. -/
def outlinesOf (nodes : List Expr) : List Outline := nodes.filterMap outline?

/-- Whether the value of a node depends on more than its operands: it is a variable or a path, or a
call of a function that is volatile or sees the data. -/
def Outline.isLive : Outline → Bool
  | .call _ f _ => f.volatile || f.implementation.isContextual
  | .var _ _ _ | .path _ _ _ => true

theorem outlinesOf_append (nodes nodes' : List Expr) :
    outlinesOf (nodes ++ nodes') = outlinesOf nodes ++ outlinesOf nodes' := List.filterMap_append

/-! ## Items that are left of others -/

/-- Items that are left of others: some of them, with all that are live. -/
structure Leaves {α : Type} (live : α → Bool) (items items' : List α) : Prop where
  sublist : items'.Sublist items
  live_eq : items'.filter live = items.filter live

namespace Leaves

variable {α β : Type} {live : α → Bool} {items items' others others' : List α}

theorem refl (items : List α) : Leaves live items items := ⟨List.Sublist.refl _, rfl⟩

theorem cons (h : Leaves live items items') (item : α) :
    Leaves live (item :: items) (item :: items') := by
  refine ⟨h.sublist.cons_cons item, ?_⟩
  rw [List.filter_cons, List.filter_cons, h.live_eq]

theorem append (h : Leaves live items items') (h' : Leaves live others others') :
    Leaves live (items ++ others) (items' ++ others') := by
  refine ⟨h.sublist.append h'.sublist, ?_⟩
  rw [List.filter_append, List.filter_append, h.live_eq, h'.live_eq]

/-- Nothing is left of items none of which is live. -/
theorem none (h : items.filter live = []) : Leaves live items [] := ⟨List.nil_sublist _, h.symm⟩

/-- What is left may be looked at in another way, if that tells which items are live. -/
theorem map {f : α → β} {live' : β → Bool} (hlive : ∀ a, live' (f a) = live a)
    (h : Leaves live items items') : Leaves live' (items.map f) (items'.map f) := by
  refine ⟨h.sublist.map f, ?_⟩
  rw [List.filter_map, List.filter_map, funext (f := live' ∘ f) hlive, h.live_eq]

end Leaves

/-! ## Nodes made of literals -/

/-- A literal has no outline. -/
theorem outlinesOf_of_isLiteral {e : Expr} (h : e.isLiteral = true) : outlinesOf e.nodes = [] := by
  cases e with
  | literal v => rfl
  | _ => cases h

/-- So literals in a list have none. -/
theorem outlinesOf_nodesOfAll_of_isLiteral {es : List Expr} (h : es.all isLiteral = true) :
    outlinesOf (nodesOfAll es) = [] := by
  induction es with
  | nil => rfl
  | cons e es ih =>
    rw [List.all_cons, Bool.and_eq_true] at h
    rw [nodesOfAll, outlinesOf_append, outlinesOf_of_isLiteral h.1, ih h.2, List.append_nil]

/-- A node that can be replaced by its value has nothing live in it. -/
theorem live_of_isReducible {e : Expr} (h : e.isReducible = true) :
    (outlinesOf e.nodes).filter Outline.isLive = [] := by
  cases e with
  | unary op e =>
    show (outlinesOf e.nodes).filter Outline.isLive = []
    rw [outlinesOf_of_isLiteral h]
    rfl
  | binary op l r =>
    obtain ⟨hl, hr⟩ := Bool.and_eq_true_iff.mp h
    show (outlinesOf (l.nodes ++ r.nodes)).filter Outline.isLive = []
    rw [outlinesOf_append, outlinesOf_of_isLiteral hl, outlinesOf_of_isLiteral hr]
    rfl
  | call id f args =>
    obtain ⟨hfoldable, hargs⟩ := Bool.and_eq_true_iff.mp h
    have hlive : (f.volatile || f.implementation.isContextual) = false := by
      rwa [FunctionDef.isFoldable, ← Bool.not_or, Bool.not_eq_true'] at hfoldable
    show (Outline.call id f args.length :: outlinesOf (nodesOfAll args)).filter Outline.isLive = []
    rw [outlinesOf_nodesOfAll_of_isLiteral hargs, List.filter_cons_of_neg]
    · rfl
    · rw [Outline.isLive, hlive]
      exact Bool.false_ne_true
  | _ => cases h

/-! ## Folded expressions -/

/-- Whether an expression has outlines that are left of those of another. -/
def LeftOf (e e' : Expr) : Prop :=
  Leaves Outline.isLive (outlinesOf e.nodes) (outlinesOf e'.nodes)

/-- In a list, outlines are left of others if they are so in each element. -/
theorem leaves_nodesOfAll {es es' : List Expr} (h : List.Forall₂ LeftOf es es') :
    Leaves Outline.isLive (outlinesOf (nodesOfAll es)) (outlinesOf (nodesOfAll es')) := by
  induction h with
  | nil => exact .refl _
  | cons he _ ih =>
    rw [nodesOfAll, nodesOfAll, outlinesOf_append, outlinesOf_append]
    exact .append he ih

/-- Steps keep their outlines, and those in their keys are left of others if they are so in each
key. -/
theorem leaves_nodesOfSteps {steps steps' : List (Step Expr)}
    (h : List.Forall₂ (FoldedStep LeftOf) steps steps') :
    steps'.map Step.outline = steps.map Step.outline ∧
      Leaves Outline.isLive (outlinesOf (nodesOfSteps steps))
        (outlinesOf (nodesOfSteps steps')) := by
  induction h with
  | nil => exact ⟨rfl, .refl _⟩
  | @cons s s' _ _ hs _ ih =>
    obtain ⟨houtlines, hrest⟩ := ih
    have houtline : s'.outline = s.outline := by
      rw [Step.outline, hs.name_eq, hs.listed_eq, ← hs.keys.length_eq, Step.outline]
    refine ⟨by rw [List.map_cons, List.map_cons, houtline, houtlines], ?_⟩
    rw [nodesOfSteps, nodesOfSteps, outlinesOf_append, outlinesOf_append]
    exact (leaves_nodesOfAll hs.keys).append hrest

/-- Folding leaves outlines, by induction on the expression: a node that is replaced by a value was
made of literals and is not live itself, so nothing live goes with it. -/
theorem leaves_fold (scope : Scope) (e : Expr) (host : Host) :
    LeftOf e ((fold scope e).run host).1 := by
  refine @fold_rec scope LeftOf LeftOf ?_ (fun _ => .refl _) (fun _ _ _ h => h) ?_ ?_ ?_ ?_ e host
  · intro e e' host h
    refine settle_cases (fun _ => h) fun hreducible _ _ _ => .none ?_
    rw [← h.live_eq, live_of_isReducible hreducible]
  · intro op l l' r r' hl hr
    show Leaves Outline.isLive (outlinesOf (l.nodes ++ r.nodes)) (outlinesOf (l'.nodes ++ r'.nodes))
    rw [outlinesOf_append, outlinesOf_append]
    exact .append hl hr
  · intro id f args args' h
    show Leaves Outline.isLive (.call id f args.length :: outlinesOf (nodesOfAll args))
      (.call id f args'.length :: outlinesOf (nodesOfAll args'))
    rw [h.length_eq]
    exact (leaves_nodesOfAll h).cons _
  · intro id name index index' h
    show Leaves Outline.isLive (.var id name index.length :: outlinesOf (nodesOfAll index))
      (.var id name index'.length :: outlinesOf (nodesOfAll index'))
    rw [h.length_eq]
    exact (leaves_nodesOfAll h).cons _
  · intro id steps steps' text _ h _
    obtain ⟨houtlines, hleaves⟩ := leaves_nodesOfSteps h
    show Leaves Outline.isLive
      (.path id (steps.map Step.outline) text :: outlinesOf (nodesOfSteps steps))
      (.path id (steps'.map Step.outline) text :: outlinesOf (nodesOfSteps steps'))
    rw [houtlines]
    exact hleaves.cons _

end Expr

end Formula
