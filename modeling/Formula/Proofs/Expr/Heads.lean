import Formula.Proofs.Expr.Outline

/-!
# The heads of what folding leaves

The heads of nodes are told by their outlines.  So the calls, variables and paths of a folded
expression are some of those of the expression, in the same order and with as many operands
(`sublist_fold`); all variables and paths are among them, and all calls that cannot be folded
(`live_fold`).
-/

namespace Formula.Expr

/-- Whether the value of a node depends on more than its operands. -/
def Head.isLive : Head → Bool
  | .call _ f _ => !f.isFoldable
  | .refers _ => true

/-- The head of a node with an outline. -/
def Outline.head : Outline → Head
  | .call id f count => .call id f count
  | .var id name _ => .refers (.var id name)
  | .path id steps _ => .refers (.path id (steps.map (·.1)))

/-- A node is live or not by its head alone. -/
theorem Outline.isLive_head (o : Outline) : o.head.isLive = o.isLive := by
  cases o with
  | call id f count =>
    show (!(!f.volatile && !f.implementation.isContextual)) = _
    rw [← Bool.not_or, Bool.not_not]
    rfl
  | _ => rfl

/-- The heads of some nodes are those of their outlines, in the same order. -/
theorem headsOf_eq_map (nodes : List Expr) :
    headsOf nodes = (outlinesOf nodes).map Outline.head := by
  rw [headsOf, outlinesOf, List.map_filterMap]
  congr 1
  funext node
  cases node with
  | path id steps text =>
    show some (Head.refers (.path id (steps.map (·.name)))) =
      some (.refers (.path id ((steps.map Step.outline).map (·.1))))
    rw [List.map_map]
    rfl
  | _ => rfl

theorem leaves_heads_fold (scope : Scope) (e : Expr) (host : Host) :
    Leaves Head.isLive (headsOf e.nodes) (headsOf ((fold scope e).run host).1.nodes) := by
  rw [headsOf_eq_map, headsOf_eq_map]
  exact (leaves_fold scope e host).map Outline.isLive_head

/-- The heads of a folded expression are among those of the expression, in the same order. -/
theorem sublist_fold (scope : Scope) (e : Expr) (host : Host) :
    (headsOf ((fold scope e).run host).1.nodes).Sublist (headsOf e.nodes) :=
  (leaves_heads_fold scope e host).sublist

/-- Whatever depends on more than its operands stays. -/
theorem live_fold (scope : Scope) (e : Expr) (host : Host) :
    (headsOf ((fold scope e).run host).1.nodes).filter Head.isLive =
      (headsOf e.nodes).filter Head.isLive := (leaves_heads_fold scope e host).live_eq

/-- What some nodes refer to is told by their live heads. -/
theorem referencesOf_eq (nodes : List Expr) :
    referencesOf nodes = ((headsOf nodes).filter Head.isLive).filterMap fun
      | .refers r => some r
      | .call _ _ _ => none := by
  rw [referencesOf, headsOf, List.filterMap_filter, List.filterMap_filterMap]
  congr
  funext node
  cases node with
  | call id f args => exact (ite_self none).symm
  | _ => rfl

/-- A folded expression refers to the same variables and paths. -/
theorem referencesOf_fold (scope : Scope) (e : Expr) (host : Host) :
    referencesOf ((fold scope e).run host).1.nodes = referencesOf e.nodes := by
  rw [referencesOf_eq, referencesOf_eq, live_fold]

end Formula.Expr
