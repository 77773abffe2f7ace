import Formula.Proofs.Expr.Folding

/-!
# What is left to fold

Where a node of a folded expression is still made of literals, it has no value (`settled_fold`), so
there is nothing left to fold, and folding once more gives the same expression (`run_fold_eq_self`).
The functions are built in: others may have a value when they are called again.
-/

namespace Formula

namespace Expr

open Eval (Constant)

variable {scope : Scope} {host : Host}

/-! ## Settled nodes -/

/-- Whether folding leaves a node as it is when its operands are folded: it is not made of literals,
or it fails whenever it is evaluated. -/
def IsSettled (e : Expr) : Prop :=
  e.isReducible = true → ∃ error, Constant (evaluate e) (.error error)

theorem isSettled_of_not_isReducible {e : Expr} (h : e.isReducible = false) : e.IsSettled := by
  intro hreducible
  rw [h] at hreducible
  cases hreducible

/-- A node that has one result at all times is settled if it fails once. -/
theorem isSettled_of_exec {e : Expr}
    (hconstant : e.isReducible = true → ∃ r, Constant (evaluate e) r)
    (hfails : e.isReducible = true →
      ∃ error s, (evaluate e).exec { scope } { host } = (.error error, s)) : e.IsSettled := by
  intro hreducible
  obtain ⟨r, hr⟩ := hconstant hreducible
  obtain ⟨error, s, hrun⟩ := hfails hreducible
  obtain ⟨recorded, hr'⟩ := hr { scope } { host } rfl
  rw [hrun] at hr'
  obtain rfl : .error error = r := congrArg Prod.fst hr'
  exact ⟨error, hr⟩

/-- A settled node stays as it is when it is to be settled. -/
theorem run_settle_of_isSettled {e : Expr} (h : e.IsSettled) :
    (settle scope e).run host = (e, host) := by
  cases hreducible : e.isReducible with
  | false => exact run_settle_of_not_isReducible hreducible
  | true =>
    obtain ⟨error, herror⟩ := h hreducible
    obtain ⟨recorded, hrun⟩ := herror { scope } { host } rfl
    rw [run_settle_of_isReducible hreducible hrun]
    rfl

/-! ## What folding leaves is settled -/

/-- What is left of an expression that calls built-in functions only is settled. -/
def Settles (e e' : Expr) : Prop := e.CallsOnlyBuiltins → ∀ node ∈ e'.nodes, node.IsSettled

/-- All nodes in a list are settled if those of each element are. -/
theorem settled_nodesOfAll {es es' : List Expr} (hcalls : ∀ e ∈ es, e.CallsOnlyBuiltins)
    (h : List.Forall₂ Settles es es') : ∀ node ∈ nodesOfAll es', node.IsSettled := by
  induction h with
  | nil => exact nofun
  | cons he _ ih =>
    obtain ⟨hcall, hcalls⟩ := List.forall_mem_cons.mp hcalls
    exact List.forall_mem_append.mpr ⟨he hcall, ih hcalls⟩

/-- So are all nodes in the keys of steps. -/
theorem settled_nodesOfSteps {steps steps' : List (Step Expr)}
    (hcalls : ∀ s ∈ steps, ∀ e ∈ s.keys, e.CallsOnlyBuiltins)
    (h : List.Forall₂ (FoldedStep Settles) steps steps') :
    ∀ node ∈ nodesOfSteps steps', node.IsSettled := by
  induction h with
  | nil => exact nofun
  | cons hs _ ih =>
    obtain ⟨hkeys, hcalls⟩ := List.forall_mem_cons.mp hcalls
    exact List.forall_mem_append.mpr ⟨settled_nodesOfAll hkeys hs.keys, ih hcalls⟩

/-- All nodes of a folded expression are settled. -/
theorem settled_fold (scope : Scope) (e : Expr) (host : Host) (hcalls : e.CallsOnlyBuiltins) :
    ∀ node ∈ ((fold scope e).run host).1.nodes, node.IsSettled := by
  -- Of a node that was rebuilt, the nodes below it are settled, and it has one result at all times.
  let Rebuilt : Expr → Expr → Prop := fun e e' => e.CallsOnlyBuiltins →
    (∀ node ∈ e'.nodes.tail, node.IsSettled) ∧
      (e'.isReducible = true → ∃ r, Constant (evaluate e') r)
  refine @fold_rec scope Settles Rebuilt ?_ ?_ ?_ ?_ ?_ ?_ ?_ e host hcalls
  · intro e e' host h hcalls
    obtain ⟨hbelow, hconstant⟩ := h hcalls
    refine @settle_cases scope host (fun t => ∀ node ∈ t.nodes, node.IsSettled) e'
      (fun hfails => ?_) fun _ v _ _ => ?_
    · have hnodes : e'.nodes = e' :: e'.nodes.tail := by cases e' <;> rfl
      rw [hnodes]
      exact List.forall_mem_cons.mpr ⟨isSettled_of_exec hconstant hfails, hbelow⟩
    · exact List.forall_mem_singleton.mpr (isSettled_of_not_isReducible rfl)
  · exact fun v _ => ⟨nofun, nofun⟩
  · exact fun op e e' h hcalls => ⟨h hcalls.operand, exists_constant_unary⟩
  · intro op l l' r r' hl hr hcalls
    refine ⟨List.forall_mem_append.mpr ⟨hl hcalls.left, hr hcalls.right⟩, fun hreducible => ?_⟩
    obtain ⟨hl', hr'⟩ := Bool.and_eq_true_iff.mp hreducible
    exact exists_constant_binary hl' hr'
  · intro id f args args' h hcalls
    obtain ⟨b, rfl⟩ := hcalls.function
    refine ⟨settled_nodesOfAll (fun e he => hcalls.argument he) h, fun hreducible => ?_⟩
    obtain ⟨hfoldable, hargs'⟩ := Bool.and_eq_true_iff.mp hreducible
    exact exists_constant_call hfoldable hargs'
  · exact fun id name index index' h hcalls =>
      ⟨settled_nodesOfAll (fun e he => hcalls.index he) h, nofun⟩
  · exact fun id steps steps' text _ h _ hcalls =>
      ⟨settled_nodesOfSteps (fun s hs e he => hcalls.key hs he) h, nofun⟩

/-! ## Folding what is settled -/

/-- A list that nothing is to be folded in stays as it is. -/
theorem run_foldAll_eq_self {es : List Expr}
    (h : ∀ e ∈ es, ∀ host, (fold scope e).run host = (e, host)) (host : Host) :
    (foldAll scope es).run host = (es, host) := by
  induction es with
  | nil => rfl
  | cons e es ih =>
    obtain ⟨he, hes⟩ := List.forall_mem_cons.mp h
    rw [foldAll, run_bind_eq (he host), run_bind_eq (ih hes)]
    rfl

/-- Steps that nothing is to be folded in stay as they are. -/
theorem run_foldSteps_eq_self {steps : List (Step Expr)}
    (h : ∀ s ∈ steps, ∀ e ∈ s.keys, ∀ host, (fold scope e).run host = (e, host)) (host : Host) :
    (foldSteps scope steps).run host = (steps, host) := by
  induction steps with
  | nil => rfl
  | cons s steps ih =>
    obtain ⟨hs, hsteps⟩ := List.forall_mem_cons.mp h
    rw [foldSteps, run_bind_eq (run_foldAll_eq_self hs host), run_bind_eq (ih hsteps)]
    rfl

/-- An expression whose nodes are settled is folded to itself. -/
theorem run_fold_eq_self (scope : Scope) (e : Expr) (h : ∀ node ∈ e.nodes, node.IsSettled)
    (host : Host) : (fold scope e).run host = (e, host) := by
  induction e generalizing host with
  | literal v => rfl
  | unary op e ih =>
    have he := ih (fun node hmem => h node (mem_nodes_operand hmem)) host
    rw [fold, run_bind_eq he]
    exact run_settle_of_isSettled (h _ List.mem_cons_self)
  | binary op l r ihl ihr =>
    have hl := ihl (fun node hmem => h node (mem_nodes_left hmem)) host
    have hr := ihr (fun node hmem => h node (mem_nodes_right hmem)) host
    rw [fold, run_bind_eq hl, run_bind_eq hr]
    exact run_settle_of_isSettled (h _ List.mem_cons_self)
  | call id f args ih =>
    have hargs := run_foldAll_eq_self (fun e he =>
      ih e he fun node hmem => h node (mem_nodes_argument he hmem)) host
    rw [fold, run_bind_eq hargs]
    exact run_settle_of_isSettled (h _ List.mem_cons_self)
  | var id name index ih =>
    have hindex := run_foldAll_eq_self (fun e he =>
      ih e he fun node hmem => h node (mem_nodes_index he hmem)) host
    rw [fold, run_bind_eq hindex]
    rfl
  | path id steps text ih =>
    have hsteps := run_foldSteps_eq_self (fun s hs e he =>
      ih s hs e he fun node hmem => h node (mem_nodes_key hs he hmem)) host
    rw [fold, run_bind_eq hsteps]
    rfl

end Expr

/-! ## On an engine -/

/-- Folding leaves nothing to fold.  Each operator and each call in the folded expression that still
has only literals for operands, and could be folded, fails with one error on all engines; and
folding once more gives the same expression. -/
theorem Engine.settled_of_fold (engine : Engine) (e : Expr) (h : e.CallsOnlyBuiltins) :
    ∃ e', (Engine.fold e).run.run engine = (.ok e', engine) ∧
      (∀ node ∈ e'.nodes, node.isReducible = true → ∃ error,
        ∀ (engine : Engine) (memo : Memo) (o : EvaluateOptions) (mode : Mode), o.token = none →
          ((Engine.run ⟨node, memo⟩ o mode).run engine).1.1 = .error error) ∧
      (Engine.fold e').run.run engine = (.ok e', engine) := by
  have hrun : ∀ {t t' : Expr}, (t.fold engine.scope).run engine.host = (t', engine.host) →
      (Engine.fold t).run.run engine = (.ok t', engine) := by
    intro t t' ht
    rw [run_fold, ht]
  obtain ⟨e', hfold, -⟩ : ∃ e', Expr.FoldsTo engine.scope engine.host e e' := e.exists_fold h
  have hsettled := e.settled_fold engine.scope engine.host h
  rw [hfold] at hsettled
  refine ⟨e', hrun hfold, fun node hmem hreducible => ?_,
    hrun (e'.run_fold_eq_self engine.scope hsettled engine.host)⟩
  obtain ⟨error, herror⟩ := hsettled node hmem hreducible
  refine ⟨error, fun engine memo o mode htoken => ?_⟩
  obtain ⟨recorded, hexec⟩ := herror ⟨engine.scope, mode, o.trace, o.token⟩ ⟨memo, [], engine.host⟩
    htoken
  rw [run_result, hexec]

/-- The formula `ABS(1 / 0)`, of which nothing has a value. -/
def absoluteOfQuotient : Expr :=
  .call 0 Builtin.abs.definition
    [.binary (.arithmetic .divide) (.literal (.number 1)) (.literal (.number 0))]

/-- In `ABS(1 / 0)` the quotient has no value, so nothing is folded, however often this is tried. -/
theorem Engine.settled_of_fold_absoluteOfQuotient :
    absoluteOfQuotient.CallsOnlyBuiltins ∧
      ∃ e', (Engine.fold absoluteOfQuotient).run.run {} = (.ok e', {}) ∧
        (∀ node ∈ e'.nodes, node.isReducible = true → ∃ error,
          ((Engine.run ⟨node, []⟩ {} .strict).run {}).1.1 = .error error) ∧
        (Engine.fold e').run.run {} = (.ok e', {}) := by
  have h : absoluteOfQuotient.CallsOnlyBuiltins := by
    intro id f args hmem
    simp only [absoluteOfQuotient, Expr.nodes, Expr.nodesOfAll, List.mem_cons, List.mem_append,
      List.not_mem_nil, reduceCtorEq, or_false, Expr.call.injEq] at hmem
    obtain ⟨-, rfl, -⟩ := hmem
    exact ⟨_, rfl⟩
  obtain ⟨e', hfold, hfails, hagain⟩ := Engine.settled_of_fold {} absoluteOfQuotient h
  refine ⟨h, e', hfold, fun node hmem hreducible => ?_, hagain⟩
  obtain ⟨error, herror⟩ := hfails node hmem hreducible
  exact ⟨error, herror {} [] {} .strict rfl⟩

end Formula
