import Formula.Proofs.Expr.Constant
import Formula.Proofs.Expr.Heads

/-!
# Folding the same way at all times

A function that can be folded is expected to give the same for the same arguments, whatever else
there is, and to act on nothing.  With such functions an expression is folded to the same at all
times, and the folded expression refers to the same variables and paths.
-/

namespace Formula

/-! ## What can be folded at any time -/

/-- Whether the value of an expression, when it is folded, depends on nothing else, and finding it
leaves the world of the host as it is. -/
def Expr.Steady (e : Expr) : Prop :=
  ∃ r, ∀ scope host, ∃ s, (evaluate e).exec { scope } { host } = (r, s) ∧ s.host = host

/-- What is expected of a function: if it can be folded, its calls of literals are steady. -/
def FunctionDef.Steady (f : FunctionDef) : Prop :=
  f.isFoldable = true → ∀ id args, args.all Expr.isLiteral = true → (Expr.call id f args).Steady

/-- An expression with one result at all times has it whatever the data are. -/
theorem Expr.steady_of_constant {e : Expr} (h : ∃ r, Eval.Constant (evaluate e) r) : e.Steady := by
  obtain ⟨r, hr⟩ := h
  refine ⟨r, fun scope host => ?_⟩
  obtain ⟨recorded, hrun⟩ := hr { scope } { host } rfl
  exact ⟨_, hrun, rfl⟩

/-- Built-in functions are as expected. -/
theorem Builtin.steady (b : Builtin) : b.definition.Steady :=
  fun hfoldable _ _ hargs => Expr.steady_of_constant (Expr.exists_constant_call hfoldable hargs)

namespace Expr

/-! ## Folding -/

theorem run_bind_eq {σ α β : Type} {x : StateM σ α} {f : α → StateM σ β} {s t : σ} {a : α}
    (h : x.run s = (a, t)) : (x >>= f).run s = (f a).run t := by
  rw [StateT.run_bind, h]
  rfl

/-- What folding gives for an expression at all times. -/
def AlwaysFoldsTo (e e' : Expr) : Prop :=
  (∀ scope host, (fold scope e).run host = (e', host)) ∧
    referencesOf e'.nodes = referencesOf e.nodes

/-- A node that is as expected is settled the same everywhere. -/
theorem exists_settle_steady {e : Expr} (h : e.isReducible = true → e.Steady) :
    ∃ e', ∀ scope host, (settle scope e).run host = (e', host) := by
  cases hreducible : e.isReducible with
  | false => exact ⟨e, fun _ _ => run_settle_of_not_isReducible hreducible⟩
  | true =>
    obtain ⟨r, hr⟩ := h hreducible
    refine ⟨reduced e r, fun scope host => ?_⟩
    obtain ⟨s, hrun, hhost⟩ := hr scope host
    rw [run_settle_of_isReducible hreducible hrun, hhost]

/-- A list is folded the same everywhere if its elements are. -/
theorem exists_foldAll_steady {es : List Expr}
    (h : ∀ e ∈ es, ∃ e', ∀ scope host, (fold scope e).run host = (e', host)) :
    ∃ es', ∀ scope host, (foldAll scope es).run host = (es', host) := by
  induction es with
  | nil => exact ⟨[], fun _ _ => rfl⟩
  | cons e es ih =>
    obtain ⟨⟨e', he⟩, h⟩ := List.forall_mem_cons.mp h
    obtain ⟨es', hes⟩ := ih h
    refine ⟨e' :: es', fun scope host => ?_⟩
    rw [foldAll, run_bind_eq (he scope host), run_bind_eq (hes scope host)]
    rfl

/-- Steps are folded the same everywhere if their keys are. -/
theorem exists_foldSteps_steady {steps : List (Step Expr)}
    (h : ∀ s ∈ steps, ∀ e ∈ s.keys, ∃ e', ∀ scope host, (fold scope e).run host = (e', host)) :
    ∃ steps', ∀ scope host, (foldSteps scope steps).run host = (steps', host) := by
  induction steps with
  | nil => exact ⟨[], fun _ _ => rfl⟩
  | cons s steps ih =>
    obtain ⟨hs, h⟩ := List.forall_mem_cons.mp h
    obtain ⟨keys', hkeys⟩ := exists_foldAll_steady hs
    obtain ⟨steps', hsteps⟩ := ih h
    refine ⟨⟨s.name, s.listed, keys'⟩ :: steps', fun scope host => ?_⟩
    rw [foldSteps, run_bind_eq (hkeys scope host), run_bind_eq (hsteps scope host)]
    rfl

/-- If the functions are as expected, an expression is folded the same whatever the data and the
world of the host are, by induction on it. -/
theorem exists_run_fold_steady (e : Expr) (h : ∀ id f args, call id f args ∈ e.nodes → f.Steady) :
    ∃ e', ∀ scope host, (fold scope e).run host = (e', host) := by
  induction e with
  | literal v => exact ⟨.literal v, fun _ _ => rfl⟩
  | unary op e ih =>
    obtain ⟨e', he⟩ := ih fun id f args hmem => h id f args (mem_nodes_operand hmem)
    obtain ⟨t, ht⟩ := exists_settle_steady (e := unary op e') fun hreducible =>
      steady_of_constant (exists_constant_unary hreducible)
    refine ⟨t, fun scope host => ?_⟩
    rw [fold, run_bind_eq (he scope host)]
    exact ht scope host
  | binary op l r ihl ihr =>
    obtain ⟨l', hl⟩ := ihl fun id f args hmem => h id f args (mem_nodes_left hmem)
    obtain ⟨r', hr⟩ := ihr fun id f args hmem => h id f args (mem_nodes_right hmem)
    obtain ⟨t, ht⟩ := exists_settle_steady (e := binary op l' r') fun hreducible => by
      obtain ⟨hl', hr'⟩ := Bool.and_eq_true_iff.mp hreducible
      exact steady_of_constant (exists_constant_binary hl' hr')
    refine ⟨t, fun scope host => ?_⟩
    rw [fold, run_bind_eq (hl scope host), run_bind_eq (hr scope host)]
    exact ht scope host
  | call id f args ih =>
    obtain ⟨args', hargs⟩ := exists_foldAll_steady fun e he =>
      ih e he fun id f args hmem => h id f args (mem_nodes_argument he hmem)
    obtain ⟨t, ht⟩ := exists_settle_steady (e := call id f args') fun hreducible => by
      obtain ⟨hfoldable, hargs'⟩ := Bool.and_eq_true_iff.mp hreducible
      exact h id f args List.mem_cons_self hfoldable id args' hargs'
    refine ⟨t, fun scope host => ?_⟩
    rw [fold, run_bind_eq (hargs scope host)]
    exact ht scope host
  | var id name index ih =>
    obtain ⟨index', hindex⟩ := exists_foldAll_steady fun e he =>
      ih e he fun id f args hmem => h id f args (mem_nodes_index he hmem)
    refine ⟨.var id name index', fun scope host => ?_⟩
    rw [fold, run_bind_eq (hindex scope host)]
    rfl
  | path id steps text ih =>
    obtain ⟨steps', hsteps⟩ := exists_foldSteps_steady fun s hs e he =>
      ih s hs e he fun id f args hmem => h id f args (mem_nodes_key hs he hmem)
    refine ⟨.path id steps' text, fun scope host => ?_⟩
    rw [fold, run_bind_eq (hsteps scope host)]
    rfl

/-- An expression whose functions are as expected is folded to the same at all times. -/
theorem exists_fold_steady (e : Expr) (h : ∀ id f args, call id f args ∈ e.nodes → f.Steady) :
    ∃ e', AlwaysFoldsTo e e' := by
  obtain ⟨e', he⟩ := e.exists_run_fold_steady h
  refine ⟨e', he, ?_⟩
  have hrefs := referencesOf_fold {} e {}
  rw [he] at hrefs
  exact hrefs

end Expr

end Formula
