import Formula.Evaluation.Evaluate

/-!
# The parts of expressions

Expressions stand in lists, and those in the steps of paths.  `Expr.induct` gives the parts of a
node as members of its lists, so that a proof about expressions needs no mutual recursion of its
own.  The functions on lists of expressions are the list functions over the one on expressions.
-/

namespace Formula.Expr

/-! ## Induction -/

section
variable {motive : Expr → Prop}
  (literal : ∀ v, motive (.literal v))
  (unary : ∀ op e, motive e → motive (.unary op e))
  (binary : ∀ op l r, motive l → motive r → motive (.binary op l r))
  (call : ∀ id f args, (∀ e ∈ args, motive e) → motive (.call id f args))
  (var : ∀ id name index, (∀ e ∈ index, motive e) → motive (.var id name index))
  (path : ∀ id steps text, (∀ s ∈ steps, ∀ e ∈ s.keys, motive e) → motive (.path id steps text))
include literal unary binary call var path

/-- Induction on an expression, with the parts of a node as members of its lists. -/
@[induction_eliminator]
theorem induct (e : Expr) : motive e := by
  refine @Expr.rec motive (fun es => ∀ e ∈ es, motive e)
    (fun steps => ∀ s ∈ steps, ∀ e ∈ s.keys, motive e) (fun s => ∀ e ∈ s.keys, motive e)
    literal unary binary call var path ?_ ?_ ?_ ?_ ?_ e
  · simp
  · intro e es he hes
    simpa using ⟨he, hes⟩
  · simp
  · intro s steps hs hsteps
    simpa using ⟨hs, hsteps⟩
  · intro name listed keys hkeys
    exact hkeys

end

/-! ## Functions on lists of expressions -/

/-- The nodes of a list are those of its elements, one after another. -/
theorem nodesOfAll_eq_flatMap (es : List Expr) : nodesOfAll es = es.flatMap nodes := by
  induction es with
  | nil => rfl
  | cons e es ih => rw [nodesOfAll, ih, List.flatMap_cons]

/-- The nodes of steps are those of their keys, one after another. -/
theorem nodesOfSteps_eq_flatMap (steps : List (Step Expr)) :
    nodesOfSteps steps = steps.flatMap fun s => s.keys.flatMap nodes := by
  induction steps with
  | nil => rfl
  | cons s steps ih => rw [nodesOfSteps, ih, nodesOfAll_eq_flatMap, List.flatMap_cons]

theorem mem_nodesOfAll {es : List Expr} {e node : Expr} (he : e ∈ es) (h : node ∈ e.nodes) :
    node ∈ nodesOfAll es := by
  rw [nodesOfAll_eq_flatMap]
  exact List.mem_flatMap_of_mem he h

theorem mem_nodesOfSteps {steps : List (Step Expr)} {s : Step Expr} {e node : Expr}
    (hs : s ∈ steps) (he : e ∈ s.keys) (h : node ∈ e.nodes) : node ∈ nodesOfSteps steps := by
  rw [nodesOfSteps_eq_flatMap]
  exact List.mem_flatMap_of_mem hs (List.mem_flatMap_of_mem he h)

theorem exists_of_mem_nodesOfAll {es : List Expr} {node : Expr} (h : node ∈ nodesOfAll es) :
    ∃ e ∈ es, node ∈ e.nodes := by
  rw [nodesOfAll_eq_flatMap] at h
  exact List.mem_flatMap.mp h

/-- Each node of some steps is a node of one of their keys. -/
theorem exists_of_mem_nodesOfSteps {steps : List (Step Expr)} {node : Expr}
    (h : node ∈ nodesOfSteps steps) : ∃ s ∈ steps, ∃ e ∈ s.keys, node ∈ e.nodes := by
  rw [nodesOfSteps_eq_flatMap] at h
  obtain ⟨s, hs, hnode⟩ := List.mem_flatMap.mp h
  exact ⟨s, hs, List.mem_flatMap.mp hnode⟩

section
variable {op : UnaryOp} {bop : BinaryOp} {e l r node : Expr} {id : Nat} {f : FunctionDef}
  {args indices : List Expr} {steps : List (Step Expr)} {name text : String}

theorem mem_nodes_operand (h : node ∈ e.nodes) : node ∈ (unary op e).nodes :=
  List.mem_cons_of_mem _ h

theorem mem_nodes_left (h : node ∈ l.nodes) : node ∈ (binary bop l r).nodes :=
  List.mem_cons_of_mem _ (List.mem_append_left _ h)

theorem mem_nodes_right (h : node ∈ r.nodes) : node ∈ (binary bop l r).nodes :=
  List.mem_cons_of_mem _ (List.mem_append_right _ h)

theorem mem_nodes_argument (he : e ∈ args) (h : node ∈ e.nodes) : node ∈ (call id f args).nodes :=
  List.mem_cons_of_mem _ (mem_nodesOfAll he h)

theorem mem_nodes_index (he : e ∈ indices) (h : node ∈ e.nodes) :
    node ∈ (var id name indices).nodes :=
  List.mem_cons_of_mem _ (mem_nodesOfAll he h)

theorem mem_nodes_key {s : Step Expr} (hs : s ∈ steps) (he : e ∈ s.keys) (h : node ∈ e.nodes) :
    node ∈ (path id steps text).nodes :=
  List.mem_cons_of_mem _ (mem_nodesOfSteps hs he h)

/-- The nodes of a node are nodes of the whole expression. -/
theorem mem_nodes_trans (h : node ∈ e.nodes) : ∀ part ∈ node.nodes, part ∈ e.nodes := by
  intro part hpart
  induction e with
  | literal v => rwa [List.mem_singleton.mp h] at hpart
  | unary op e ih =>
    rcases List.mem_cons.mp h with rfl | h
    · exact hpart
    · exact mem_nodes_operand (ih h)
  | binary op l r ihl ihr =>
    rcases List.mem_cons.mp h with rfl | h
    · exact hpart
    · rcases List.mem_append.mp h with h | h
      · exact mem_nodes_left (ihl h)
      · exact mem_nodes_right (ihr h)
  | call id f args ih =>
    rcases List.mem_cons.mp h with rfl | h
    · exact hpart
    · obtain ⟨e, he, h⟩ := exists_of_mem_nodesOfAll h
      exact mem_nodes_argument he (ih e he h)
  | var id name index ih =>
    rcases List.mem_cons.mp h with rfl | h
    · exact hpart
    · obtain ⟨e, he, h⟩ := exists_of_mem_nodesOfAll h
      exact mem_nodes_index he (ih e he h)
  | path id steps text ih =>
    rcases List.mem_cons.mp h with rfl | h
    · exact hpart
    · obtain ⟨s, hs, e, he, h⟩ := exists_of_mem_nodesOfSteps h
      exact mem_nodes_key hs he (ih s hs e he h)

end

/-- Arguments are the evaluations of the expressions, and what these are printed as. -/
theorem arguments_eq_map (es : List Expr) :
    arguments es = es.map fun e => ⟨evaluate e, fun _ => e.text⟩ := by
  induction es with
  | nil => rfl
  | cons e es ih => rw [arguments, ih, List.map_cons]

/-- The steps that are evaluated have the names of those written, and evaluate their keys. -/
theorem computations_eq_map (steps : List (Step Expr)) :
    computations steps = steps.map fun s => ⟨s.name, s.listed, s.keys.map evaluate⟩ := by
  induction steps with
  | nil => rfl
  | cons s steps ih =>
    rw [computations, ih, arguments_eq_map, List.map_map, List.map_cons]
    rfl

/-! ## Variables and paths -/

/-- A variable or a path, with the names that it is read by. -/
inductive Reference where
  | var (id : Nat) (name : String)
  | path (id : Nat) (names : List String)
deriving DecidableEq

/-- What a node refers to. -/
def reference? : Expr → Option Reference
  | var id name _ => some (.var id name)
  | path id steps _ => some (.path id (steps.map (·.name)))
  | _ => none

/-- What some nodes refer to, in order. -/
def referencesOf (nodes : List Expr) : List Reference := nodes.filterMap reference?

theorem referencesOf_append (nodes nodes' : List Expr) :
    referencesOf (nodes ++ nodes') = referencesOf nodes ++ referencesOf nodes' :=
  List.filterMap_append

theorem mem_referencesOf_path {nodes : List Expr} {id : Nat} {steps : List (Step Expr)}
    {text : String} (h : path id steps text ∈ nodes) :
    .path id (steps.map (·.name)) ∈ referencesOf nodes :=
  List.mem_filterMap.mpr ⟨_, h, rfl⟩

/-! ## Heads of nodes -/

/-- A call, variable or path without its operands: a function and how many arguments it gets, or
what the node refers to. -/
inductive Head where
  | call (id : Nat) (f : FunctionDef) (count : Nat)
  | refers (r : Reference)

/-- The number of a node with a head. -/
def Head.id : Head → Nat
  | .call id _ _ | .refers (.var id _) | .refers (.path id _) => id

/-- The head of a node. -/
def head? : Expr → Option Head
  | call id f args => some (.call id f args.length)
  | e => e.reference?.map .refers

/-- The heads of some nodes, in order. -/
def headsOf (nodes : List Expr) : List Head := nodes.filterMap head?

theorem headsOf_append (nodes nodes' : List Expr) :
    headsOf (nodes ++ nodes') = headsOf nodes ++ headsOf nodes' := List.filterMap_append

theorem mem_headsOf {nodes : List Expr} {node : Expr} {head : Head} (h : node ∈ nodes)
    (hhead : node.head? = some head) : head ∈ headsOf nodes :=
  List.mem_filterMap.mpr ⟨node, h, hhead⟩

/-- Some nodes refer to something if it is the head of one of them. -/
theorem refers_mem_headsOf_iff {nodes : List Expr} {r : Reference} :
    .refers r ∈ headsOf nodes ↔ r ∈ referencesOf nodes := by
  -- A call refers to nothing, and the head of any other node is what it refers to.
  have hhead : ∀ node : Expr, node.head? = some (.refers r) ↔ node.reference? = some r := by
    intro node
    cases node <;> simp [head?, reference?]
  simp only [headsOf, referencesOf, List.mem_filterMap, hhead]

/-- The numbers of some nodes are those of their heads. -/
theorem filterMap_id? (nodes : List Expr) : nodes.filterMap id? = (headsOf nodes).map Head.id := by
  rw [headsOf, List.map_filterMap]
  congr 1
  funext node
  cases node <;> rfl

/-! ## Names of steps -/

/-- Whether the steps of the paths of an expression, by their numbers, have some names. -/
def StepsNamed (names : Nat → Nat → String) (e : Expr) : Prop :=
  ∀ id steps, .path id steps ∈ referencesOf e.nodes → ∀ j s, steps[j]? = some s → names id j = s

/-- The name of a step of a path. -/
def stepName (e : Expr) (id j : Nat) : String :=
  match e.nodes.find? (·.id? == some id) with
  | some (path _ steps _) => ((steps[j]?).map (·.name)).getD ""
  | _ => ""

/-- A number stands for one node if all numbers are different. -/
theorem filter_eq_singleton {nodes : List Expr} {node : Expr} {id : Nat}
    (hnodup : (nodes.filterMap id?).Nodup) (hmem : node ∈ nodes) (hid : node.id? = some id) :
    nodes.filter (·.id? == some id) = [node] := by
  induction nodes with
  | nil => cases hmem
  | cons other nodes ih =>
    rcases List.mem_cons.mp hmem with rfl | hmem
    · rw [List.filterMap_cons_some hid, List.nodup_cons] at hnodup
      have hothers : nodes.filter (·.id? == some id) = [] := List.filter_eq_nil_iff.mpr
        fun other hother hsame =>
          hnodup.1 (List.mem_filterMap.mpr ⟨other, hother, beq_iff_eq.mp hsame⟩)
      rw [List.filter_cons_of_pos (by rw [hid, BEq.rfl]), hothers]
    · have hne : other.id? ≠ some id := by
        intro hother
        rw [List.filterMap_cons_some hother, List.nodup_cons] at hnodup
        exact hnodup.1 (List.mem_filterMap.mpr ⟨node, hmem, hid⟩)
      rw [List.filter_cons_of_neg (by rw [beq_false_of_ne hne]; exact Bool.false_ne_true)]
      exact ih (((List.sublist_cons_self other nodes).filterMap id?).nodup hnodup) hmem

/-- A node is found by its number if all numbers are different. -/
theorem find?_eq_some {nodes : List Expr} {node : Expr} {id : Nat}
    (hnodup : (nodes.filterMap id?).Nodup) (hmem : node ∈ nodes) (hid : node.id? = some id) :
    nodes.find? (·.id? == some id) = some node := by
  rw [← List.head?_filter, filter_eq_singleton hnodup hmem hid]
  rfl

/-- Where all numbers differ, a number and a place in its path tell the name of the step there. -/
theorem stepsNamed_stepName {e : Expr} (h : (e.nodes.filterMap id?).Nodup) :
    e.StepsNamed e.stepName := by
  intro id names hpath j s hs
  obtain ⟨node, hnode, href⟩ := List.mem_filterMap.mp hpath
  cases node with
  | path id' steps text =>
    cases href
    rw [stepName, find?_eq_some h hnode rfl]
    rw [List.getElem?_map] at hs
    show ((steps[j]?).map (·.name)).getD "" = s
    rw [hs]
    rfl
  | _ => cases href

/-- Names of steps by their numbers serve for all expressions without other heads. -/
theorem StepsNamed.of_sublist {names : Nat → Nat → String} {e e' : Expr} (h : e.StepsNamed names)
    (hheads : (headsOf e'.nodes).Sublist (headsOf e.nodes)) : e'.StepsNamed names := by
  intro id steps hpath
  rw [← refers_mem_headsOf_iff] at hpath
  exact h id steps (refers_mem_headsOf_iff.mp (hheads.subset hpath))

namespace StepsNamed

variable {names : Nat → Nat → String} {e e' : Expr}

/-- Names of steps serve for all expressions that have no other nodes. -/
theorem of_subset (h : e.StepsNamed names) (hnodes : ∀ node ∈ e'.nodes, node ∈ e.nodes) :
    e'.StepsNamed names := by
  intro id steps hpath
  obtain ⟨node, hmem, href⟩ := List.mem_filterMap.mp hpath
  exact h id steps (List.mem_filterMap.mpr ⟨node, hnodes node hmem, href⟩)

theorem part (h : e.StepsNamed names) {node : Expr} (hmem : node ∈ e.nodes) :
    node.StepsNamed names := h.of_subset (mem_nodes_trans hmem)

/-- The steps of a path have the names that are told by its number. -/
theorem step (h : e.StepsNamed names) {id : Nat} {steps : List (Step Expr)} {text : String}
    (hmem : path id steps text ∈ e.nodes) :
    ∀ j s, steps[j]? = some s → names id j = s.name := by
  intro j s hs
  refine h id _ (mem_referencesOf_path hmem) j s.name ?_
  rw [List.getElem?_map, hs]
  rfl

end StepsNamed

/-! ## Calls of built-in functions -/

/-- Whether all functions that an expression calls are built in. -/
def CallsOnlyBuiltins (e : Expr) : Prop :=
  ∀ id f args, call id f args ∈ e.nodes → ∃ b : Builtin, f = b.definition

namespace CallsOnlyBuiltins

variable {op : UnaryOp} {bop : BinaryOp} {e l r : Expr} {id : Nat} {f : FunctionDef}
  {args indices : List Expr} {steps : List (Step Expr)} {name text : String}

theorem part (h : CallsOnlyBuiltins e) {node : Expr} (hmem : node ∈ e.nodes) :
    CallsOnlyBuiltins node :=
  fun id f args hcall => h id f args (mem_nodes_trans hmem _ hcall)

theorem operand (h : CallsOnlyBuiltins (.unary op e)) : CallsOnlyBuiltins e :=
  fun id f args hmem => h id f args (mem_nodes_operand hmem)

theorem left (h : CallsOnlyBuiltins (.binary bop l r)) : CallsOnlyBuiltins l :=
  fun id f args hmem => h id f args (mem_nodes_left hmem)

theorem right (h : CallsOnlyBuiltins (.binary bop l r)) : CallsOnlyBuiltins r :=
  fun id f args hmem => h id f args (mem_nodes_right hmem)

theorem function (h : CallsOnlyBuiltins (.call id f args)) : ∃ b : Builtin, f = b.definition :=
  h id f args List.mem_cons_self

theorem argument (h : CallsOnlyBuiltins (.call id f args)) (he : e ∈ args) :
    CallsOnlyBuiltins e :=
  fun id f args hmem => h id f args (mem_nodes_argument he hmem)

theorem index (h : CallsOnlyBuiltins (.var id name indices)) (he : e ∈ indices) :
    CallsOnlyBuiltins e :=
  fun id f args hmem => h id f args (mem_nodes_index he hmem)

theorem key (h : CallsOnlyBuiltins (.path id steps text)) {s : Step Expr} (hs : s ∈ steps)
    (he : e ∈ s.keys) : CallsOnlyBuiltins e :=
  fun id f args hmem => h id f args (mem_nodes_key hs he hmem)

end CallsOnlyBuiltins

end Formula.Expr
