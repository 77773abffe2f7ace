import Formula.Proofs.Engine.History

/-!
# Remembered handles are unseen

The steps of a tree remember handles from one evaluation to the next, whatever data came between,
also when the tree is folded or kept in the cache.  As long as the objects among the data keep what
they promise, an evaluation gives the same as if its tree remembered nothing (`handles_unseen`).
-/

namespace Formula

/-! ## Forgetting -/

/-- The tree without the handles that its steps remember. -/
def Tree.forget (tree : Tree) : Tree := { tree with memo := [] }

namespace Cache

/-- The cache without the handles that the steps of its trees remember. -/
def forget (c : Cache) : Cache := c.map fun entry => (entry.1, entry.2.forget)

/-- The tree that is found once handles are forgotten is the one kept before, without its
handles. -/
theorem get?_forget (c : Cache) (text : String) :
    c.forget.get? text = (c.get? text).map Tree.forget := by
  induction c with
  | nil => rfl
  | cons entry c ih =>
    obtain ⟨known, tree⟩ := entry
    show get? ((known, tree.forget) :: forget c) text = _
    rw [get?_cons, get?_cons, ih]
    split <;> rfl

theorem forget_forget (c : Cache) : c.forget.forget = c.forget := by
  rw [forget, forget, List.map_map]
  rfl

/-- Forgetting comes to the same before a tree is inserted and after. -/
theorem forget_insert (c : Cache) (text : String) (tree : Tree) :
    (c.insert text tree).forget = c.forget.insert text tree.forget := by
  show (text, tree.forget) :: (c.filter _).map _ = (text, tree.forget) :: (c.map _).filter _
  rw [List.filter_map]
  rfl

/-- Forgetting comes to the same before a tree is replaced and after. -/
theorem forget_replace (c : Cache) (text : String) (tree : Tree) :
    (c.replace text tree).forget = c.forget.replace text tree.forget := by
  rw [forget, forget, replace, replace, List.map_map, List.map_map]
  refine List.map_congr_left fun entry _ => ?_
  rw [Function.comp_apply, Function.comp_apply]
  split <;> rfl

end Cache

/-- The engine without the handles that the steps of its trees remember. -/
def Engine.forget (e : Engine) : Engine := { e with cache := e.cache.map Cache.forget }

namespace Engine

/-- An engine that forgets the handles of its trees keeps the same trees without them. -/
theorem kept?_forget (e : Engine) (text : String) :
    e.forget.kept? text = (e.kept? text).map Tree.forget := by
  rw [kept?, kept?, forget]
  cases e.cache with
  | none => rfl
  | some c => exact c.get?_forget text

/-- There is nothing more to forget the second time. -/
theorem forget_forget (e : Engine) : e.forget.forget = e.forget := by
  rw [forget, forget, Option.map_map]
  congr 2
  funext c
  exact c.forget_forget

/-- An engine forgets the handles of a tree that it keeps anew, too. -/
theorem forget_insert (e : Engine) (text : String) (tree : Tree) :
    forget { e with cache := e.cache.map (·.insert text tree) } =
      { e.forget with cache := e.forget.cache.map (·.insert text tree.forget) } := by
  simp only [forget, Option.map_map]
  congr 2
  funext c
  exact c.forget_insert text tree

/-- So it does with a tree that replaces another. -/
theorem forget_replace (e : Engine) (text : String) (tree : Tree) :
    forget { e with cache := e.cache.map (·.replace text tree) } =
      { e.forget with cache := e.forget.cache.map (·.replace text tree.forget) } := by
  simp only [forget, Option.map_map]
  congr 2
  funext c
  exact c.forget_replace text tree

/-- Replacing a tree leaves engines the same but for remembered handles if they were. -/
theorem forget_replace_congr {e e' : Engine} {tree tree' : Tree} (text : String)
    (he : e.forget = e'.forget) (htree : tree.forget = tree'.forget) :
    forget { e with cache := e.cache.map (·.replace text tree) } =
      forget { e' with cache := e'.cache.map (·.replace text tree') } := by
  rw [forget_replace, forget_replace, he, htree]

/-- Reading a text has nothing to do with what is remembered. -/
theorem run_parse_forget (e : Engine) (text : String) : (parse text).run.run e.forget =
    (((parse text).run.run e).1, ((parse text).run.run e).2.forget) := by
  have hparsed : parseSource e.forget.names e.forget.spelling (stripComments text.toList) =
      parseSource e.names e.spelling (stripComments text.toList) := rfl
  rw [run_parse, run_parse, hparsed]
  cases parseSource e.names e.spelling (stripComments text.toList) with
  | error error => rfl
  | ok t =>
    show (if e.optimizes then _ else _) = _
    dsimp only
    split <;> rfl

/-- Taking a text as a tree and forgetting its handles comes to the same as forgetting all handles
first: the text is read the same. -/
theorem run_treeOf_forget (e : Engine) (text : String) (useCache : Bool) :
    (treeOf text useCache).run.run e.forget =
      (((treeOf text useCache).run.run e).1.map Tree.forget,
        ((treeOf text useCache).run.run e).2.forget) := by
  have hkept : (if useCache then e.forget.cache.bind (·.get? text) else none) =
      (if useCache then e.cache.bind (·.get? text) else none).map Tree.forget := by
    split
    · exact e.kept?_forget text
    · rfl
  rw [run_treeOf, run_treeOf, hkept, run_parse_forget]
  cases if useCache then e.cache.bind (·.get? text) else none with
  | some tree => rfl
  | none =>
    rcases (parse text).run.run e with ⟨error | t, e'⟩
    · rfl
    · cases useCache with
      | false => rfl
      | true =>
        have hinsert := forget_insert e' text { expr := t }
        exact congrArg (Prod.mk _) hinsert.symm

/-- Whether two operations give the same and leave the same engine, but for remembered handles. -/
def SameButHandles (p q : Outcome Value × Engine) : Prop :=
  p.1 = q.1 ∧ p.2.forget = q.2.forget

end Engine

/-! ## Trees in use -/

open Engine

/-- Trees as they come to be used: with no handles and all numbers different at first, and then
evaluated on engines with good data and folded, over and over. -/
inductive Tree.Used (good : Value → Prop) : Tree → Prop where
  | fresh {t : Expr} : (t.nodes.filterMap Expr.id?).Nodup → Used good { expr := t }
  | evaluated {tree : Tree} {e : Engine} (o : EvaluateOptions) (mode : Mode) : Used good tree →
      (∀ root, e.context = some root → good root) → Used good ((run tree o mode).run e).1.2
  | folded {tree : Tree} (scope : Scope) (host : Host) : Used good tree →
      Used good { tree with expr := ((tree.expr.fold scope).run host).1 }

section
variable {good : Value → Prop} (hgood : HandleContract good)
include hgood

/-- The handles that a tree remembers were found for the names of its steps. -/
theorem Tree.Used.isValid {tree : Tree} (h : tree.Used good) : tree.IsValid good := by
  induction h with
  | fresh h => exact .fresh h
  | @evaluated tree e o mode _ hcontext ih =>
    obtain ⟨r, host, lastTrace, memo, -, hvalid, hrun, -⟩ :=
      Engine.exists_run o mode hgood hcontext ih
    rw [show (run tree o mode).run e = _ from hrun e.cache]
    exact hvalid
  | folded scope host _ ih =>
    obtain ⟨names, hnamed, hmemo⟩ := ih
    exact ⟨names, hnamed.of_sublist (Expr.sublist_fold scope _ host), hmemo⟩

/-- What a tree remembers changes neither its value nor anything else. -/
theorem Tree.Used.exists_run {tree : Tree} (h : tree.Used good) {e : Engine}
    (hcontext : ∀ root, e.context = some root → good root) (o : EvaluateOptions) (mode : Mode) :
    ∃ r e' tree' tree'', tree'.forget = tree''.forget ∧
      (run tree o mode).run e = ((r, tree'), e') ∧
      (run tree.forget o mode).run e = ((r, tree''), e') ∧
      (run tree.forget o mode).run e.forget = ((r, tree''), e'.forget) := by
  obtain ⟨r, host, lastTrace, memo, memo', -, hrun, hforget⟩ :=
    Engine.exists_run o mode hgood hcontext (h.isValid hgood)
  exact ⟨r, { e with host, lastTrace }, { tree with memo }, { tree with memo := memo' }, rfl,
    hrun e.cache, hforget e.cache, hforget (e.cache.map Cache.forget)⟩

end

/-! ## Trees in the cache -/

/-- What the data supplied by an operation promise. -/
def Op.Supplies (good : Value → Prop) : Op → Prop
  | setContext root => good root
  | _ => True

namespace Engine

/-- Whether all trees that an engine keeps have been used with good data, which it still has. -/
structure KeepsUsed (good : Value → Prop) (e : Engine) : Prop where
  context_good : ∀ root, e.context = some root → good root
  kept_used : ∀ text tree, e.kept? text = some tree → tree.Used good

namespace KeepsUsed

variable {good : Value → Prop} {e : Engine} {text : String}

/-- An engine that keeps no trees has nothing to answer for but its data. -/
theorem of_kept_eq_none (hcontext : ∀ root, e.context = some root → good root)
    (h : ∀ text, e.kept? text = none) : KeepsUsed good e := by
  refine ⟨hcontext, fun text tree hkept => ?_⟩
  rw [h] at hkept
  cases hkept

/-- A used tree may be added to the trees that are kept. -/
theorem insert (h : KeepsUsed good e) {tree : Tree} (htree : tree.Used good) :
    KeepsUsed good { e with cache := e.cache.map (·.insert text tree) } := by
  refine ⟨h.context_good, fun text' tree' hkept => ?_⟩
  rcases Cache.found_of_insert hkept with ⟨-, rfl⟩ | hfound
  · exact htree
  · exact h.kept_used text' tree' hfound

/-- A used tree may replace another one. -/
theorem replace (h : KeepsUsed good e) {tree : Tree} (htree : tree.Used good) :
    KeepsUsed good { e with cache := e.cache.map (·.replace text tree) } := by
  refine ⟨h.context_good, fun text' tree' hkept => ?_⟩
  rcases Cache.found_of_replace hkept with ⟨-, rfl⟩ | ⟨-, hfound⟩
  · exact htree
  · exact h.kept_used text' tree' hfound

/-- Reading a text changes the world of the host at most. -/
theorem parse (h : KeepsUsed good e) (text : String) :
    KeepsUsed good ((parse text).run.run e).2 := by
  rw [run_parse]
  cases parseSource e.names e.spelling (stripComments text.toList) with
  | error error => exact h
  | ok t =>
    dsimp only
    split
    · exact ⟨h.context_good, h.kept_used⟩
    · exact h

/-- The tree that a text is taken as has been used with good data, or was just read, and so have all
trees that are kept then. -/
theorem treeOf (h : KeepsUsed good e) (text : String) (useCache : Bool) :
    KeepsUsed good ((treeOf text useCache).run.run e).2 ∧
      ∀ tree, ((treeOf text useCache).run.run e).1 = .ok tree → tree.Used good := by
  rw [run_treeOf]
  cases hkept : if useCache then e.cache.bind (·.get? text) else none with
  | some tree =>
    refine ⟨h, fun _ htree => ?_⟩
    cases htree
    split at hkept
    · exact h.kept_used text tree hkept
    · cases hkept
  | none =>
    have hparse := h.parse text
    have hreads : ∀ t, ((Engine.parse text).run.run e).1 = .ok t → Tree.Used good { expr := t } :=
      fun t ht => .fresh (nodup_ids_of_reads ht)
    dsimp only
    generalize (Engine.parse text).run.run e = p at hparse hreads
    rcases p with ⟨error | t, e'⟩
    · exact ⟨hparse, nofun⟩
    · have ht := hreads t rfl
      refine ⟨?_, fun _ htree => ?_⟩
      · cases useCache with
        | true => exact hparse.insert ht
        | false => exact hparse
      · cases htree
        exact ht

/-- A tree that is evaluated leaves data and cache alone. -/
theorem run (h : KeepsUsed good e) (tree : Tree) (o : EvaluateOptions) (mode : Mode) :
    KeepsUsed good ((run tree o mode).run e).2 := ⟨h.context_good, h.kept_used⟩

/-- An evaluation keeps the tree that it has used, which stays among the used ones. -/
theorem evaluateIn (h : KeepsUsed good e) (mode : Mode) (text : String) (o : EvaluateOptions) :
    KeepsUsed good ((evaluateIn mode text o).run.run e).2 := by
  obtain ⟨hread, hused⟩ := h.treeOf text o.useCache
  rw [run_evaluateIn]
  generalize (Engine.treeOf text o.useCache).run.run e = p at hread hused
  rcases p with ⟨error | tree, e'⟩
  · exact hread
  · have hafter := hread.run tree o mode
    have hevaluated := (hused tree rfl).evaluated o mode hread.context_good
    cases o.useCache with
    | true => exact hafter.replace hevaluated
    | false => exact hafter

end KeepsUsed

end Engine

/-- An operation that supplies good data leaves trees that were used with good data. -/
theorem Op.keepsUsed {good : Value → Prop} {e : Engine} (h : KeepsUsed good e) {op : Op}
    (hop : op.Supplies good) : KeepsUsed good (op.apply e) := by
  cases op with
  | setVariable | removeVariable | clearVariables | modifyOptions | act | evaluateTree =>
    exact ⟨h.context_good, h.kept_used⟩
  | setContext root =>
    refine ⟨?_, h.kept_used⟩
    rintro _ ⟨⟩
    exact hop
  | clearContext => exact ⟨nofun, h.kept_used⟩
  | setCaching on =>
    refine ⟨h.context_good, fun text tree hkept => ?_⟩
    rw [apply, kept?_setCaching] at hkept
    split at hkept
    · exact h.kept_used text tree hkept
    · cases hkept
  | modifyFunctions | setCulture | setNameChars | setOptimizes | clearCache | setExternals =>
    exact .of_kept_eq_none h.context_good (kept?_clearCache _)
  | parse text => exact h.parse text
  | evaluate text o => exact h.evaluateIn o.mode text o
  | validate text useCache => exact h.evaluateIn .validation text _

namespace Engine

/-- Whatever was done with an engine, its trees were used with good data, by induction on the
history. -/
theorem keepsUsed_after {good : Value → Prop} {history : List Op}
    (h : ∀ op ∈ history, op.Supplies good) : KeepsUsed good (after history) := by
  induction history with
  | nil => exact ⟨nofun, nofun⟩
  | cons op past ih =>
    obtain ⟨hop, hpast⟩ := List.forall_mem_cons.mp h
    exact op.keepsUsed (ih hpast) hop

/-- Evaluating a text gives the same when all trees in the cache forget their handles first. -/
theorem sameButHandles_evaluateIn {good : Value → Prop} (hgood : HandleContract good) {e : Engine}
    (h : KeepsUsed good e) (mode : Mode) (text : String) (o : EvaluateOptions) :
    SameButHandles ((evaluateIn mode text o).run.run e)
      ((evaluateIn mode text o).run.run e.forget) := by
  obtain ⟨hread, hused⟩ := h.treeOf text o.useCache
  rw [run_evaluateIn, run_evaluateIn, run_treeOf_forget]
  generalize (treeOf text o.useCache).run.run e = p at hread hused
  rcases p with ⟨error | tree, e₁⟩
  · exact ⟨rfl, e₁.forget_forget.symm⟩
  · obtain ⟨r, e₂, tree', tree'', htree, hrun, -, hforget⟩ :=
      (hused tree rfl).exists_run hgood hread.context_good o mode
    dsimp only [Except.map] at hrun hforget ⊢
    rw [hrun, hforget]
    refine ⟨rfl, ?_⟩
    dsimp only
    cases o.useCache with
    | true => exact forget_replace_congr text (forget_forget _).symm htree
    | false => exact (forget_forget _).symm

/-- Handles that steps remember are never seen, as long as the objects among the data keep what they
promise; records and dictionaries do.  A tree that is in use has the value that it would have if it
remembered nothing, and after any history a text has the value that it would have if all trees in
the cache remembered nothing. -/
theorem handles_unseen : HandleContract Value.HostFree ∧
    ∀ good : Value → Prop, HandleContract good →
      (∀ (e : Engine) (text : String) (t : Expr), e.reads text = .ok t →
        Tree.Used good { expr := t }) ∧
      (∀ tree : Tree, tree.Used good → ∀ e : Engine, (∀ root, e.context = some root → good root) →
        ∀ (o : EvaluateOptions) (mode : Mode),
          ((run tree o mode).run e).1.1 = ((run tree.forget o mode).run e).1.1 ∧
          ((run tree o mode).run e).2 = ((run tree.forget o mode).run e).2) ∧
      ∀ history : List Op, (∀ op ∈ history, op.Supplies good) →
        (∀ text tree, (after history).kept? text = some tree → tree.Used good) ∧
        ∀ (mode : Mode) (text : String) (o : EvaluateOptions),
          SameButHandles ((evaluateIn mode text o).run.run (after history))
            ((evaluateIn mode text o).run.run (after history).forget) := by
  refine ⟨Value.HostFree.handleContract, fun good hgood => ⟨?_, ?_, ?_⟩⟩
  · intro e text t hreads
    exact .fresh (nodup_ids_of_reads hreads)
  · intro tree htree e hcontext o mode
    obtain ⟨r, e', tree', tree'', -, hrun, hforget, -⟩ := htree.exists_run hgood hcontext o mode
    rw [hrun, hforget]
    exact ⟨rfl, rfl⟩
  · intro history hsupplies
    have hkeeps := keepsUsed_after hsupplies
    exact ⟨hkeeps.kept_used, sameButHandles_evaluateIn hgood hkeeps⟩

/-- A person and a pet, each with a name. -/
def household : Value :=
  .array [ann,
    .object ⟨1, .record ⟨"Pet", [⟨"Age", .number 3, none⟩, ⟨"Name", .text "Rex", none⟩]⟩⟩]

theorem hostFree_household : household.HostFree := by
  have hpet : ∀ m ∈ ([⟨"Age", .number 3, none⟩, ⟨"Name", .text "Rex", none⟩] : List (Member Value)),
      m.value.HostFree ∧ m.placeholder = none := by
    simp [Value.HostFree.number, Value.HostFree.text]
  refine .array (List.forall_mem_cons.mpr ⟨hostFree_ann, List.forall_mem_singleton.mpr ?_⟩)
  refine .record (fun m hm => (hpet m hm).1) fun m hm v hv => ?_
  rw [(hpet m hm).2] at hv
  cases hv

/-- The names of a household, by steps that remember where the pet of another household had its
name. -/
theorem handles_unseen_household : ∃ tree : Tree, tree.Used Value.HostFree ∧ tree.memo ≠ [] ∧
    ((run tree {} .strict).run { context := some household }).1.1 =
      ((run tree.forget {} .strict).run { context := some household }).1.1 := by
  have hcontext : ∀ root, (some household : Option Value) = some root → root.HostFree := by
    rintro _ ⟨⟩
    exact hostFree_household
  have hused : Tree.Used Value.HostFree
      ((run { expr := namePath } {} .strict).run { context := some household }).1.2 :=
    .evaluated {} .strict (.fresh (by decide)) hcontext
  refine ⟨_, hused, ?_, ?_⟩
  · exact List.cons_ne_nil ((0, 0), "Pet", Handle.named "name") []
  · obtain ⟨hcontract, h⟩ := handles_unseen
    exact ((h _ hcontract).2.1 _ hused { context := some household } hcontext {} .strict).1

end Engine

end Formula
