import Formula.Proofs.Engine.Reading
import Formula.Proofs.Evaluation.Handles

/-!
# Trees from the cache

What an evaluation keeps in the cache is the tree that it read, with handles that its steps found; a
tree that was kept before stays but for its handles.  An evaluation with a tree from the cache does
the same as one that reads its text, as long as the text is still read as that tree.
-/

namespace Formula

/-! ## Finding trees -/

namespace Cache

/-- A tree is found under the text that was kept first, or among those kept before. -/
theorem get?_cons (c : Cache) (known text : String) (tree : Tree) :
    get? ((known, tree) :: c) text = if text = known then some tree else c.get? text := by
  rw [get?, get?, List.lookup_cons]
  by_cases h : text = known
  · rw [if_pos h, h, BEq.rfl]
  · rw [if_neg h, beq_false_of_ne h]

/-- A tree that is inserted is found under its text, and the trees of other texts stay. -/
theorem get?_insert (c : Cache) (text text' : String) (tree : Tree) :
    (c.insert text tree).get? text' = if text' = text then some tree else c.get? text' := by
  -- Only the text itself is filtered out.
  have hothers : text' ≠ text → get? (c.filter (·.1 != text)) text' = c.get? text' := by
    intro h
    induction c with
    | nil => rfl
    | cons entry c ih =>
      obtain ⟨known, kept⟩ := entry
      rw [List.filter_cons, get?_cons]
      by_cases hknown : known = text
      · rw [if_neg (by simp [hknown]), ih, hknown, if_neg h]
      · rw [if_pos (by simp [hknown]), get?_cons, ih]
  rw [insert, get?_cons]
  by_cases h : text' = text
  · rw [if_pos h, if_pos h]
  · rw [if_neg h, if_neg h, hothers h]

/-- A tree is replaced only where one of its text is kept; trees of other texts stay. -/
theorem get?_replace (c : Cache) (text text' : String) (tree : Tree) :
    (c.replace text tree).get? text' =
      if text' = text then (c.get? text).map fun _ => tree else c.get? text' := by
  rw [replace]
  induction c with
  | nil => exact (ite_self none).symm
  | cons entry c ih =>
    obtain ⟨known, kept⟩ := entry
    rw [List.map_cons, get?_cons, get?_cons]
    by_cases hknown : known = text
    · rw [if_pos hknown, get?_cons, ih, hknown, if_pos rfl]
      by_cases h : text' = text
      · rw [if_pos h, if_pos h]
        rfl
      · rw [if_neg h, if_neg h, if_neg h, if_neg h]
    · rw [if_neg hknown, get?_cons, ih, if_neg (Ne.symm hknown)]
      by_cases h : text' = text
      · rw [if_pos h, h, if_neg (Ne.symm hknown), if_pos rfl]
      · rw [if_neg h, if_neg h]

/-- A tree that is found after one was inserted is this one, or it was found before. -/
theorem found_of_insert {cache : Option Cache} {text text' : String} {tree tree' : Tree}
    (h : (cache.map (·.insert text tree)).bind (·.get? text') = some tree') :
    (text' = text ∧ tree' = tree) ∨ cache.bind (·.get? text') = some tree' := by
  obtain ⟨_, hmap, hfound⟩ := Option.bind_eq_some_iff.mp h
  obtain ⟨c, rfl, rfl⟩ := Option.map_eq_some_iff.mp hmap
  rw [get?_insert] at hfound
  split at hfound
  · next htext =>
    cases hfound
    exact .inl ⟨htext, rfl⟩
  · exact .inr hfound

/-- A tree that is found after one was replaced is the new one, or it was found before. -/
theorem found_of_replace {cache : Option Cache} {text text' : String} {tree tree' : Tree}
    (h : (cache.map (·.replace text tree)).bind (·.get? text') = some tree') :
    (text' = text ∧ tree' = tree) ∨ (text' ≠ text ∧ cache.bind (·.get? text') = some tree') := by
  obtain ⟨_, hmap, hfound⟩ := Option.bind_eq_some_iff.mp h
  obtain ⟨c, rfl, rfl⟩ := Option.map_eq_some_iff.mp hmap
  rw [get?_replace] at hfound
  split at hfound
  · next htext =>
    obtain ⟨_, _, rfl⟩ := Option.map_eq_some_iff.mp hfound
    exact .inl ⟨htext, rfl⟩
  · next htext => exact .inr ⟨htext, hfound⟩

end Cache

/-- Whether the steps of a tree remember only handles that they found. -/
def Tree.IsValid (good : Value → Prop) (tree : Tree) : Prop :=
  ∃ names, tree.expr.StepsNamed names ∧ tree.memo.IsValid good names

/-- A tree whose numbers are all different is valid as long as it remembers no handles. -/
theorem Tree.IsValid.fresh {good : Value → Prop} {t : Expr}
    (h : (t.nodes.filterMap Expr.id?).Nodup) : Tree.IsValid good { expr := t } :=
  ⟨t.stepName, Expr.stepsNamed_stepName h, .nil⟩

namespace Engine

/-- The tree that is kept of a text. -/
def kept? (e : Engine) (text : String) : Option Tree := e.cache.bind (·.get? text)

/-- What the cache rests on: functions are as expected, the data are among the good values, and the
trees that are kept remember only handles that they found. -/
structure Sound (good : Value → Prop) (e : Engine) : Prop where
  hasSteadyFunctions : e.HasSteadyFunctions
  context_good : ∀ root, e.context = some root → good root
  kept_valid : ∀ text tree, e.kept? text = some tree → tree.IsValid good

/-! ## Evaluating with any handles -/

/-- The trace that an engine has after an evaluation. -/
def traceAfter (e : Engine) (expr : Expr) (o : EvaluateOptions) (r : Outcome Value)
    (recorded : Recorded) : Option Trace :=
  if o.trace then
    match r with
    | .ok v => some (Trace.ofRun expr recorded v)
    | .error _ => none
  else e.lastTrace

/-- An evaluation leaves the engine with the world of the host and the trace that come of it, and
its tree with the handles that it found. -/
theorem run_run {e : Engine} {tree : Tree} {o : EvaluateOptions} {mode : Mode} {r : Outcome Value}
    {s : EvalState} (h : tree.expr.evaluate.exec
      { scope := e.scope, mode, traced := o.trace, token := o.token }
      { memo := tree.memo, host := e.host } = (r, s)) :
    (run tree o mode).run e = ((r, { tree with memo := s.memo }),
      { e with host := s.host, lastTrace := e.traceAfter tree.expr o r s.recorded }) := by
  unfold run
  simp only [StateT.run_bind, StateT.run_get, pure_bind, h, StateT.run_set]
  rfl

section
variable {good : Value → Prop} {e : Engine} {text : String}
  (o : EvaluateOptions) (mode : Mode)

/-- A tree is evaluated like one that remembers no handles. -/
theorem exists_run (hgood : HandleContract good)
    (hcontext : ∀ root, e.context = some root → good root) {tree : Tree}
    (htree : tree.IsValid good) : ∃ r host lastTrace memo memo',
      Tree.IsValid good { tree with memo } ∧
      (∀ cache, (run tree o mode).run { e with cache } =
        ((r, { tree with memo }), { e with cache, host, lastTrace })) ∧
      ∀ cache, (run { expr := tree.expr } o mode).run { e with cache } =
        ((r, { expr := tree.expr, memo := memo' }), { e with cache, host, lastTrace }) := by
  obtain ⟨names, hnamed, hmemo⟩ := htree
  have hrelated := Expr.relatedBy_remembering hgood hnamed
  -- The same expression is evaluated from two memos that are both valid.
  obtain ⟨r, s, t, hx, hy, hhost, hrecorded, hs⟩ : ∃ r s t,
      tree.expr.evaluate.exec { scope := e.scope, mode, traced := o.trace, token := o.token }
        { memo := tree.memo, host := e.host } = (r, s) ∧
      tree.expr.evaluate.exec { scope := e.scope, mode, traced := o.trace, token := o.token }
        { memo := [], host := e.host } = (r, t) ∧
      s.host = t.host ∧ s.recorded = t.recorded ∧ s.memo.IsValid good names := by
    rcases @hrelated ⟨e.scope, mode, o.trace, o.token⟩ { memo := tree.memo, host := e.host }
        { memo := [], host := e.host } hcontext ⟨rfl, rfl, hmemo, .nil⟩ with
      ⟨v, s, t, hx, hy, -, hst⟩ | ⟨error, _, s, t, hx, hy, rfl, hst⟩
    · exact ⟨.ok v, s, t, hx, hy, hst.1, hst.2.1, hst.2.2.1⟩
    · exact ⟨.error error, s, t, hx, hy, hst.1, hst.2.1, hst.2.2.1⟩
  refine ⟨r, s.host, e.traceAfter tree.expr o r s.recorded, s.memo, t.memo,
    ⟨names, hnamed, hs⟩, fun cache => @run_run { e with cache } _ _ _ _ _ hx, ?_⟩
  rw [hhost, hrecorded]
  exact fun cache => @run_run { e with cache } { expr := tree.expr } _ _ _ _ hy

/-! ## Evaluating a text -/

/-- If no tree of a text is kept, the text is read, and what it is read as is kept if it is to
be. -/
theorem run_treeOf_of_none {useCache : Bool} (he : e.HasSteadyFunctions)
    (hnone : useCache = true → e.kept? text = none) : (treeOf text useCache).run.run e =
      match e.reads text with
      | .error error => (.error error, e)
      | .ok t => (.ok { expr := t }, if useCache then
          { e with cache := e.cache.map (·.insert text { expr := t }) } else e) := by
  have hserved : (if useCache then e.cache.bind (·.get? text) else none) = none := by
    split
    · next hcached => exact hnone hcached
    · rfl
  rw [run_treeOf, hserved, run_parse_eq he]
  cases e.reads text <;> rfl

/-- An evaluation of a text whose tree is kept is one of that tree, which is kept again with the
handles that it found. -/
theorem evaluateIn_of_kept {tree tree' : Tree} {r : Outcome Value} {e' : Engine}
    (hcached : o.useCache = true) (hkept : e.kept? text = some tree)
    (hrun : (run tree o mode).run e = ((r, tree'), e')) : (evaluateIn mode text o).run.run e =
      (r, { e' with cache := e'.cache.map (·.replace text tree') }) := by
  have htree : (treeOf text o.useCache).run.run e = (.ok tree, e) := by
    rw [run_treeOf, hcached, if_pos rfl, ← kept?, hkept]
  rw [run_evaluateIn, htree, hcached]
  dsimp only
  rw [hrun]
  rfl

theorem evaluateIn_of_error (he : e.HasSteadyFunctions) {error : CalcError}
    (hnone : o.useCache = true → e.kept? text = none) (hreads : e.reads text = .error error) :
    (evaluateIn mode text o).run.run e = (.error error, e) := by
  rw [run_evaluateIn, run_treeOf_of_none he hnone, hreads]

/-- An evaluation of a text of which no tree is kept is one of what it is read as, which is kept
first if it is to be. -/
theorem evaluateIn_of_read {t : Expr} {tree' : Tree} {r : Outcome Value} {e' : Engine}
    (he : e.HasSteadyFunctions) (hnone : o.useCache = true → e.kept? text = none)
    (hreads : e.reads text = .ok t)
    (hrun : (run { expr := t } o mode).run (if o.useCache then
      { e with cache := e.cache.map (·.insert text { expr := t }) } else e) = ((r, tree'), e')) :
    (evaluateIn mode text o).run.run e =
      (r, if o.useCache then { e' with cache := e'.cache.map (·.replace text tree') } else e') := by
  rw [run_evaluateIn, run_treeOf_of_none he hnone, hreads]
  dsimp only
  rw [hrun]

/-- Whether an operation on an engine may leave a cache: its trees remember only handles that they
found, and each was kept before, but for its handles, or is what its text is read as. -/
def MayKeep (good : Value → Prop) (e : Engine) (cache : Option Cache) : Prop :=
  ∀ text tree', cache.bind (·.get? text) = some tree' → tree'.IsValid good ∧
    ((∃ tree, e.kept? text = some tree ∧ tree.expr = tree'.expr) ∨
      (e.kept? text = none ∧ e.reads text = .ok tree'.expr))

namespace MayKeep

theorem refl (h : Sound good e) : MayKeep good e e.cache :=
  fun _ tree hkept => ⟨h.kept_valid _ _ hkept, .inl ⟨tree, hkept, rfl⟩⟩

/-- A tree that is kept may be replaced by the same expression with other valid handles. -/
theorem replace (h : Sound good e) {tree tree' : Tree} (hkept : e.kept? text = some tree)
    (hexpr : tree.expr = tree'.expr) (hvalid : tree'.IsValid good) :
    MayKeep good e (e.cache.map (·.replace text tree')) := by
  intro text' tree'' hget
  rcases Cache.found_of_replace hget with ⟨rfl, rfl⟩ | ⟨-, hfound⟩
  · exact ⟨hvalid, .inl ⟨tree, hkept, hexpr⟩⟩
  · exact refl h _ _ hfound

/-- Where no tree of a text is kept, one of what the text is read as may be kept. -/
theorem insert (h : Sound good e) {tree tree' : Tree} (hnone : e.kept? text = none)
    (hreads : e.reads text = .ok tree'.expr) (hvalid : tree'.IsValid good) :
    MayKeep good e ((e.cache.map (·.insert text tree)).map (·.replace text tree')) := by
  intro text' tree'' hget
  rcases Cache.found_of_replace hget with ⟨rfl, rfl⟩ | ⟨htext, hinserted⟩
  · exact ⟨hvalid, .inr ⟨hnone, hreads⟩⟩
  · rcases Cache.found_of_insert hinserted with ⟨rfl, -⟩ | hfound
    · exact absurd rfl htext
    · exact refl h _ _ hfound

end MayKeep

/-! ## Evaluating a text with and without the cache -/

/-- The expression that an engine takes a text as, from the cache or not. -/
def served (e : Engine) (text : String) (useCache : Bool) : Outcome Expr :=
  ((treeOf text useCache).run.run e).1.map (·.expr)

theorem served_of_kept {tree : Tree} (hkept : e.kept? text = some tree) :
    e.served text true = .ok tree.expr := by
  rw [served, run_treeOf, if_pos rfl, ← kept?, hkept]
  rfl

theorem served_of_none {useCache : Bool} (he : e.HasSteadyFunctions)
    (hnone : useCache = true → e.kept? text = none) : e.served text useCache = e.reads text := by
  rw [served, run_treeOf_of_none he hnone]
  cases e.reads text <;> rfl

/-- What becomes of a text that was taken as an expression, or not at all. -/
def evaluated (e : Engine) (o : EvaluateOptions) (mode : Mode) :
    Outcome Expr → Outcome Value × Engine
  | .error error => (.error error, e)
  | .ok t =>
    let ((r, _), e') := (run { expr := t } o mode).run e
    (r, e')

/-- What comes of a text that was taken as an expression changes the world of the host and the trace
of the engine, and nothing else. -/
theorem exists_evaluated (taken : Outcome Expr) : ∃ r host lastTrace,
    e.evaluated o mode taken = (r, { e with host, lastTrace }) := by
  cases taken with
  | error error => exact ⟨_, e.host, e.lastTrace, rfl⟩
  | ok t => exact ⟨_, _, _, rfl⟩

/-- An evaluation evaluates what the text is taken as, whatever handles are remembered. -/
theorem exists_evaluateIn (hgood : HandleContract good) (h : Sound good e) :
    ∃ cache, MayKeep good e cache ∧ (evaluateIn mode text o).run.run e =
      ((e.evaluated o mode (e.served text o.useCache)).1,
        { (e.evaluated o mode (e.served text o.useCache)).2 with cache }) := by
  -- The tree comes from the cache, with handles, or it is read, with none.
  by_cases hserved : ∃ tree, o.useCache = true ∧ e.kept? text = some tree
  · obtain ⟨tree, hcached, hkept⟩ := hserved
    obtain ⟨r, host, lastTrace, memo, memo', hvalid, hrun, hrun'⟩ :=
      exists_run o mode hgood h.context_good (h.kept_valid _ _ hkept)
    have hkeep : MayKeep good e (e.cache.map (·.replace text { tree with memo })) :=
      .replace h hkept rfl hvalid
    refine ⟨_, hkeep, ?_⟩
    rw [evaluateIn_of_kept o mode hcached hkept (hrun e.cache), hcached, served_of_kept hkept]
    dsimp only [evaluated]
    rw [hrun' e.cache]
  · have hnone : o.useCache = true → e.kept? text = none := by
      intro hcached
      rw [Option.eq_none_iff_forall_ne_some]
      exact fun tree hkept => hserved ⟨tree, hcached, hkept⟩
    rw [served_of_none h.hasSteadyFunctions hnone]
    cases hreads : e.reads text with
    | error error =>
      exact ⟨e.cache, .refl h, evaluateIn_of_error o mode h.hasSteadyFunctions hnone hreads⟩
    | ok t =>
      obtain ⟨r, host, lastTrace, memo, memo', hvalid, hrun, hrun'⟩ :=
        exists_run o mode hgood h.context_good (.fresh (nodup_ids_of_reads hreads))
      dsimp only [evaluated]
      rw [hrun' e.cache]
      cases hcached : o.useCache with
      | true =>
        have hkeep : MayKeep good e ((e.cache.map (·.insert text { expr := t })).map
            (·.replace text { expr := t, memo })) := .insert h (hnone hcached) hreads hvalid
        refine ⟨_, hkeep, ?_⟩
        rw [evaluateIn_of_read o mode h.hasSteadyFunctions hnone hreads
          (by rw [hcached]; exact hrun _), hcached]
        rfl
      | false =>
        refine ⟨e.cache, .refl h, ?_⟩
        rw [evaluateIn_of_read o mode h.hasSteadyFunctions hnone hreads
          (by rw [hcached]; exact hrun _), hcached]
        rfl

end

end Engine

end Formula
