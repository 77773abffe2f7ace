import Formula.Proofs.Engine.Requests

/-!
# What is kept of a history

The history of an engine tells which trees its cache holds: those of the texts that were read for it
since it was last emptied, each as it was first read then (`kept_iff_firstRead`).  An operation that
is to keep a tree reads its text if no tree of it is kept, and keeps what it has read before it
evaluates it; so nothing is kept of a text that cannot be read, and whether the evaluation fails is
of no account.
-/

namespace Formula

/-! ## Texts of a cache -/

namespace Cache

/-- Putting other handles on a tree that is kept changes no expression that is kept. -/
theorem expr_get?_replace {c : Cache} {text : String} {tree : Tree} (hget : c.get? text = some tree)
    {t : Expr} (hexpr : tree.expr = t) (memo : Memo) (text' : String) :
    ((c.replace text { expr := t, memo }).get? text').map (·.expr) =
      (c.get? text').map (·.expr) := by
  rw [get?_replace]
  split
  · next h => rw [h, hget, Option.map_some, Option.map_some, Option.map_some, hexpr]
  · rfl

/-- A text is kept once: a tree that is inserted takes the place of one under its text. -/
theorem nodup_insert {c : Cache} (h : (c.map Prod.fst).Nodup) (text : String) (tree : Tree) :
    ((c.insert text tree).map Prod.fst).Nodup := by
  rw [insert, List.map_cons, List.nodup_cons]
  constructor
  · intro hmem
    obtain ⟨entry, hentry, htext⟩ := List.mem_map.mp hmem
    simpa [htext] using List.of_mem_filter hentry
  · exact (List.filter_sublist.map Prod.fst).nodup h

/-- Replacing a tree leaves the texts that are kept and their order. -/
theorem texts_replace (c : Cache) (text : String) (tree : Tree) :
    (c.replace text tree).map Prod.fst = c.map Prod.fst := by
  rw [replace, List.map_map]
  refine List.map_congr_left fun entry _ => ?_
  dsimp only [Function.comp_apply]
  split
  · next h => exact h.symm
  · rfl

end Cache

namespace Engine

/-- The expression that is kept of a text. -/
def keptExpr? (e : Engine) (text : String) : Option Expr := (e.kept? text).map (·.expr)

/-- Whether an engine keeps at most one tree of each text. -/
def KeepsOnce (e : Engine) : Prop := ∀ c, e.cache = some c → (c.map Prod.fst).Nodup

/-! ## Reading and evaluating -/

variable (e : Engine) (text : String)

/-- Reading gives what the text is read as and changes nothing but the world of the host, in which
constants are folded. -/
theorem exists_run_parse : ∃ host, (parse text).run.run e = (e.reads text, { e with host }) := by
  rw [reads, run_parse]
  split
  · exact ⟨e.host, rfl⟩
  · split
    · exact ⟨_, rfl⟩
    · exact ⟨e.host, rfl⟩

/-- What an evaluation leaves in the cache.  A tree that was kept gets other handles; what the text
is read as is kept if no tree was. -/
theorem exists_cache_evaluateIn (mode : Mode) (o : EvaluateOptions) : ∃ memo,
    ((evaluateIn mode text o).run.run e).2.cache =
      if o.useCache then
        match e.kept? text, e.reads text with
        | some tree, _ => e.cache.map (·.replace text { tree with memo })
        | none, .ok t =>
          (e.cache.map (·.insert text { expr := t })).map (·.replace text { expr := t, memo })
        | none, .error _ => e.cache
      else e.cache := by
  obtain ⟨host, hparse⟩ := exists_run_parse e text
  rw [run_evaluateIn, run_treeOf, hparse, ← kept?]
  cases o.useCache with
  | false => cases e.reads text <;> exact ⟨[], rfl⟩
  | true =>
    cases e.kept? text with
    | some tree => exact ⟨_, rfl⟩
    | none =>
      cases e.reads text with
      | error error => exact ⟨[], rfl⟩
      | ok t => exact ⟨_, rfl⟩

/-- An evaluation neither turns the cache on nor off. -/
theorem isSome_cache_evaluateIn (mode : Mode) (o : EvaluateOptions) :
    ((evaluateIn mode text o).run.run e).2.cache.isSome = e.cache.isSome := by
  obtain ⟨memo, hcache⟩ := exists_cache_evaluateIn e text mode o
  rw [hcache]
  split
  · split <;> simp only [Option.isSome_map]
  · rfl

/-- Where no trees are kept, an evaluation that may use the cache does what any other does. -/
theorem evaluateIn_of_cache_eq_none {e : Engine} (h : e.cache = none) (mode : Mode)
    (o : EvaluateOptions) :
    (evaluateIn mode text { o with useCache := true }).run.run e =
      (evaluateIn mode text { o with useCache := false }).run.run e := by
  obtain ⟨host, hparse⟩ := exists_run_parse e text
  have hcache : ∀ e' : Engine, e'.cache = none → ∀ f : Cache → Cache,
      { e' with cache := e'.cache.map f } = e' := by
    intro e' he' f
    rw [he', Option.map_none, ← he']
  rw [run_evaluateIn, run_evaluateIn, run_treeOf, run_treeOf, h, hparse]
  cases e.reads text with
  | error error => rfl
  | ok t =>
    dsimp only [if_true, Option.bind_none]
    rw [hcache { e with host } h]
    exact Prod.ext rfl (hcache ((run { expr := t } o mode).run { e with host }).2 h _)

/-- An evaluation that may use the cache keeps what its text is read as, if nothing is kept of it.
Whether it gives a value is of no account. -/
theorem keptExpr?_evaluateIn (mode : Mode) (o : EvaluateOptions) (text' : String) :
    ((evaluateIn mode text o).run.run e).2.keptExpr? text' = (e.keptExpr? text').or
      (if o.useCache ∧ text = text' ∧ e.cache.isSome then (e.reads text).toOption else none) := by
  obtain ⟨memo, hcache⟩ := exists_cache_evaluateIn e text mode o
  rw [keptExpr?, keptExpr?, kept?, kept?, hcache, kept?]
  cases o.useCache with
  | false => simp
  | true =>
    cases e.cache with
    | none => cases e.reads text <;> simp
    | some c =>
      rw [Option.bind_some, Option.bind_some, Option.isSome_some]
      cases hget : c.get? text with
      | some tree =>
        -- The tree that is kept gets other handles.
        show ((c.replace text { tree with memo }).get? text').map (·.expr) = _
        rw [Cache.expr_get?_replace hget rfl]
        by_cases htext : text = text'
        · rw [← htext, hget]
          rfl
        · simp [htext]
      | none =>
        cases e.reads text with
        | error error => simp [Except.toOption]
        | ok t =>
          have hinserted : (c.insert text { expr := t }).get? text = some { expr := t } := by
            rw [Cache.get?_insert, if_pos rfl]
          show (((c.insert text { expr := t }).replace text { expr := t, memo }).get? text').map
            (·.expr) = _
          rw [Cache.expr_get?_replace hinserted rfl, Cache.get?_insert]
          by_cases htext : text = text'
          · rw [← htext, hget, if_pos rfl]
            simp [Except.toOption]
          · rw [if_neg (Ne.symm htext)]
            simp [htext]

/-- An evaluation inserts a tree only if none of its text is kept, so each text is kept once. -/
theorem keepsOnce_evaluateIn {e : Engine} (h : e.KeepsOnce) (mode : Mode) (o : EvaluateOptions) :
    ((evaluateIn mode text o).run.run e).2.KeepsOnce := by
  obtain ⟨memo, hcache⟩ := exists_cache_evaluateIn e text mode o
  rw [KeepsOnce, hcache]
  split
  · cases hcached : e.cache with
    | none => split <;> exact nofun
    | some c =>
      split
      · rintro _ ⟨⟩
        rw [Cache.texts_replace]
        exact h c hcached
      · rintro _ ⟨⟩
        rw [Cache.texts_replace]
        exact Cache.nodup_insert (h c hcached) text _
      · rintro _ ⟨⟩
        exact h c hcached
  · exact h

end Engine

/-! ## Operations on the cache -/

namespace Op

/-- The text whose tree an operation keeps, if it can be read and trees are kept. -/
def wanted? : Op → Option String
  | evaluate text o => if o.useCache then some text else none
  | validate text useCache => if useCache then some text else none
  | _ => none

/-- Whether an operation leaves no tree that was kept. -/
def empties : Op → Bool
  | modifyFunctions _ | setCulture _ | setNameChars _ | setOptimizes _ | setExternals _
  | clearCache => true
  | setCaching on => !on
  | _ => false

theorem wanted?_of_empties {op : Op} (h : op.empties = true) : op.wanted? = none := by
  cases op <;> first | rfl | cases h

end Op

open Engine

/-- What is kept after an operation: nothing if it empties the cache; else what was kept before, and
what the operation reads its text as, if it is to keep it and nothing was kept of the text. -/
theorem Op.keptExpr?_apply (e : Engine) (op : Op) (text : String) :
    (op.apply e).keptExpr? text =
      if op.empties then none
      else (e.keptExpr? text).or
        (if op.wanted? = some text ∧ e.cache.isSome then (e.reads text).toOption else none) := by
  have hemptied : ∀ e : Engine, e.clearCache.keptExpr? text = none := by
    intro e
    rw [keptExpr?, kept?_clearCache]
    rfl
  cases op with
  | setVariable | removeVariable | clearVariables | setContext | clearContext | modifyOptions | act
  | evaluateTree => exact (Option.or_none).symm
  | modifyFunctions | setCulture | setNameChars | setOptimizes | clearCache | setExternals =>
    exact hemptied _
  | setCaching on =>
    show ((e.setCaching on).kept? text).map (·.expr) = _
    rw [kept?_setCaching]
    cases on with
    | false => rfl
    | true => exact (Option.or_none).symm
  | parse text' =>
    obtain ⟨host, hparse⟩ := exists_run_parse e text'
    rw [apply, hparse]
    exact (Option.or_none).symm
  | evaluate text' o =>
    rw [apply, Engine.evaluate, keptExpr?_evaluateIn, wanted?]
    cases o.useCache <;> by_cases htext : text' = text <;> simp [empties, htext]
  | validate text' useCache =>
    rw [apply, Engine.validate, keptExpr?_evaluateIn, wanted?]
    cases useCache <;> by_cases htext : text' = text <;> simp [empties, htext]

/-- No operation keeps a second tree of a text. -/
theorem Op.keepsOnce_apply {e : Engine} (h : e.KeepsOnce) (op : Op) : (op.apply e).KeepsOnce := by
  have hemptied : ∀ e : Engine, e.clearCache.KeepsOnce := by
    intro e c hc
    obtain ⟨_, -, rfl⟩ := Option.map_eq_some_iff.mp hc
    exact List.nodup_nil
  cases op with
  | setVariable | removeVariable | clearVariables | setContext | clearContext | modifyOptions | act
  | evaluateTree => exact h
  | modifyFunctions | setCulture | setNameChars | setOptimizes | clearCache | setExternals =>
    exact hemptied _
  | setCaching on =>
    intro c hc
    cases on with
    | false => cases hc
    | true =>
      obtain rfl : e.cache.getD [] = c := Option.some.inj hc
      cases hcache : e.cache with
      | none => exact List.nodup_nil
      | some c => exact h c hcache
  | parse text =>
    obtain ⟨host, hparse⟩ := exists_run_parse e text
    rw [apply, hparse]
    exact h
  | evaluate text o => exact keepsOnce_evaluateIn text h o.mode o
  | validate text useCache => exact keepsOnce_evaluateIn text h .validation _

namespace Engine

/-! ## Histories of the cache -/

/-- Whether trees are kept after a history, as it was last said. -/
def caching : List Op → Bool
  | [] => true
  | .setCaching on :: _ => on
  | _ :: past => caching past

/-- Whether an operation, after others, is to keep what a text is read as.  If a tree of the text is
kept already, the text is not read for it. -/
structure ReadToKeep (text : String) (t : Expr) (op : Op) (past : List Op) : Prop where
  wanted : op.wanted? = some text
  caching : caching past = true
  reads : (after past).reads text = .ok t

/-- Whether a text was read for the cache since it was last emptied. -/
inductive ReadSince (text : String) : List Op → Prop
  | now {t : Expr} {op : Op} {past : List Op} (h : ReadToKeep text t op past) :
    ReadSince text (op :: past)
  | before {op : Op} {past : List Op} (hop : op.empties = false) (h : ReadSince text past) :
    ReadSince text (op :: past)

/-- Whether a text was read as an expression when it was first read for the cache since that was
last emptied. -/
inductive FirstRead (text : String) (t : Expr) : List Op → Prop
  | now {op : Op} {past : List Op} (h : ReadToKeep text t op past) (hfirst : ¬ReadSince text past) :
    FirstRead text t (op :: past)
  | before {op : Op} {past : List Op} (hop : op.empties = false) (h : FirstRead text t past) :
    FirstRead text t (op :: past)

/-- The cache is on when it was turned on last, by induction on the history. -/
theorem isSome_cache_after (history : List Op) :
    (after history).cache.isSome = caching history := by
  induction history with
  | nil => rfl
  | cons op past ih =>
    have hemptied : ∀ e : Engine, e.clearCache.cache.isSome = e.cache.isSome :=
      fun e => Option.isSome_map
    cases op with
    | setVariable | removeVariable | clearVariables | setContext | clearContext | modifyOptions
    | act | evaluateTree => exact ih
    | modifyFunctions | setCulture | setNameChars | setOptimizes | clearCache | setExternals =>
      exact (hemptied _).trans ih
    | setCaching on => cases on <;> rfl
    | parse text =>
      obtain ⟨host, hparse⟩ := exists_run_parse (after past) text
      rw [after, Op.apply, hparse]
      exact ih
    | evaluate text o => exact (isSome_cache_evaluateIn _ text o.mode o).trans ih
    | validate text useCache => exact (isSome_cache_evaluateIn _ text .validation _).trans ih

/-- After any history at most one tree of each text is kept. -/
theorem keepsOnce_after (history : List Op) : (after history).KeepsOnce := by
  induction history with
  | nil =>
    rintro _ ⟨⟩
    exact List.nodup_nil
  | cons op past ih => exact op.keepsOnce_apply ih

/-- An operation is to keep what a text is read as if it wants the text while the cache is on, and
the text can be read. -/
theorem readToKeep_iff {text : String} {t : Expr} {op : Op} {past : List Op} :
    ReadToKeep text t op past ↔
      (if op.wanted? = some text ∧ (after past).cache.isSome then
        ((after past).reads text).toOption else none) = some t := by
  rw [isSome_cache_after]
  constructor
  · rintro ⟨hwanted, hcaching, hreads⟩
    rw [if_pos ⟨hwanted, hcaching⟩, hreads]
    rfl
  · intro h
    split at h
    · next hkeep =>
      refine ⟨hkeep.1, hkeep.2, ?_⟩
      cases hreads : (after past).reads text with
      | error error =>
        rw [hreads] at h
        cases h
      | ok t =>
        rw [hreads] at h
        exact congrArg Except.ok (Option.some.inj h)
    · cases h

/-- What is kept of a text is what it was first read as for the cache since that was last
emptied. -/
theorem keptExpr?_after (text : String) (history : List Op) :
    (((after history).keptExpr? text).isSome ↔ ReadSince text history) ∧
      ∀ t, (after history).keptExpr? text = some t ↔ FirstRead text t history := by
  induction history with
  | nil =>
    have hkept : (after []).keptExpr? text = none := rfl
    rw [hkept]
    refine ⟨iff_of_false Bool.false_ne_true ?_,
      fun t => iff_of_false (Option.some_ne_none t).symm ?_⟩
    · rintro ⟨⟩
    · rintro ⟨⟩
  | cons op past ih =>
    obtain ⟨hsince, hfirst⟩ := ih
    rw [after, op.keptExpr?_apply]
    cases hempties : op.empties with
    | true =>
      have hnever : ∀ t, ¬ReadToKeep text t op past := by
        intro t h
        have hwanted := h.wanted
        rw [Op.wanted?_of_empties hempties] at hwanted
        cases hwanted
      rw [if_pos rfl]
      refine ⟨iff_of_false Bool.false_ne_true fun h => ?_,
        fun t => iff_of_false (Option.some_ne_none t).symm fun h => ?_⟩
      · cases h with
        | now h => exact hnever _ h
        | before hop => cases hempties.symm.trans hop
      · cases h with
        | now h => exact hnever _ h
        | before hop => cases hempties.symm.trans hop
    | false =>
      rw [if_neg Bool.false_ne_true]
      cases hkept : (after past).keptExpr? text with
      | some t =>
        rw [hkept, Option.isSome_some] at hsince
        have hread : ReadSince text past := hsince.mp rfl
        refine ⟨iff_of_true rfl (.before hempties hread), fun t' => ?_⟩
        rw [Option.some_or, ← hkept, hfirst]
        refine ⟨.before hempties, fun h => ?_⟩
        cases h with
        | now _ hnot => exact absurd hread hnot
        | before _ h => exact h
      | none =>
        rw [hkept, Option.isSome_none] at hsince
        have hnot : ¬ReadSince text past := fun h => Bool.false_ne_true (hsince.mpr h)
        rw [Option.none_or]
        constructor
        · rw [Option.isSome_iff_exists]
          constructor
          · rintro ⟨t, ht⟩
            exact .now (readToKeep_iff.mpr ht)
          · rintro (h | ⟨-, h⟩)
            · exact ⟨_, readToKeep_iff.mp h⟩
            · exact absurd h hnot
        · intro t
          rw [← readToKeep_iff]
          refine ⟨fun h => .now h hnot, ?_⟩
          rintro (⟨h, -⟩ | ⟨-, h⟩)
          · exact h
          · rw [← hfirst, hkept] at h
            cases h

/-- The trees that are kept follow from the history of an engine.  Trees are kept of the texts that
were read for the cache since it was last emptied, one of each text, as it was first read then.
After each further request there is nothing, if that empties the cache; otherwise there is what
there was, and what the text of the request is read as, if it is to be kept and no tree of it was:
whether its evaluation fails is of no account.  While no trees are kept, an evaluation that may use
the cache does what any other does. -/
theorem kept_iff_firstRead (requests : List Request) :
    let e := afterAll requests
    let history := requests.map Request.untyped
    (e.cache.isSome = caching history ∧ e.KeepsOnce) ∧
    (∀ text, ((e.keptExpr? text).isSome ↔ ReadSince text history) ∧
      ∀ t, e.keptExpr? text = some t ↔ FirstRead text t history) ∧
    (∀ (r : Request) (text : String), (r.apply e).keptExpr? text =
      if r.untyped.empties then none
      else (e.keptExpr? text).or (if r.untyped.wanted? = some text ∧ e.cache.isSome then
        (e.reads text).toOption else none)) ∧
    (e.cache = none → ∀ (mode : Mode) (text : String) (o : EvaluateOptions),
      (evaluateIn mode text { o with useCache := true }).run.run e =
        (evaluateIn mode text { o with useCache := false }).run.run e ∧
      ((evaluateIn mode text { o with useCache := true }).run.run e).2.cache = none) := by
  dsimp only
  rw [afterAll_eq]
  refine ⟨⟨isSome_cache_after _, keepsOnce_after _⟩, fun text => keptExpr?_after text _,
    fun r text => ?_, fun hnone mode text o => ⟨evaluateIn_of_cache_eq_none text hnone mode o, ?_⟩⟩
  · rw [r.apply_eq, r.untyped.keptExpr?_apply]
  · rw [← Option.isNone_iff_eq_none, ← Option.not_isSome, isSome_cache_evaluateIn, hnone]
    rfl

end Engine

end Formula
