import Formula.Proofs.Engine.Cache
import Formula.Proofs.Object.HostFree
import Formula.Proofs.Token.Printed

/-!
# Histories of an engine

An engine reaches its state by operations of its host, one after another.  Whatever they were, a
text whose tree is kept is taken as what it was read as when the tree was kept; and this is what it
is still read as if and only if its names mean what they meant then.  Only changes of variables, of
the presence of data and of the names that are skipped can give names another meaning while a tree
is kept; a host that makes them while none is kept does not see the cache (`names_whenRead`).
-/

namespace Formula

/-- What a host can do with an engine. -/
inductive Op where
  | setVariable (name : String) (v : Value)
  | removeVariable (name : String)
  | clearVariables
  | setContext (root : Value)
  | clearContext
  /-- Registers functions and removes some. -/
  | modifyFunctions (f : Registry → Registry)
  | setCulture (culture : Culture)
  | modifyOptions (f : Options → Options)
  | setNameChars (nameChars : List Char)
  | setOptimizes (optimizes : Bool)
  | setCaching (on : Bool)
  | clearCache
  | setExternals (externals : String → Option Value)
  | parse (text : String)
  | evaluate (text : String) (o : EvaluateOptions)
  | evaluateTree (tree : Tree) (o : EvaluateOptions)
  | validate (text : String) (useCache : Bool)
  /-- Acts on the world of the host, not on the engine. -/
  | act (f : Host → Host)

namespace Op

/-- The engine after an operation. -/
def apply (e : Engine) : Op → Engine
  | setVariable name v => e.setVariable name v
  | removeVariable name => e.removeVariable name
  | clearVariables => e.clearVariables
  | setContext root => e.setContext root
  | clearContext => e.clearContext
  | modifyFunctions f => e.modifyFunctions f
  | setCulture culture => e.setCulture culture
  | modifyOptions f => e.modifyOptions f
  | setNameChars nameChars => e.setNameChars nameChars
  | setOptimizes optimizes => e.setOptimizes optimizes
  | setCaching on => e.setCaching on
  | clearCache => e.clearCache
  | setExternals externals => e.setExternals externals
  | parse text => ((Engine.parse text).run.run e).2
  | evaluate text o => ((Engine.evaluate text o).run.run e).2
  | evaluateTree tree o => ((Engine.evaluateTree tree o).run e).2
  | validate text useCache => ((Engine.validate text useCache).run.run e).2
  | act f => { e with host := f e.host }

/-- What a host promises with an operation: its data keep what objects promise, and its functions
are as expected. -/
def Honours (good : Value → Prop) : Op → Prop
  | setContext root => good root
  | modifyFunctions f => ∀ r : Registry, (∀ g ∈ r.values, g.Steady) → ∀ g ∈ (f r).values, g.Steady
  | _ => True

/-- Whether an operation can give names another meaning and yet leaves the cache as it is. -/
def renames : Op → Bool
  | setVariable .. | removeVariable .. | clearVariables | setContext .. | clearContext
  | modifyOptions .. => true
  | _ => false

end Op

namespace Engine

/-! ## One operation -/

/-- What one operation can make of an engine.  A tree that is kept afterwards was kept before, but
for its handles, or is what its text was read as; and the settings for reading are the same then. -/
structure LeadsTo (good : Value → Prop) (e e' : Engine) : Prop where
  sound : Sound good e'
  kept_from : ∀ text tree', e'.kept? text = some tree' → SameSettings e' e ∧
    ((∃ tree, e.kept? text = some tree ∧ tree.expr = tree'.expr) ∨
      (e.kept? text = none ∧ e.reads text = .ok tree'.expr))

namespace LeadsTo

variable {good : Value → Prop} {e e' : Engine}

/-- An operation that changes no setting and keeps nothing new, but for what is read, leads on. -/
theorem of_mayKeep (h : Sound good e) (hsettings : SameSettings e' e)
    (hcontext : ∀ root, e'.context = some root → good root) (hcache : MayKeep good e e'.cache) :
    LeadsTo good e e' :=
  ⟨⟨hsettings.hasSteadyFunctions_iff.mpr h.hasSteadyFunctions, hcontext,
      fun text tree hkept => (hcache text tree hkept).1⟩,
    fun text tree hkept => ⟨hsettings, (hcache text tree hkept).2⟩⟩

/-- An operation that leaves no tree leads on, whatever it changes, if the functions are as
expected. -/
theorem of_emptied (hfunctions : e'.HasSteadyFunctions)
    (hcontext : ∀ root, e'.context = some root → good root)
    (hcache : ∀ text, e'.kept? text = none) : LeadsTo good e e' := by
  have hnever : ∀ {p : Prop} {text tree}, e'.kept? text = some tree → p := by
    intro p text tree hkept
    rw [hcache] at hkept
    cases hkept
  exact ⟨⟨hfunctions, hcontext, fun _ _ => hnever⟩, fun _ _ => hnever⟩

end LeadsTo

theorem kept?_clearCache (e : Engine) (text : String) : e.clearCache.kept? text = none := by
  rw [kept?, clearCache]
  cases e.cache <;> rfl

/-- Turning the cache off leaves no tree, and turning it on leaves those that are there. -/
theorem kept?_setCaching (e : Engine) (on : Bool) (text : String) :
    (e.setCaching on).kept? text = if on then e.kept? text else none := by
  cases on with
  | false => rfl
  | true =>
    rw [kept?, kept?, setCaching]
    cases e.cache <;> rfl

/-- Turning the cache on or off keeps nothing new. -/
theorem mayKeep_setCaching {good : Value → Prop} {e : Engine} (h : Sound good e) (on : Bool) :
    MayKeep good e (e.setCaching on).cache := by
  intro text tree hkept
  rw [← kept?, kept?_setCaching] at hkept
  split at hkept
  · exact MayKeep.refl h text tree hkept
  · cases hkept

/-- An evaluation leads on: it changes no setting, and keeps only what it read. -/
theorem leadsTo_evaluateIn {good : Value → Prop} (hgood : HandleContract good) {e : Engine}
    (h : Sound good e) (mode : Mode) (text : String) (o : EvaluateOptions) :
    LeadsTo good e ((evaluateIn mode text o).run.run e).2 := by
  obtain ⟨cache, hcache, hrun⟩ := @exists_evaluateIn _ _ text o mode hgood h
  obtain ⟨r, host, lastTrace, heval⟩ := @exists_evaluated e o mode (e.served text o.useCache)
  rw [hrun, heval]
  exact .of_mayKeep h ⟨rfl, rfl, rfl, rfl⟩ h.context_good hcache

/-- An evaluation gives no name another meaning. -/
theorem names_evaluateIn {good : Value → Prop} (hgood : HandleContract good) {e : Engine}
    (h : Sound good e) (mode : Mode) (text : String) (o : EvaluateOptions) :
    ((evaluateIn mode text o).run.run e).2.names = e.names := by
  obtain ⟨cache, -, hrun⟩ := @exists_evaluateIn _ _ text o mode hgood h
  obtain ⟨r, host, lastTrace, heval⟩ := @exists_evaluated e o mode (e.served text o.useCache)
  rw [hrun, heval]
  rfl

end Engine

open Engine

/-- Every operation leads from a sound engine to a sound engine. -/
theorem Op.leadsTo {good : Value → Prop} (hgood : HandleContract good) {e : Engine}
    (h : Sound good e) {op : Op} (hop : op.Honours good) : LeadsTo good e (op.apply e) := by
  -- What does not touch the cache leaves the settings for reading alone; the rest empties it.
  have hkeep : MayKeep good e e.cache := .refl h
  cases op with
  | setVariable | removeVariable | clearVariables | modifyOptions | act | evaluateTree =>
    exact .of_mayKeep h ⟨rfl, rfl, rfl, rfl⟩ h.context_good hkeep
  | setContext root =>
    refine .of_mayKeep h ⟨rfl, rfl, rfl, rfl⟩ ?_ hkeep
    rintro _ ⟨⟩
    exact hop
  | clearContext => exact .of_mayKeep h ⟨rfl, rfl, rfl, rfl⟩ nofun hkeep
  | setCaching on =>
    exact .of_mayKeep h ⟨rfl, rfl, rfl, rfl⟩ h.context_good (mayKeep_setCaching h on)
  | modifyFunctions f =>
    exact .of_emptied (hop _ h.hasSteadyFunctions) h.context_good (kept?_clearCache _)
  | setCulture | setNameChars | setOptimizes | clearCache | setExternals =>
    exact .of_emptied h.hasSteadyFunctions h.context_good (kept?_clearCache _)
  | parse text =>
    rw [apply, run_parse_eq h.hasSteadyFunctions]
    exact .of_mayKeep h (.refl e) h.context_good hkeep
  | evaluate text o => exact leadsTo_evaluateIn hgood h o.mode text o
  | validate text useCache => exact leadsTo_evaluateIn hgood h .validation text _

/-- Where a tree is still kept, all other operations leave the meaning of names alone. -/
theorem Op.names_apply {good : Value → Prop} (hgood : HandleContract good) {e : Engine}
    (h : Sound good e) {op : Op} (hop : op.renames = false) {text : String} {tree : Tree}
    (hkept : (op.apply e).kept? text = some tree) : (op.apply e).names = e.names := by
  have hemptied : ∀ e : Engine, e.clearCache.kept? text ≠ some tree := by
    intro e
    rw [kept?_clearCache]
    exact nofun
  cases op with
  | setVariable | removeVariable | clearVariables | setContext | clearContext | modifyOptions =>
    cases hop
  | setCaching | evaluateTree | act => rfl
  | modifyFunctions | setCulture | setNameChars | setOptimizes | clearCache | setExternals =>
    exact absurd hkept (hemptied _)
  | parse text =>
    rw [apply, run_parse_eq h.hasSteadyFunctions]
  | evaluate text o => exact names_evaluateIn hgood h o.mode text o
  | validate text useCache => exact names_evaluateIn hgood h .validation text _

namespace Engine

/-! ## All operations so far -/

/-- The engine after a history of operations, the last one first. -/
def after : List Op → Engine
  | [] => {}
  | op :: past => op.apply (after past)

/-- The engine as it was when the text was read whose tree is kept; if none is kept, as it is. -/
def whenRead (text : String) : List Op → Engine
  | [] => {}
  | op :: past =>
    if ((after (op :: past)).kept? text).isSome then whenRead text past else after (op :: past)

/-- If no tree of a text is kept, the text counts as not read yet. -/
theorem whenRead_of_none {text : String} {history : List Op}
    (h : (after history).kept? text = none) : whenRead text history = after history := by
  cases history with
  | nil => rfl
  | cons op past => rw [whenRead, h, Option.isSome_none, if_neg Bool.false_ne_true]

theorem whenRead_of_some {text : String} {op : Op} {past : List Op} {tree : Tree}
    (h : (after (op :: past)).kept? text = some tree) :
    whenRead text (op :: past) = whenRead text past := by
  rw [whenRead, h, Option.isSome_some, if_pos rfl]

/-- An engine is sound at first: it has the built-in functions, no data and no trees. -/
theorem sound_start (good : Value → Prop) : Sound good {} := by
  refine ⟨fun f hf => ?_, nofun, nofun⟩
  obtain ⟨b, -, rfl⟩ := Registry.exists_of_mem_values_builtin hf
  exact b.steady

section
variable {good : Value → Prop} (hgood : HandleContract good) {history : List Op}
  (hhonours : ∀ op ∈ history, op.Honours good)
include hgood hhonours

/-- An engine stays sound, whatever its host does that keeps its promises. -/
theorem sound_after : Sound good (after history) := by
  induction history with
  | nil => exact sound_start good
  | cons op past ih =>
    obtain ⟨hop, hpast⟩ := List.forall_mem_cons.mp hhonours
    exact (op.leadsTo hgood (ih hpast) hop).sound

/-- A tree that is kept is what its text was read as when the settings were the same as now. -/
theorem reads_whenRead (text : String) :
    SameSettings (after history) (whenRead text history) ∧
      ∀ tree, (after history).kept? text = some tree →
        (whenRead text history).reads text = .ok tree.expr := by
  induction history with
  | nil => exact ⟨.refl _, nofun⟩
  | cons op past ih =>
    obtain ⟨hop, hpast⟩ := List.forall_mem_cons.mp hhonours
    have hstep := op.leadsTo hgood (sound_after hgood hpast) hop
    cases hkept : (after (op :: past)).kept? text with
    | none =>
      rw [whenRead_of_none hkept]
      exact ⟨.refl _, nofun⟩
    | some tree =>
      rw [whenRead_of_some hkept]
      obtain ⟨hsettings, hfrom⟩ := hstep.kept_from text tree hkept
      obtain ⟨hsame, hreads⟩ := ih hpast
      refine ⟨hsettings.trans hsame, ?_⟩
      rintro _ ⟨⟩
      -- The tree was kept before the last operation, or the last operation has read it.
      rcases hfrom with ⟨tree', hkept', hexpr⟩ | ⟨hnone, hread⟩
      · rw [hreads tree' hkept', hexpr]
      · rw [whenRead_of_none hnone]
        exact hread

/-- The tree that a text is served as is what the text was read as when it was kept. -/
theorem served_eq_reads (text : String) :
    (after history).served text true = (whenRead text history).reads text := by
  cases hkept : (after history).kept? text with
  | none =>
    rw [whenRead_of_none hkept]
    exact served_of_none (sound_after hgood hhonours).hasSteadyFunctions fun _ => hkept
  | some tree => rw [served_of_kept hkept, (reads_whenRead hgood hhonours text).2 tree hkept]

/-- A text is taken as the same with the cache and without it if and only if its names mean now what
they meant when the tree that is kept of it was read. -/
theorem served_eq_iff (text : String) :
    (after history).served text true = (after history).served text false ↔
      ∀ s ∈ (after history).namesIn text,
        (after history).names.meaning s = (whenRead text history).names.meaning s := by
  have hsteady := (sound_after hgood hhonours).hasSteadyFunctions
  obtain ⟨hsame, hreads⟩ := reads_whenRead hgood hhonours text
  have hfresh : (after history).served text false = (after history).reads text :=
    served_of_none hsteady nofun
  cases hkept : (after history).kept? text with
  | none =>
    have htrue := @served_of_none _ text true hsteady fun _ => hkept
    rw [whenRead_of_none hkept, htrue, hfresh]
    exact iff_of_true rfl fun _ _ => rfl
  | some tree =>
    rw [served_of_kept hkept, hfresh, eq_comm, hsame.namesIn_eq]
    exact hsame.reads_eq_iff (hsame.hasSteadyFunctions_iff.mp hsteady) (hreads tree hkept)

/-- A host that gives names another meaning only while no tree is kept never makes a tree stale. -/
theorem names_whenRead (hcareful : ∀ op past, op :: past <:+ history → op.renames = true →
      ∀ text, (after past).kept? text = none) (text : String) :
    (after history).names = (whenRead text history).names := by
  induction history with
  | nil => rfl
  | cons op past ih =>
    obtain ⟨-, hpast⟩ := List.forall_mem_cons.mp hhonours
    have hsound := sound_after hgood hpast
    cases hkept : (after (op :: past)).kept? text with
    | none => rw [whenRead_of_none hkept]
    | some tree =>
      have hop : op.renames = false := by
        rw [← Bool.not_eq_true]
        intro hrenames
        -- An operation that renames leaves the cache as it is, so the tree was kept before.
        have hnone := hcareful op past (List.suffix_refl _) hrenames text
        have hbefore : (after past).kept? text = some tree := by
          cases op <;> first | exact hkept | cases hrenames
        rw [hnone] at hbefore
        cases hbefore
      rw [whenRead_of_some hkept]
      refine (op.names_apply hgood hsound hop hkept).trans (ih hpast ?_)
      exact fun op' past' hsuffix => hcareful op' past' (hsuffix.trans (List.suffix_cons op past))

end

/-- Whether two operations give the same and leave the same engine, but for its cache. -/
def SameButCache (p q : Outcome Value × Engine) : Prop :=
  p.1 = q.1 ∧ { p.2 with cache := none } = { q.2 with cache := none }

namespace SameButCache

variable {p q r : Outcome Value × Engine}

theorem symm (h : SameButCache p q) : SameButCache q p := ⟨h.1.symm, h.2.symm⟩

theorem trans (h : SameButCache p q) (h' : SameButCache q r) : SameButCache p r :=
  ⟨h.1.trans h'.1, h.2.trans h'.2⟩

end SameButCache

/-- Evaluating with the cache is evaluating what the text was read as when its tree was kept.  That
is still what the text is read as if and only if all names in it mean what they meant then; and as
long as they do, the cache is unseen. -/
theorem cache_unseen {good : Value → Prop} (hgood : HandleContract good) (history : List Op)
    (hhonours : ∀ op ∈ history, op.Honours good) (text : String) :
    let e := after history
    let known := whenRead text history
    let unchanged := ∀ s ∈ e.namesIn text, e.names.meaning s = known.names.meaning s
    (∀ mode o, SameButCache ((evaluateIn mode text o).run.run e)
      (e.evaluated o mode (if o.useCache then known.reads text else e.reads text))) ∧
    (e.served text true = e.served text false ↔ unchanged) ∧
    (unchanged →
      (∀ o : EvaluateOptions, SameButCache ((evaluate text { o with useCache := true }).run.run e)
        ((evaluate text { o with useCache := false }).run.run e)) ∧
      SameButCache ((validate text true).run.run e) ((validate text false).run.run e)) := by
  intro e known unchanged
  have hsound : Sound good e := sound_after hgood hhonours
  have hserved : e.served text true = known.reads text := served_eq_reads hgood hhonours text
  have hfresh : e.served text false = e.reads text :=
    served_of_none hsound.hasSteadyFunctions nofun
  have hiff : e.served text true = e.served text false ↔ unchanged :=
    served_eq_iff hgood hhonours text
  have hevaluates : ∀ mode o, SameButCache ((evaluateIn mode text o).run.run e)
      (e.evaluated o mode (e.served text o.useCache)) := by
    intro mode o
    obtain ⟨cache, -, hrun⟩ := @exists_evaluateIn _ _ text o mode hgood hsound
    rw [hrun]
    exact ⟨rfl, rfl⟩
  -- Whether the cache may be used matters to an evaluation only through what it is served.
  have hboth : ∀ mode (o : EvaluateOptions), unchanged →
      SameButCache ((evaluateIn mode text { o with useCache := true }).run.run e)
        ((evaluateIn mode text { o with useCache := false }).run.run e) := by
    intro mode o hnames
    have htrue := hevaluates mode { o with useCache := true }
    have hfalse := hevaluates mode { o with useCache := false }
    rw [show e.served text true = e.served text false from hiff.mpr hnames] at htrue
    exact htrue.trans hfalse.symm
  refine ⟨fun mode o => ?_, hiff, fun hnames => ⟨fun o => hboth o.mode o hnames, ?_⟩⟩
  · have htaken := hevaluates mode o
    cases hcached : o.useCache with
    | true =>
      rw [hcached, hserved] at htaken
      exact htaken
    | false =>
      rw [hcached, hfresh] at htaken
      exact htaken
  · exact hboth .validation { trace := false } hnames

/-! ## A variable that takes over a name -/

/-- A person called Ann. -/
def ann : Value := .object ⟨0, .record ⟨"Person", [⟨"Name", .text "Ann", none⟩]⟩⟩

theorem hostFree_ann : ann.HostFree := by
  refine .record (fun m hm => ?_) fun m hm v hv => ?_
  · cases List.mem_singleton.mp hm
    exact .text "Ann"
  · cases List.mem_singleton.mp hm
    cases hv

/-- The formula `Name` is evaluated on the data; then `Name` becomes a variable. -/
def shadowed : List Op :=
  [.setVariable "Name" (.number 5), .evaluate "Name" { useCache := true }, .setContext ann]

theorem honours_shadowed : ∀ op ∈ shadowed, op.Honours Value.HostFree := by
  simp [shadowed, Op.Honours, hostFree_ann]

/-- The token of the formula `Name`. -/
def nameToken : Token := ⟨.name "Name", 0, 4⟩

/-- The text `Name` is one token, a name up to the end of the text. -/
theorem tokenizes_name : Parse.Tokenizes .plain "Name".toList [nameToken] := by
  have hscan : scan .plain ['N', 'a', 'm', 'e'] = ⟨[nameToken, ⟨.finish, 4, 4⟩], none⟩ :=
    scan_name (by decide +kernel) rfl (forall_mem_of_all (by decide +kernel))
  exact ⟨4, hscan⟩

theorem stripComments_name : stripComments "Name".toList = "Name".toList := by
  show stripComments ['N', 'a', 'm', 'e'] = ['N', 'a', 'm', 'e']
  simp [stripComments]

theorem function?_name : Registry.builtin.get? "Name" = none := by
  rw [← Option.isNone_iff_eq_none]
  decide +kernel

/-- The formula is read as what its token can be derived as. -/
theorem reads_name {e : Engine} {t : Expr} (hspelling : e.spelling = .plain)
    (hderives : Parse.Derives e.names "Name".toList (.atom t) 0 [nameToken] 1)
    (hfold : ∀ scope host, (t.fold scope).run host = (t, host)) : e.reads "Name" = .ok t := by
  have hparsed : e.parsed "Name" = .ok t := by
    rw [parsed, stripComments_name, hspelling]
    exact Parse.parseSource_of_derives tokenizes_name
      (.operand (.operand (.operand (.operand (.operand (.unsigned hderives))))))
  rw [reads_of_parsed hparsed, folded, hfold, ite_self]

/-- The formula `Name` as a path. -/
def namePath : Expr := .path 0 [⟨"Name", false, []⟩] "Name"

/-- With data and no variable of that name, `Name` is read as a path. -/
theorem reads_namePath : (after [.setContext ann]).reads "Name" = .ok namePath := by
  have hpath : Parse.Derives (after [.setContext ann]).names "Name".toList
      (.atom (.path 0 [⟨"Name", false, []⟩] (Parse.pathText "Name".toList nameToken []))) 0
      [nameToken] 1 :=
    .path rfl function?_name rfl rfl rfl (.lastStep .noList)
  exact reads_name rfl hpath fun _ _ => rfl

/-- What is left of the evaluation of the formula on the data. -/
theorem exists_after_evaluate : ∃ memo lastTrace,
    after [.evaluate "Name" { useCache := true }, .setContext ann] =
      { after [.setContext ann] with cache := some [("Name", ⟨namePath, memo⟩)], lastTrace } := by
  have hsteady : (after [.setContext ann]).HasSteadyFunctions :=
    (sound_start fun _ => True).hasSteadyFunctions
  exact ⟨_, _, congrArg Prod.snd
    (evaluateIn_of_read { useCache := true } .strict hsteady (fun _ => rfl) reads_namePath rfl)⟩

/-- The evaluation only remembers a handle and leaves a trace before `Name` becomes a variable. -/
theorem exists_after_shadowed : ∃ memo lastTrace, after shadowed =
    { after [.setContext ann] with
      vars := NameMap.insert {} "Name" (.number 5)
      cache := some [("Name", ⟨namePath, memo⟩)]
      lastTrace } := by
  obtain ⟨memo, lastTrace, h⟩ := exists_after_evaluate
  refine ⟨memo, lastTrace, ?_⟩
  rw [shadowed, after, h]
  rfl

/-- The tree of `Name` was read when there were only the data. -/
theorem whenRead_shadowed : whenRead "Name" shadowed = after [.setContext ann] := by
  obtain ⟨memo, lastTrace, h⟩ := exists_after_evaluate
  have hkept : (after [.evaluate "Name" { useCache := true }, .setContext ann]).kept? "Name" =
      some ⟨namePath, memo⟩ := by
    rw [h]
    rfl
  have hkept' : (after shadowed).kept? "Name" = some ⟨namePath, memo⟩ := hkept
  rw [shadowed, whenRead_of_some hkept', whenRead_of_some hkept, whenRead_of_none rfl]

/-- Here the cache is seen: with it the formula is still a path, without it the variable. -/
theorem cache_unseen_shadowed : (∀ op ∈ shadowed, op.Honours Value.HostFree) ∧
    ((evaluate "Name" { useCache := true }).run.run (after shadowed)).1 = .ok (.text "Ann") ∧
    ((evaluate "Name").run.run (after shadowed)).1 = .ok (.number 5) := by
  obtain ⟨hevaluates, -, -⟩ :=
    cache_unseen Value.HostFree.handleContract shadowed honours_shadowed "Name"
  obtain ⟨memo, lastTrace, hafter⟩ := exists_after_shadowed
  refine ⟨honours_shadowed, (hevaluates .strict { useCache := true }).1.trans ?_,
    (hevaluates .strict {}).1.trans ?_⟩
  · rw [if_pos rfl, whenRead_shadowed, reads_namePath, hafter]
    rfl
  · have hreads : (after shadowed).reads "Name" = .ok (.var 0 "Name" []) := by
      rw [hafter]
      refine reads_name rfl ?_ fun _ _ => rfl
      exact .var rfl function?_name rfl .noList
    rw [if_neg Bool.false_ne_true, hreads, hafter]
    rfl

end Engine

end Formula
