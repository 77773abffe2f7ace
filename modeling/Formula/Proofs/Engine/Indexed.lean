import Formula.Proofs.Evaluation.Handles
import Formula.Proofs.Expr.Folding

/-!
# Indexed variables and indexed members

A variable and a member of the data that hold the same array give the same item for an index
(`indexed_alike`).  They differ where the array has no item at the position: there a variable is
absent, and so is a path in lenient mode, but in strict mode the path fails.  And in lenient mode a
path puts up with problems of paths that its index fails with, which a variable does not; without
functions of the host that raise them there are none (`position_ne_binding`).
-/

namespace Formula

/-- The item of a list at a position, if the position is a whole number that the list has. -/
def itemAt? (items : List Value) (x : Float) : Option Value :=
  if 0 ≤ x && Number.isWhole x then items[Number.toCount x]? else none

/-- The position that an index stands for. -/
def Expr.position (index : Expr) : Eval Float := do
  Eval.ofOutcome (← index.evaluate).asNumber

/-- The run of an evaluation with options. -/
def Engine.runOf (e : Engine) (o : EvaluateOptions) : Run := ⟨e.scope, o.mode, o.trace, o.token⟩

/-- The position that an index stands for where a node asks for it, after it polled itself. -/
def Engine.positionOf (e : Engine) (index : Expr) (o : EvaluateOptions) : Outcome Float :=
  ((Eval.poll >>= fun _ => index.position).exec (e.runOf o) { host := e.host }).1

/-! ## Paths that remember something else -/

/-- A run coupled with itself, where one path may remember something else. -/
def Coupling.butFor (path : Nat) (run : Run) : Coupling :=
  .ofRun run
    (fun s t => s.host = t.host ∧
      ∀ id i typeName, id ≠ path → s.memo.get? (id, i) typeName = t.memo.get? (id, i) typeName)
    Eq Eq.refl CalcError.bindingKind?_congr ⟨And.left, fun _ h => ⟨rfl, h.2⟩⟩ fun _ h => h

namespace Coupling

variable {path : Nat} {run : Run}

theorem sharesHost_butFor : SharesHost (butFor path run).states :=
  ⟨And.left, fun _ h => ⟨rfl, h.2⟩⟩

/-- All other paths remember the same in both runs. -/
theorem sharesHandles_butFor {id : Nat} (hid : id ≠ path) :
    SharesHandles (butFor path run).states id id where
  get?_eq i typeName h := h.2 id i typeName hid
  remember i typeName handle h := by
    refine ⟨h.1, fun id' i' typeName' hid' => ?_⟩
    rw [Memo.get?_remember, Memo.get?_remember, h.2 id' i' typeName' hid']

/-- An expression in which the path does not stand gives the same.  Its errors are those that its
functions raise of their own accord, and the problems of paths that the mode does not put up
with. -/
theorem repeats_butFor {cause : CalcError → Prop} (ha : (butFor path run).Admits cause) {e : Expr}
    (hcalls : ∀ id f args, .call id f args ∈ e.nodes →
      (f.implementation.plan args.length).RaisesOnly cause)
    (hmissing : ∀ i, cause (.argument (.missing i))) (hvars : ∀ name, cause (.unknownVariable name))
    (hpaths : ∀ b : BindingError, PathSite.isTolerated run.mode b.kind = false →
      cause (.binding b))
    (hpath : ∀ steps text, .path path steps text ∉ e.nodes) :
    (butFor path run).Repeats cause e e := by
  have hvalidates : ¬(butFor path run).Validates := not_validates rfl
  refine .of_nodes ha e fun node hmem => ?_
  cases node with
  | call id f args =>
    intro hargs
    refine .call ha (fun _ _ _ _ _ _ => rfl) (.plan_raising rfl sharesHost_butFor.sharesCalls
      (fun _ => False.elim) ha.cancelled hmissing ?_ (fun _ => rfl) (hcalls id f args hmem))
    exact Repeats.arguments (List.forall₂_same.mpr hargs)
  | var id name index => exact ⟨fun _ _ _ _ _ _ => rfl, fun _ => hvars name⟩
  | path id steps text =>
    have hid : id ≠ path := by
      rintro rfl
      exact hpath steps text hmem
    exact .path (fun _ _ _ _ _ _ => rfl) ha (.of_graph .all hvalidates) (sharesHandles_butFor hid)
      (fun _ _ _ _ _ => trivial) (fun _ _ => trivial) (fun h => absurd h hvalidates)
      fun b huntolerated _ => hpaths b huntolerated
  | _ => trivial

end Coupling

/-! ## The two nodes -/

namespace Eval

variable {run : Run} {s : EvalState}

/-- Putting up with problems gives an absent value in place of them, and changes nothing else. -/
theorem outcome_tolerating (x : Eval Value) (tolerates : BindingKind → Bool) :
    ((x.tolerating tolerates).exec run s).1 =
      match (x.exec run s).1 with
      | .ok v => .ok v
      | .error e => if e.bindingKind?.any tolerates then .ok .empty else .error e := by
  rw [tolerating, exec_tryCatch]
  rcases x.exec run s with ⟨e | v, t⟩
  · dsimp only
    split <;> rfl
  · rfl

end Eval

section
variable {run : Run} {s : EvalState} {items : List Value} {index : Expr} {name : String}

/-- A variable that holds an array has the item at the position, or is absent. -/
theorem exec_variableValue (hvar : run.scope.vars.get? name = some (.array items)) :
    (variableValue name (some index.evaluate)).exec run s =
      (index.position >>= fun x => pure ((itemAt? items x).getD .empty)).exec run s := by
  unfold variableValue Expr.position
  simp only [Eval.exec_bind, Eval.exec_read, hvar]
  rcases index.evaluate.exec run s with ⟨_ | v, t⟩
  · rfl
  · simp only [Eval.exec_ofOutcome]
    cases v.asNumber with
    | error e => rfl
    | ok x =>
      dsimp only [itemAt?]
      split <;> rfl

/-- A path has the item of an array at a position, or fails. -/
def PathSite.itemOrFail (p : PathSite) (name : String) (items : List Value) (x : Float) :
    Eval Value :=
  match itemAt? items x with
  | some v => pure v
  | none => p.fail 0 (.noPosition name (Number.plain x) items.length)

/-- A path has the item at the position, or fails with the problem that there is none. -/
theorem outcome_itemOrFail (p : PathSite) (x : Float) :
    ((p.itemOrFail name items x).exec run s).1 =
      match itemAt? items x with
      | some v => .ok v
      | none => .error
        (.binding ⟨.noPosition name (Number.plain x) items.length, p.text, p.labels (), 0⟩) := by
  rw [PathSite.itemOrFail]
  cases itemAt? items x <;> rfl

/-- Outside of a validation an item of an array is the one at the position that the key converts
to. -/
theorem exec_item_array {p : PathSite} (hmode : run.mode ≠ .validation) (key : Value) :
    (p.item 0 name (.array items) [key]).exec run s =
      (Eval.ofOutcome key.asNumber >>= p.itemOrFail name items).exec run s := by
  unfold PathSite.item
  rw [Eval.exec_bind, Eval.exec_read]
  dsimp only
  rw [if_neg hmode]
  rfl

/-! ## Paths of one step -/

/-- A path of one step does what its step does, but for the problems that the mode puts up with. -/
theorem exec_resolve_step {p : PathSite} {o : Object Value} {step : Step (Eval Value)}
    {x : Eval Value} {t : EvalState} (hcontext : run.scope.context = some (.object o))
    (hstep : (p.step 0 step (.object o)).exec run s = x.exec run t) :
    (p.resolve [step]).exec run s =
      (Eval.tolerating x (PathSite.isTolerated run.mode)).exec run t := by
  have hwalk : (p.walk 0 (.object o) [step]).exec run s = x.exec run t := by
    unfold PathSite.walk
    show ((p.step 0 step (.object o)) >>= pure).exec run s = _
    rw [bind_pure, hstep]
  rw [PathSite.resolve_eq, Eval.exec_bind, Eval.exec_read]
  dsimp only
  rw [hcontext]
  unfold Eval.tolerating
  rw [Eval.exec_tryCatch, Eval.exec_tryCatch, hwalk]

section
variable {p : PathSite} {o : Object Value} {v : Value} (hmember : o.contents.get? name = some v)
include hmember

/-- Reading a member for the first time, which remembers its handle. -/
theorem exec_objectMember_first
    (hmemo : s.memo.get? (p.id, 0) o.contents.typeName = none) : ∃ handle,
      (p.objectMember 0 name o.contents).exec run s =
        (.ok v, { s with memo := s.memo.remember (p.id, 0) o.contents.typeName handle }) := by
  obtain ⟨handle, hfind, hvalue⟩ := Option.bind_eq_some_iff.mp hmember
  refine ⟨handle, ?_⟩
  unfold PathSite.objectMember PathSite.handle
  simp only [Eval.exec_bind, Eval.exec_get, hmemo, hfind, Eval.exec_modify, Eval.exec_pure, hvalue]

/-- A step that reads a member for the first time. -/
theorem exec_step_first {listed : Bool} {keys : List (Eval Value)} (hmode : run.mode ≠ .validation)
    (hmemo : s.memo.get? (p.id, 0) o.contents.typeName = none) : ∃ handle,
      (p.step 0 ⟨name, listed, keys⟩ (.object o)).exec run s =
        (match keys with
          | [] => pure v
          | keys => Eval.all keys >>= p.item 0 name v : Eval Value).exec run
            { s with memo := s.memo.remember (p.id, 0) o.contents.typeName handle } := by
  obtain ⟨handle, hread⟩ := @exec_objectMember_first run s name p o v hmember hmemo
  refine ⟨handle, ?_⟩
  -- Only a validation puts something in the place of the member.
  have hplace : (v.isEmpty && run.mode == .validation) = false := by
    rw [beq_false_of_ne hmode, Bool.and_false]
  unfold PathSite.step PathSite.member
  rw [Eval.exec_bind, hread]
  simp only [Eval.exec_bind, Eval.exec_read, hplace]
  cases keys <;> rfl

/-- A path that reads a member for the first time and takes an item of it. -/
theorem exec_resolve_first {listed : Bool} {key : Eval Value}
    (hcontext : run.scope.context = some (.object o)) (hmode : run.mode ≠ .validation)
    (hmemo : s.memo.get? (p.id, 0) o.contents.typeName = none) :
    ∃ handle, (p.resolve [⟨name, listed, [key]⟩]).exec run s =
      (Eval.tolerating (key >>= fun k => p.item 0 name v [k])
        (PathSite.isTolerated run.mode)).exec run
          { s with memo := s.memo.remember (p.id, 0) o.contents.typeName handle } := by
  obtain ⟨handle, hstep⟩ := @exec_step_first run s name p o v hmember listed [key] hmode hmemo
  refine ⟨handle, exec_resolve_step hcontext ?_⟩
  have hall : (Eval.all [key] >>= p.item 0 name v) = key >>= fun k => p.item 0 name v [k] := by
    show ((key >>= fun k => pure [k]) >>= p.item 0 name v) = _
    rw [bind_assoc]
    simp only [pure_bind]
  rw [hstep, ← hall]

end

/-- A path that takes an item of an array. -/
theorem exec_resolve_indexed {p : PathSite} {o : Object Value} {listed : Bool}
    (hmember : o.contents.get? name = some (.array items))
    (hcontext : run.scope.context = some (.object o)) (hmode : run.mode ≠ .validation)
    (hmemo : s.memo.get? (p.id, 0) o.contents.typeName = none) :
    ∃ handle, (p.resolve [⟨name, listed, [index.evaluate]⟩]).exec run s =
      (Eval.tolerating (index.position >>= p.itemOrFail name items)
        (PathSite.isTolerated run.mode)).exec run
          { s with memo := s.memo.remember (p.id, 0) o.contents.typeName handle } := by
  obtain ⟨handle, hresolve⟩ := @exec_resolve_first run s name p o (.array items) hmember listed
    index.evaluate hcontext hmode hmemo
  refine ⟨handle, ?_⟩
  have hitem : ∀ t, (index.evaluate >>= fun key => p.item 0 name (.array items) [key]).exec run t =
      (index.position >>= p.itemOrFail name items).exec run t := by
    intro t
    unfold Expr.position
    simp only [Eval.exec_bind]
    rcases index.evaluate.exec run t with ⟨_ | key, t⟩
    · rfl
    · exact (exec_item_array hmode key).trans (Eval.exec_bind ..)
  rw [hresolve]
  unfold Eval.tolerating
  rw [Eval.exec_tryCatch, Eval.exec_tryCatch, hitem]

end

/-! ## Evaluating both -/

/-- Whether no function that an expression calls fails of its own accord with the problem of a
path. -/
def Expr.RaisesNoBinding (e : Expr) : Prop :=
  ∀ id f args, .call id f args ∈ e.nodes →
    (f.implementation.plan args.length).RaisesOnly fun error => ∀ b, error ≠ .binding b

/-- Built-in functions raise operational errors only, and these are no problems of paths. -/
theorem Expr.CallsOnlyBuiltins.raisesNoBinding {e : Expr} (h : e.CallsOnlyBuiltins) :
    e.RaisesNoBinding := by
  intro id f args hmem
  obtain ⟨b, rfl⟩ := h id f args hmem
  refine (Plan.Confined.ofBuiltin b args.length).raisesOnly fun error hoperational b' => ?_
  rintro rfl
  cases hoperational

/-- What the index of a variable or of a member leads to, in terms of the position that it stands
for: an item, an absent value or the problem of a path, or the error that there is no position. -/
structure IndexedOutcomes (run : Run) (p : PathSite) (member : String) (items : List Value)
    (position : Outcome Float) (ofVariable ofPath : Outcome Value) : Prop where
  item : ∀ x v, position = .ok x → itemAt? items x = some v → ofVariable = .ok v ∧ ofPath = .ok v
  absent : ∀ x, position = .ok x → itemAt? items x = none → ofVariable = .ok .empty ∧
    ofPath = if PathSite.isTolerated run.mode .indexOutOfRange then .ok .empty
      else .error
        (.binding ⟨.noPosition member (Number.plain x) items.length, p.text, p.labels (), 0⟩)
  error : ∀ error, position = .error error → ofVariable = .error error ∧
    ofPath = if error.bindingKind?.any (PathSite.isTolerated run.mode) then .ok .empty
      else .error error

/-- The two differ only where the array has no item at the position and that is not put up with, and
where there is no position for the problem of a path and that is put up with. -/
theorem IndexedOutcomes.alike {run : Run} {p : PathSite} {member : String} {items : List Value}
    {position : Outcome Float} {ofVariable ofPath : Outcome Value}
    (h : IndexedOutcomes run p member items position ofVariable ofPath)
    (habsent : ∀ x, position = .ok x → itemAt? items x = none →
      PathSite.isTolerated run.mode .indexOutOfRange = true)
    (herror : ∀ b, position = .error (.binding b) → PathSite.isTolerated run.mode b.kind = false) :
    ofPath = ofVariable := by
  cases hposition : position with
  | error error =>
    obtain ⟨hvariable, hpath⟩ := h.error error hposition
    have huntolerated : error.bindingKind?.any (PathSite.isTolerated run.mode) = false := by
      cases error with
      | binding b => exact herror b hposition
      | _ => rfl
    rw [hvariable, hpath, huntolerated]
    rfl
  | ok x =>
    cases hitem : itemAt? items x with
    | some v =>
      obtain ⟨hvariable, hpath⟩ := h.item x v hposition hitem
      rw [hvariable, hpath]
    | none =>
      obtain ⟨hvariable, hpath⟩ := h.absent x hposition hitem
      rw [hvariable, hpath, if_pos (habsent x hposition hitem)]

section
variable {run : Run} {t : EvalState} {p : PathSite} {index : Expr} {items : List Value}
  {name member : String} {listed : Bool} {root : Object Value}

/-- A path that does not stand in an index may remember anything: the index gives the same position,
or the same error. -/
theorem follows_position {cause : CalcError → Prop} (ha : (Coupling.butFor p.id run).Admits cause)
    (hcalls : ∀ id f args, .call id f args ∈ index.nodes →
      (f.implementation.plan args.length).RaisesOnly cause)
    (hmissing : ∀ i, cause (.argument (.missing i))) (hvars : ∀ name, cause (.unknownVariable name))
    (hpaths : ∀ b : BindingError, PathSite.isTolerated run.mode b.kind = false →
      cause (.binding b))
    (hnumber : ∀ steps text, .path p.id steps text ∉ index.nodes) :
    (Coupling.butFor p.id run).Follows cause index.position index.position fun _ => True :=
  (Coupling.repeats_butFor ha hcalls hmissing hvars hpaths hnumber).bind fun v _ =>
    .ofOutcome ha v.operational_asNumber

/-- The problems of paths are told by paths alone: where they are put up with, an index has a
position or fails with something else, unless a function raises one. -/
theorem position_ne_binding (hmode : run.mode = .lenient) (hcalls : index.RaisesNoBinding)
    (hnumber : ∀ steps text, .path p.id steps text ∉ index.nodes) (b : BindingError) :
    (index.position.exec run t).1 ≠ .error (.binding b) := by
  have hadmits : (Coupling.butFor p.id run).Admits fun error => ∀ b, error ≠ .binding b := by
    refine ⟨?_, fun _ _ => nofun⟩
    rintro _ hoperational b rfl
    cases hoperational
  have hpaths : ∀ b : BindingError, PathSite.isTolerated run.mode b.kind = false →
      ∀ b', CalcError.binding b ≠ .binding b' := by
    rw [hmode]
    exact fun _ => nofun
  have hstates : (Coupling.butFor p.id run).states t t := ⟨rfl, fun _ _ _ _ => rfl⟩
  rcases follows_position hadmits hcalls (fun _ _ => nofun) (fun _ _ => nofun) hpaths hnumber
    hstates with ⟨x, s', -, hx, -⟩ | ⟨error, s', hx, hcause, -⟩
  · rw [show index.position.exec run t = (.ok x, s') from hx]
    exact nofun
  · rw [show index.position.exec run t = (.error error, s') from hx]
    exact fun h => hcause b (Except.error.inj h)

/-- A variable and a path evaluate their index in states that differ only in what this very path
remembers, which no node of the index reads.  So the position is the same for both, and what they
make of it is told by its cases. -/
theorem indexedOutcomes (hvar : run.scope.vars.get? name = some (.array items))
    (hcontext : run.scope.context = some (.object root))
    (hmember : root.contents.get? member = some (.array items))
    (hmode : run.mode ≠ .validation) (hmemo : t.memo = [])
    (hnumber : ∀ steps text, .path p.id steps text ∉ index.nodes) :
    IndexedOutcomes run p member items (index.position.exec run t).1
      ((variableValue name (some index.evaluate)).exec run t).1
      ((p.resolve [⟨member, listed, [index.evaluate]⟩]).exec run t).1 := by
  have hfirst : t.memo.get? (p.id, 0) root.contents.typeName = none := by
    rw [hmemo]
    rfl
  obtain ⟨handle, hpath⟩ := @exec_resolve_indexed run t items index member p root listed hmember
    hcontext hmode hfirst
  have hstates : (Coupling.butFor p.id run).states t
      { t with memo := t.memo.remember (p.id, 0) root.contents.typeName handle } := by
    refine ⟨rfl, fun id i typeName hid => ?_⟩
    rw [Memo.get?_remember, if_neg fun h => hid (congrArg Prod.fst h)]
  rw [hpath, exec_variableValue hvar, Eval.outcome_tolerating, Eval.exec_bind, Eval.exec_bind]
  rcases follows_position .any (fun _ _ _ _ => Plan.raisesOnly_any _) (fun _ => trivial)
    (fun _ => trivial) (fun _ _ => trivial) hnumber hstates with
    ⟨x, s', t', hx, hy, -⟩ | ⟨error, s', hx, -, halone | ⟨_, t', hy, rfl, -⟩⟩
  · rw [show index.position.exec run t = (.ok x, s') from hx,
      show index.position.exec run _ = (.ok x, t') from hy]
    refine ⟨?_, ?_, fun _ => nofun⟩
    · rintro _ v ⟨⟩ hitem
      dsimp only
      rw [outcome_itemOrFail, hitem]
      exact ⟨rfl, rfl⟩
    · rintro _ ⟨⟩ hnone
      dsimp only
      rw [outcome_itemOrFail, hnone]
      exact ⟨rfl, rfl⟩
  · exact halone.elim
  · rw [show index.position.exec run t = (.error error, s') from hx,
      show index.position.exec run _ = (.error error, t') from hy]
    refine ⟨fun _ _ => nofun, fun _ => nofun, ?_⟩
    rintro _ ⟨⟩
    exact ⟨rfl, rfl⟩

end

namespace Engine

section
variable (e : Engine) (o : EvaluateOptions) (index : Expr) (m n : Nat) (text : String)
  {name member : String} {items : List Value} {root : Object Value}

/-- The place of a path of one indexed step. -/
def indexedSite (member : String) : PathSite :=
  ⟨n, text, fun _ => [Step.text ⟨member, true, [index]⟩]⟩

/-- Both nodes poll before anything else: they are cancelled alike. -/
theorem indexedOutcomes_run (hvar : e.vars.get? name = some (.array items))
    (hcontext : e.context = some (.object root))
    (hmember : root.contents.get? member = some (.array items))
    (hnumber : ∀ steps text, .path n steps text ∉ index.nodes) :
    IndexedOutcomes (e.runOf o) (indexedSite index n text member) member items
      (e.positionOf index o)
      ((evaluateTree ⟨.var m name [index], []⟩ o).run e).1.1
      ((evaluateTree ⟨.path n [⟨member, true, [index]⟩] text, []⟩ o).run e).1.1 := by
  let start : EvalState := ⟨[], [], e.host⟩
  have hvariable : ((evaluateTree ⟨.var m name [index], []⟩ o).run e).1.1 =
      ((Eval.poll >>= fun _ => variableValue name (some index.evaluate)).exec (e.runOf o)
        start).1 :=
    (run_result e _ o o.mode).trans (Eval.outcome_recorded _ _ m _)
  have hpath : ((evaluateTree ⟨.path n [⟨member, true, [index]⟩] text, []⟩ o).run e).1.1 =
      ((Eval.poll >>= fun _ => (indexedSite index n text member).resolve
        [⟨member, true, [index.evaluate]⟩]).exec (e.runOf o) start).1 :=
    (run_result e _ o o.mode).trans (Eval.outcome_recorded _ _ n _)
  rw [hvariable, hpath, positionOf, Eval.outcome_polled, Eval.outcome_polled, Eval.outcome_polled]
  cases hstop : ((e.runOf o).poll start).1 with
  | true =>
    refine ⟨fun _ _ => nofun, fun _ => nofun, ?_⟩
    rintro _ ⟨⟩
    exact ⟨rfl, rfl⟩
  | false =>
    have hmode : o.mode ≠ .validation := by
      rw [EvaluateOptions.mode]
      cases o.strict <;> exact nofun
    exact indexedOutcomes (p := indexedSite index n text member) hvar hcontext hmember hmode
      ((e.runOf o).memo_poll start) hnumber

/-- For one index, a variable and a member of the data that hold the same array have the same item
or fail alike, but for two differences.  Where the array has no item at the position, the variable
is absent, and the path fails unless the mode is lenient, in which it is absent too.  Where the
index itself fails with the problem of a path, so does the variable, but in lenient mode the path is
absent; only a function that raises such a problem of its own accord makes an index fail with one in
lenient mode.  The path has a number of its own, as all nodes of a tree that was read have. -/
theorem indexed_alike (hvar : e.vars.get? name = some (.array items))
    (hcontext : e.context = some (.object root))
    (hmember : root.contents.get? member = some (.array items))
    (hnumber : ∀ steps text, .path n steps text ∉ index.nodes) :
    let ofVariable := ((evaluateTree ⟨.var m name [index], []⟩ o).run e).1.1
    let ofPath := ((evaluateTree ⟨.path n [⟨member, true, [index]⟩] text, []⟩ o).run e).1.1
    (o.strict = false →
      (∀ b, e.positionOf index o = .error (.binding b) →
        ofVariable = .error (.binding b) ∧ ofPath = .ok .empty) ∧
      ((∀ b, e.positionOf index o ≠ .error (.binding b)) → ofPath = ofVariable) ∧
      (index.RaisesNoBinding → ofPath = ofVariable)) ∧
    (o.strict = true →
      (∀ x, e.positionOf index o = .ok x → itemAt? items x = none →
        ofVariable = .ok .empty ∧
        ofPath = .error (.binding ⟨.noPosition member (Number.plain x) items.length, text,
          [Step.text ⟨member, true, [index]⟩], 0⟩)) ∧
      ((∀ x, e.positionOf index o = .ok x → itemAt? items x ≠ none) → ofPath = ofVariable)) := by
  intro ofVariable ofPath
  have houtcomes := indexedOutcomes_run e o index m n text hvar hcontext hmember hnumber
  constructor
  · intro hlenient
    have hmode : (e.runOf o).mode = .lenient := by
      show o.mode = .lenient
      rw [EvaluateOptions.mode, hlenient]
      rfl
    have halike (hposition : ∀ b, e.positionOf index o ≠ .error (.binding b)) :
        ofPath = ofVariable :=
      houtcomes.alike (fun _ _ _ => hmode ▸ rfl) fun b h => absurd h (hposition b)
    refine ⟨fun b hposition => ?_, halike, fun hcalls => halike fun b => ?_⟩
    · obtain ⟨hvariable, hpath⟩ := houtcomes.error _ hposition
      rw [hmode] at hpath
      exact ⟨hvariable, hpath⟩
    · rw [positionOf, Eval.outcome_polled]
      split
      · exact nofun
      · exact position_ne_binding (p := indexedSite index n text member) hmode hcalls hnumber b
  · intro hstrict
    have hmode : (e.runOf o).mode = .strict := by
      show o.mode = .strict
      rw [EvaluateOptions.mode, hstrict]
      rfl
    refine ⟨fun x hposition hnone => ?_, fun hitem => ?_⟩
    · obtain ⟨hvariable, hpath⟩ := houtcomes.absent x hposition hnone
      rw [hmode] at hpath
      exact ⟨hvariable, hpath⟩
    · exact houtcomes.alike (fun x hposition hnone => absurd hnone (hitem x hposition))
        fun _ _ => hmode ▸ rfl

end

/-- An engine with the same two rates as a variable and as a member of its data. -/
def withRates : Engine :=
  { vars := ⟨[("quotas", .array [.number 5, .number 7])]⟩
    context := some
      (.object ⟨0, .record ⟨"Plan", [⟨"Rates", .array [.number 5, .number 7], none⟩]⟩⟩) }

/-- The formula `-TRUE`. -/
def minusTrue : Expr := .unary .negate (.call 1 (Builtin.constant true).definition [])

/-- There is no rate at a negative position. -/
theorem indexed_alike_minusTrue :
    let ofVariable := fun o : EvaluateOptions =>
      ((evaluateTree ⟨.var 0 "Quotas" [minusTrue], []⟩ o).run withRates).1.1
    let ofPath := fun o : EvaluateOptions =>
      ((evaluateTree ⟨.path 0 [⟨"rates", true, [minusTrue]⟩] "rates[-TRUE]", []⟩ o).run
        withRates).1.1
    minusTrue.RaisesNoBinding ∧ ofPath { strict := false } = ofVariable { strict := false } ∧
      ofVariable {} = .ok .empty ∧
      ofPath {} = .error (.binding ⟨.noPosition "rates" (Number.plain (-1)) 2, "rates[-TRUE]",
        [Step.text ⟨"rates", true, [minusTrue]⟩], 0⟩) := by
  have hvar : withRates.vars.get? "Quotas" = some (.array [.number 5, .number 7]) := rfl
  have hmember : ∀ root, withRates.context = some (.object root) →
      root.contents.get? "rates" = some (.array [.number 5, .number 7]) := by
    rintro _ ⟨⟩
    rfl
  have hnodes : minusTrue.nodes = [minusTrue, .call 1 (Builtin.constant true).definition []] := rfl
  have hnumber : ∀ steps text, .path 0 steps text ∉ minusTrue.nodes := by
    intro steps text hmem
    rw [hnodes] at hmem
    simp [minusTrue] at hmem
  have hraises : minusTrue.RaisesNoBinding := by
    refine Expr.CallsOnlyBuiltins.raisesNoBinding fun id f args hmem => ?_
    rw [hnodes] at hmem
    simp only [minusTrue, List.mem_cons, reduceCtorEq, List.not_mem_nil, or_false, false_or,
      Expr.call.injEq] at hmem
    exact ⟨_, hmem.2.1⟩
  have hposition : withRates.positionOf minusTrue {} = .ok (-1) := rfl
  have hnone : itemAt? [.number 5, .number 7] (-1) = none := if_neg (by decide +kernel)
  have hlenient := indexed_alike withRates { strict := false } minusTrue 0 0 "rates[-TRUE]" hvar rfl
    (hmember _ rfl) hnumber
  have hstrict := indexed_alike withRates {} minusTrue 0 0 "rates[-TRUE]" hvar rfl
    (hmember _ rfl) hnumber
  obtain ⟨hvariable, hpath⟩ := (hstrict.2 rfl).1 _ hposition hnone
  exact ⟨hraises, (hlenient.1 rfl).2.2 hraises, hvariable, hpath⟩

/-- The kind of the problem that a path fails with, if it fails with one. -/
def failureKind? : Outcome Value → Option BindingKind
  | .ok _ => none
  | .error e => e.bindingKind?

/-- A function of the host that fails as a path does where there is no data. -/
def refusal : FunctionDef :=
  ⟨"REFUSAL", {}, .plain fun _ => .fail (.binding ⟨.noDataContext, "Rates", [], 0⟩), false⟩

/-- An index that fails is not a position that is out of range.  There is no ninth rate: in strict
mode both fail with that as the index.  And a function that fails as paths do makes the path absent
in lenient mode, but not the variable. -/
theorem indexed_unlike :
    let ofVariable := fun (index : Expr) (o : EvaluateOptions) =>
      ((evaluateTree ⟨.var 0 "Quotas" [index], []⟩ o).run withRates).1.1
    let ofPath := fun (index : Expr) (text : String) (o : EvaluateOptions) =>
      ((evaluateTree ⟨.path 0 [⟨"Rates", true, [index]⟩] text, []⟩ o).run withRates).1.1
    let ninth : Expr := .path 1 [⟨"Rates", true, [.literal (.number 9)]⟩] "Rates[9]"
    let refused : Expr := .call 1 refusal []
    failureKind? (ofPath ninth "Rates[Rates[9]]" {}) = some .indexOutOfRange ∧
      failureKind? (ofVariable ninth {}) = some .indexOutOfRange ∧
      ofPath refused "Rates[REFUSAL()]" { strict := false } = .ok .empty ∧
      failureKind? (ofVariable refused { strict := false }) = some .noDataContext := by
  refine ⟨?_, ?_, rfl, rfl⟩
  · decide +kernel
  · decide +kernel

end Engine

end Formula
