import Formula.Proofs.Engine.History
import Formula.Proofs.Expr.Folding

/-!
# What the modes promise

An evaluation that is not strict never fails for want of a path, and a validation only where a
member is unknown (`no_untolerated`).  Where a strict evaluation has a value, the other modes have
it too, but for what is meant to differ: `ValueOr`, which goes on where a strict path fails, and in
a validation items and placeholders (`value_of_strict`).
-/

namespace Formula

/-! ## Problems that a mode puts up with -/

/-- The problem of a path that an evaluation fails with is one that its mode does not put up
with. -/
theorem Expr.isTolerated_of_exec {e : Expr} (h : e.CallsOnlyBuiltins) {run : Run}
    {s s' : EvalState} {b : BindingError}
    (hrun : e.evaluate.exec run s = (.error (.binding b), s')) :
    PathSite.isTolerated run.mode b.kind = false := by
  let cause : CalcError → Prop :=
    fun e => ∀ b, e = .binding b → PathSite.isTolerated run.mode b.kind = false
  have hadmits : (Coupling.same run).Admits cause := by
    refine ⟨?_, fun _ _ hb => nomatch hb⟩
    rintro _ hoperational b rfl
    cases hoperational
  have hcause : cause (.binding b) := by
    refine Coupling.cause_of_evaluate hadmits (fun id f args hmem => ?_)
      (fun _ _ _ _ _ _ hb => nomatch hb) (fun _ _ _ _ b huntolerated _ => ?_) hrun
    · obtain ⟨b, rfl⟩ := h id f args hmem
      exact ⟨b, rfl, fun _ _ _ hb => nomatch hb⟩
    · rintro _ ⟨⟩
      exact huntolerated
  exact hcause b rfl

/-! ## Data without placeholders -/

/-- Whether no object has placeholders for members, among a value and all that its members hold. -/
inductive Value.PlaceholderFree : Value → Prop where
  | atom {v : Value} : v.kind ≠ .array → v.kind ≠ .object → PlaceholderFree v
  | array {items : List Value} : (∀ v ∈ items, PlaceholderFree v) → PlaceholderFree (.array items)
  | object {o : Object Value} : (∀ handle, o.contents.memberPlaceholder? handle = none) →
      (∀ handle v, o.contents.member? handle = some v → PlaceholderFree v) →
      PlaceholderFree (.object o)

namespace Value.PlaceholderFree

theorem number (x : Float) : PlaceholderFree (.number x) :=
  .atom (fun h => nomatch h) fun h => nomatch h

theorem text (s : String) : PlaceholderFree (.text s) :=
  .atom (fun h => nomatch h) fun h => nomatch h

theorem empty : PlaceholderFree .empty := .atom (fun h => nomatch h) fun h => nomatch h

/-- An array has no placeholders if its items have none. -/
theorem array_iff {items : List Value} :
    PlaceholderFree (.array items) ↔ ∀ v ∈ items, PlaceholderFree v := by
  refine ⟨fun h => ?_, .array⟩
  cases h with
  | atom harray => exact absurd rfl harray
  | array hitems => exact hitems

/-- The members of an object without placeholders have none. -/
theorem member {o : Object Value} {handle : Handle} {v : Value} (h : PlaceholderFree (.object o))
    (hv : o.contents.member? handle = some v) : PlaceholderFree v := by
  cases h with
  | atom _ hobject => exact absurd rfl hobject
  | object _ hmembers => exact hmembers handle v hv

/-- Nothing stands in for the members of a value that has no placeholders. -/
theorem memberPlaceholder?_eq_none {v : Value} (h : PlaceholderFree v) (name : String) :
    PathSite.memberPlaceholder? name v = none := by
  cases h with
  | atom _ hobject =>
    cases v with
    | object => exact absurd rfl hobject
    | _ => rfl
  | array => rfl
  | object hplaceholders =>
    rw [PathSite.memberPlaceholder?, funext hplaceholders, Option.bind_fun_none]

/-- What is to be known of the data in a validation next to a run in another mode. -/
theorem meets {C : Coupling} (h : C.Validates) : C.Meets Value.PlaceholderFree :=
  ⟨empty, number, array_iff, fun hnot => absurd h hnot, fun _ _ => memberPlaceholder?_eq_none⟩

end Value.PlaceholderFree

/-! ## A strict run and another -/

/-- A strict run coupled with one that is to give the same values, and that can be cancelled only if
the strict run can. -/
def Coupling.fromStrict (first second : Run) (hscope : second.scope = first.scope)
    (hstrict : first.mode = .strict)
    (htoken : second.token = none ∨ second.token = first.token) : Coupling where
  first := first
  second := second
  states s t := s.memo = t.memo ∧ (second.token = none ∨ s.host = t.host)
  errors := Eq
  alone _ := True
  errors_refl _ := rfl
  bindingKind?_eq := CalcError.bindingKind?_congr
  scope_eq := hscope
  mode := .inr ⟨hstrict, fun _ => trivial⟩
  strict _ := hstrict
  poll {s t} h := by
    by_cases hnone : second.token = none
    · -- Only the first run can be cancelled.
      rw [Run.poll_of_token_none t hnone]
      cases (first.poll s).1 with
      | true => exact .inl ⟨rfl, trivial⟩
      | false => exact .inr ⟨rfl, (first.memo_poll s).trans h.1, .inl hnone⟩
    · obtain ⟨hstop, hhost⟩ :=
        Run.poll_congr (htoken.resolve_left hnone) (h.2.resolve_left hnone)
      refine .inr ⟨hstop, ?_, .inr hhost⟩
      rw [first.memo_poll, second.memo_poll]
      exact h.1
  records _ _ _ := True
  record _ h := by split <;> split <;> exact h

/-- A strict run with a value is followed by a run in any mode: in a validation if paths have no
keys. -/
theorem Expr.repeats_fromStrict {e : Expr} (hcalls : e.CallsOnlyBuiltins)
    (hvalueOr : ∀ id args, .call id Builtin.valueOr.definition args ∉ e.nodes)
    {first second : Run} {hscope : second.scope = first.scope} {hstrict : first.mode = .strict}
    {htoken : second.token = none ∨ second.token = first.token} {good : Value → Prop}
    (hm : (Coupling.fromStrict first second hscope hstrict htoken).Meets good)
    (hmember : ∀ (o : Object Value) handle v, good (.object o) →
      o.contents.member? handle = some v → good v)
    (hroot : ∀ root, first.scope.context = some root → good root)
    (hkeys : second.mode = .validation →
      ∀ id steps text, .path id steps text ∈ e.nodes → ∀ s ∈ steps, s.keys = []) :
    (Coupling.fromStrict first second hscope hstrict htoken).Repeats (fun _ => True) e e := by
  refine .of_nodes .any e fun node hmem => ?_
  cases node with
  | call id f args =>
    obtain ⟨b, rfl⟩ := hcalls id f args hmem
    refine .builtin (fun _ _ _ _ _ _ => trivial) .any ?_ fun _ _ => trivial
    rintro rfl
    exact absurd hmem (hvalueOr id args)
  | var => exact ⟨fun _ _ _ _ _ _ => trivial, fun _ => trivial⟩
  | path id steps text =>
    have hmemo : Coupling.SharesMemo
        (Coupling.fromStrict first second hscope hstrict htoken).states :=
      ⟨And.left, fun _ h => ⟨rfl, h.2⟩⟩
    exact .path (fun _ _ _ _ _ _ => trivial) .any hm (hmemo.handles id) hmember hroot
      (fun hvalidates => hkeys hvalidates.1 id steps text hmem) fun _ _ _ => trivial
  | _ => trivial

namespace Engine

/-- What a mode puts up with never becomes an error: an evaluation that is not strict never fails
for want of a path, and a validation does so only for want of a member. -/
theorem no_untolerated (engine : Engine) (tree : Tree) (h : tree.expr.CallsOnlyBuiltins)
    (o : EvaluateOptions) :
    (o.strict = false → ∀ b, ((evaluateTree tree o).run engine).1.1 ≠ .error (.binding b)) ∧
      ∀ b, ((run tree o .validation).run engine).1.1 = .error (.binding b) →
        b.kind = .unknownMember := by
  have huntolerated : ∀ mode b, ((run tree o mode).run engine).1.1 = .error (.binding b) →
      PathSite.isTolerated mode b.kind = false := by
    intro mode b hrun
    rw [run_result] at hrun
    have hexec : tree.expr.evaluate.exec ⟨engine.scope, mode, o.trace, o.token⟩
        ⟨tree.memo, [], engine.host⟩ = (.error (.binding b), _) := Prod.ext hrun rfl
    exact Expr.isTolerated_of_exec h hexec
  constructor
  · intro hstrict b hrun
    have hmode : o.mode = .lenient := by
      rw [EvaluateOptions.mode, hstrict]
      rfl
    rw [evaluateTree, hmode] at hrun
    cases huntolerated .lenient b hrun
  · intro b hrun
    have hkind := huntolerated .validation b hrun
    simpa [PathSite.isTolerated] using hkind

/-- What a strict evaluation without `ValueOr` gives, a lenient one gives too, and so does a
validation if no step of a path has keys and no object of the data has placeholders for members. -/
theorem value_of_strict (engine : Engine) (tree : Tree) (hcalls : tree.expr.CallsOnlyBuiltins)
    (hvalueOr : ∀ id args, .call id Builtin.valueOr.definition args ∉ tree.expr.nodes)
    (o : EvaluateOptions) (v : Value) (h : ((run tree o .strict).run engine).1.1 = .ok v)
    (o' : EvaluateOptions) (htoken : o'.token = none ∨ o'.token = o.token) :
    ((run tree o' .lenient).run engine).1.1 = .ok v ∧
      ((∀ id steps text, .path id steps text ∈ tree.expr.nodes → ∀ s ∈ steps, s.keys = []) →
        (∀ root, engine.context = some root → root.PlaceholderFree) →
        ((run tree o' .validation).run engine).1.1 = .ok v) := by
  -- The strict run and one in another mode, from the same state.
  have hfollows : ∀ (mode : Mode) (good : Value → Prop),
      (Coupling.fromStrict ⟨engine.scope, .strict, o.trace, o.token⟩
        ⟨engine.scope, mode, o'.trace, o'.token⟩ rfl rfl htoken).Meets good →
      (∀ (o : Object Value) handle v, good (.object o) →
        o.contents.member? handle = some v → good v) →
      (∀ root, engine.context = some root → good root) →
      (mode = .validation →
        ∀ id steps text, .path id steps text ∈ tree.expr.nodes → ∀ s ∈ steps, s.keys = []) →
      ((run tree o' mode).run engine).1.1 = .ok v := by
    intro mode good hm hmember hroot hkeys
    have hrepeats := Expr.repeats_fromStrict hcalls hvalueOr hm hmember hroot hkeys
    rw [run_result] at h ⊢
    rcases @hrepeats ⟨tree.memo, [], engine.host⟩ ⟨tree.memo, [], engine.host⟩ ⟨rfl, .inr rfl⟩ with
      ⟨w, s, t, hx, hy, -⟩ | ⟨e, s, hx, -⟩
    · have hx' : tree.expr.evaluate.exec ⟨engine.scope, .strict, o.trace, o.token⟩
          ⟨tree.memo, [], engine.host⟩ = (.ok w, s) := hx
      rw [hx'] at h
      cases h
      exact congrArg Prod.fst hy
    · have hx' : tree.expr.evaluate.exec ⟨engine.scope, .strict, o.trace, o.token⟩
          ⟨tree.memo, [], engine.host⟩ = (.error e, s) := hx
      rw [hx'] at h
      cases h
  refine ⟨?_, fun hkeys hroot => ?_⟩
  · refine hfollows .lenient (fun _ => True) (.of_graph .all ?_) (fun _ _ _ _ _ => trivial)
      (fun _ _ => trivial) nofun
    exact fun hvalidates => nomatch hvalidates.1
  · exact hfollows .validation Value.PlaceholderFree (Value.PlaceholderFree.meets ⟨rfl, nofun⟩)
      (fun _ _ _ h => h.member) hroot fun _ => hkeys

/-! ## A name that is chosen -/

/-- The formula `IF(TRUE(), Name)`. -/
def chosenName : Expr :=
  .call 1 Builtin.choice.definition [.call 2 (Builtin.constant true).definition [], namePath]

/-- The formula calls the built-in functions `IF` and `TRUE` only. -/
theorem callsOnlyBuiltins_chosenName : chosenName.CallsOnlyBuiltins := by
  intro id f args hmem
  simp only [chosenName, namePath, Expr.nodes, Expr.nodesOfAll, Expr.nodesOfSteps, List.mem_cons,
    List.mem_append, List.not_mem_nil, reduceCtorEq, or_false, Expr.call.injEq] at hmem
  rcases hmem with ⟨-, rfl, -⟩ | ⟨-, rfl, -⟩
  · exact ⟨_, rfl⟩
  · exact ⟨_, rfl⟩

/-- A number has no name, which only a strict evaluation and a validation tell. -/
theorem no_untolerated_chosenName : chosenName.CallsOnlyBuiltins ∧
    (∀ b, ((evaluateTree ⟨chosenName, []⟩ { strict := false }).run
      { context := some (.number 3) }).1.1 ≠ .error (.binding b)) ∧
    ∀ b, ((run ⟨chosenName, []⟩ {} .validation).run { context := some (.number 3) }).1.1 =
      .error (.binding b) → b.kind = .unknownMember :=
  ⟨callsOnlyBuiltins_chosenName,
    (no_untolerated { context := some (.number 3) } ⟨chosenName, []⟩ callsOnlyBuiltins_chosenName
      { strict := false }).1 rfl,
    (no_untolerated { context := some (.number 3) } ⟨chosenName, []⟩ callsOnlyBuiltins_chosenName
      {}).2⟩

/-- The name of the person Ann is given, so nothing is to stand in for it. -/
theorem placeholderFree_ann : ann.PlaceholderFree := by
  have hmember : ∀ m ∈ ([⟨"Name", .text "Ann", none⟩] : List (Member Value)),
      m.placeholder = none ∧ m.value.PlaceholderFree := by
    simp [Value.PlaceholderFree.text]
  refine .object (fun handle => ?_) fun handle v hv => ?_
  · cases handle with
    | position n => rfl
    | named lower =>
      refine Option.bind_eq_none_iff.mpr fun m hm => ?_
      exact (hmember m (List.mem_of_find?_eq_some hm)).1
  · cases handle with
    | position n => cases hv
    | named lower =>
      obtain ⟨m, hm, rfl⟩ := Option.map_eq_some_iff.mp hv
      exact (hmember m (List.mem_of_find?_eq_some hm)).2

/-- The name of a person is the same in all modes. -/
theorem value_of_strict_chosenName :
    chosenName.CallsOnlyBuiltins ∧ ann.PlaceholderFree ∧
      ((run ⟨chosenName, []⟩ {} .strict).run { context := some ann }).1.1 = .ok (.text "Ann") ∧
      ((run ⟨chosenName, []⟩ {} .lenient).run { context := some ann }).1.1 = .ok (.text "Ann") ∧
      ((run ⟨chosenName, []⟩ {} .validation).run { context := some ann }).1.1 =
        .ok (.text "Ann") := by
  have hnodes : chosenName.nodes =
      [chosenName, .call 2 (Builtin.constant true).definition [], namePath] := rfl
  have hvalueOr : ∀ id args, .call id Builtin.valueOr.definition args ∉ chosenName.nodes := by
    intro id args hmem
    rw [hnodes] at hmem
    simp [chosenName, namePath, Builtin.definition] at hmem
  have hkeys : ∀ id steps text, .path id steps text ∈ chosenName.nodes →
      ∀ s ∈ steps, s.keys = [] := by
    intro id steps text hmem s hs
    rw [hnodes] at hmem
    simp only [chosenName, namePath, List.mem_cons, reduceCtorEq, List.not_mem_nil, or_false,
      false_or, Expr.path.injEq] at hmem
    obtain ⟨-, rfl, -⟩ := hmem
    rw [List.mem_singleton.mp hs]
  have hroot : ∀ root, (some ann : Option Value) = some root → root.PlaceholderFree := by
    rintro _ ⟨⟩
    exact placeholderFree_ann
  have hstrict : ((run ⟨chosenName, []⟩ {} .strict).run { context := some ann }).1.1 =
      .ok (.text "Ann") := rfl
  obtain ⟨hlenient, hvalidation⟩ := value_of_strict { context := some ann } ⟨chosenName, []⟩
    callsOnlyBuiltins_chosenName hvalueOr {} _ hstrict {} (.inl rfl)
  exact ⟨callsOnlyBuiltins_chosenName, placeholderFree_ann, hstrict, hlenient,
    hvalidation hkeys hroot⟩

end Engine

end Formula
