import Formula.Proofs.Evaluation.Coupling
import Formula.Proofs.Text.AsciiCase
import Mathlib.Data.List.Forall2

/-!
# Coupled paths

Two paths follow each other when looking up the members of their steps in an object does: everything
else that a path does depends on values only, and on the mode (`Follows.resolve`).  The steps may be
spelt in another case, as long as objects find the same members for them.  The
values that a path can meet have a property `good`.  A validation is coupled with a run in another
mode only on data without placeholders for members, and on paths without keys, since it leaves items
alone.  Of the problems of a path only those get out of it that the first run does not put up with.
-/

namespace Formula

/-- A property of values that members, items and placeholders of a value have with it. -/
structure DataGraph (good : Value → Prop) : Prop where
  empty : good .empty
  number : ∀ x, good (.number x)
  array : ∀ {items}, good (.array items) ↔ ∀ v ∈ items, good v
  indexed : ∀ {o : Object Value} {keys v}, good (.object o) → o.contents.indexed? keys = some v →
    good v
  memberPlaceholder : ∀ {o : Object Value} {handle v}, good (.object o) →
    o.contents.memberPlaceholder? handle = some v → good v
  elementPlaceholder : ∀ {o : Object Value} {v}, good (.object o) →
    o.contents.elementPlaceholder? = some v → good v

namespace DataGraph

variable {good : Value → Prop}

/-- Any values at all. -/
theorem all : DataGraph fun _ => True where
  empty := trivial
  number _ := trivial
  array := by simp
  indexed _ _ := trivial
  memberPlaceholder _ _ := trivial
  elementPlaceholder _ _ := trivial

/-- What stands in for a member is among the values that the data are made of. -/
theorem placeholder (h : DataGraph good) {name : String} {v w : Value} (hv : good v)
    (hw : PathSite.memberPlaceholder? name v = some w) : good w := by
  cases v with
  | object o =>
    obtain ⟨handle, _, hw⟩ := Option.bind_eq_some_iff.1 hw
    exact h.memberPlaceholder hv hw
  | _ => cases hw

/-- So is what stands in for an item, which is absent if nothing does. -/
theorem elementOf (h : DataGraph good) {v : Value} (hv : good v) :
    good (PathSite.elementPlaceholder v) := by
  cases v with
  | object o =>
    show good (o.contents.elementPlaceholder?.getD .empty)
    cases helement : o.contents.elementPlaceholder? with
    | none => exact h.empty
    | some w => exact h.elementPlaceholder hv helement
  | _ => exact h.empty

end DataGraph

namespace Coupling

/-! ## Runs in different modes -/

/-- Whether the second run is a validation and the first is not. -/
def Validates (C : Coupling) : Prop := C.second.mode = .validation ∧ C.first.mode ≠ .validation

theorem not_validates {C : Coupling} (h : C.second.mode = C.first.mode) : ¬C.Validates := by
  rintro ⟨hsecond, hfirst⟩
  exact hfirst (h ▸ hsecond)

/-- Unless the second run alone is a validation, both are validations or neither is. -/
theorem validation_iff {C : Coupling} (h : ¬C.Validates) :
    C.second.mode = .validation ↔ C.first.mode = .validation := by
  rcases C.mode with hmode | ⟨hstrict, -⟩
  · rw [hmode]
  · refine ⟨fun hsecond => (h ⟨hsecond, ?_⟩).elim, fun hfirst => ?_⟩
    · rw [hstrict]
      exact nofun
    · rw [hstrict] at hfirst
      cases hfirst

/-- What is to be known of the values that a path can meet in both runs. -/
structure Meets (C : Coupling) (good : Value → Prop) : Prop where
  empty : good .empty
  number : ∀ x, good (.number x)
  array : ∀ {items}, good (.array items) ↔ ∀ v ∈ items, good v
  graph : ¬C.Validates → DataGraph good
  memberPlaceholder?_eq_none : C.Validates → ∀ {v}, good v → ∀ name,
    PathSite.memberPlaceholder? name v = none

theorem Meets.of_graph {C : Coupling} {good : Value → Prop} (h : DataGraph good)
    (hvalidates : ¬C.Validates) : C.Meets good :=
  ⟨h.empty, h.number, h.array, fun _ => h, fun h => absurd h hvalidates⟩

/-! ## Paths with the same steps -/

/-- Two paths fail alike and look up members of good objects alike, each step those that it has:
`reads` says the names that a step of the one and a step of the other may have.  Without data they
may fail for another cause. -/
structure AlikeSite (C : Coupling) (cause : CalcError → Prop) (good : Value → Prop)
    (reads : Nat → String → String → Prop) (p q : PathSite) : Prop where
  spelling : ∀ {i name name'}, reads i name name' → Text.equalIgnoringAsciiCase name name' = true
  errors : ∀ i problem, C.errors (.binding ⟨problem, p.text, p.labels (), i⟩)
    (.binding ⟨problem, q.text, q.labels (), i⟩)
  /-- A problem of a step tells its name. -/
  namedErrors : ∀ {i name name'}, reads i name name' → ∀ problem : String → BindingProblem,
    (∀ s s', (problem s).kind = (problem s').kind) →
    C.errors (.binding ⟨problem name, p.text, p.labels (), i⟩)
      (.binding ⟨problem name', q.text, q.labels (), i⟩)
  causes : ∀ i (problem : BindingProblem), problem.kind ≠ .noDataContext →
    cause (.binding ⟨problem, p.text, p.labels (), i⟩)
  objectMember : ∀ {i name name'} (o : Object Value), reads i name name' → good (.object o) →
    C.Follows cause (p.objectMember i name o.contents) (q.objectMember i name' o.contents) good
  memberPlaceholder?_eq : ∀ {i name name' v}, reads i name name' → good v →
    PathSite.memberPlaceholder? name' v = PathSite.memberPlaceholder? name v

/-- Two paths with the same names fail alike and look up members of good objects alike, each step
those that it has. -/
structure SameSite (C : Coupling) (cause : CalcError → Prop) (good : Value → Prop)
    (reads : Nat → String → Prop) (p q : PathSite) : Prop where
  errors : ∀ i problem, C.errors (.binding ⟨problem, p.text, p.labels (), i⟩)
    (.binding ⟨problem, q.text, q.labels (), i⟩)
  causes : ∀ i (problem : BindingProblem), problem.kind ≠ .noDataContext →
    cause (.binding ⟨problem, p.text, p.labels (), i⟩)
  objectMember : ∀ i name (o : Object Value), reads i name → good (.object o) →
    C.Follows cause (p.objectMember i name o.contents) (q.objectMember i name o.contents) good

/-- Paths with the same names are alike, each step under the one name that it has. -/
theorem SameSite.alike {C : Coupling} {cause : CalcError → Prop} {good : Value → Prop}
    {reads : Nat → String → Prop} {p q : PathSite} (h : C.SameSite cause good reads p q) :
    C.AlikeSite cause good (fun i name name' => name = name' ∧ reads i name) p q where
  spelling := by
    rintro i name _ ⟨rfl, -⟩
    exact Text.equalIgnoringAsciiCase_refl name
  errors := h.errors
  namedErrors := by
    rintro i name _ ⟨rfl, -⟩ problem -
    exact h.errors i (problem name)
  causes := h.causes
  objectMember := by
    rintro i name _ o ⟨rfl, hname⟩
    exact h.objectMember i name o hname
  memberPlaceholder?_eq := by
    rintro i name _ v ⟨rfl, -⟩ -
    rfl

/-- Whether states match only with the same remembered handles, whatever they are. -/
structure SharesMemo (states : EvalState → EvalState → Prop) : Prop where
  memo_eq : ∀ {s t}, states s t → s.memo = t.memo
  setMemo : ∀ {s t} memo, states s t → states { s with memo } { t with memo }

theorem sharesMemo_eq : SharesMemo Eq := ⟨congrArg EvalState.memo, fun _ h => h ▸ rfl⟩

theorem sharesMemo_same (run : Run) : SharesMemo (same run).states := sharesMemo_eq

/-- Whether states match only if the steps of a path in the first run and those of one in the second
remember the same handles, whatever they are. -/
structure SharesHandles (states : EvalState → EvalState → Prop) (id id' : Nat) : Prop where
  get?_eq : ∀ {s t} i typeName, states s t →
    s.memo.get? (id, i) typeName = t.memo.get? (id', i) typeName
  remember : ∀ {s t} i typeName handle, states s t →
    states { s with memo := s.memo.remember (id, i) typeName handle }
      { t with memo := t.memo.remember (id', i) typeName handle }

/-- Steps that remember the same handles share those of any path. -/
theorem SharesMemo.handles {states : EvalState → EvalState → Prop} (h : SharesMemo states)
    (id : Nat) : SharesHandles states id id where
  get?_eq _ _ hst := by rw [h.memo_eq hst]
  remember _ _ _ hst := by
    rw [h.memo_eq hst]
    exact h.setMemo _ hst

/-- Two steps with keys that follow each other. -/
structure AlikeStep (C : Coupling) (cause : CalcError → Prop) (s t : Step (Eval Value)) : Prop where
  keys : List.Forall₂ (fun x y => C.Follows cause x y fun _ => True) s.keys t.keys
  keys_eq_nil : C.Validates → s.keys = []

namespace Follows

variable {C : Coupling} {cause : CalcError → Prop} {good : Value → Prop}
  {reads : Nat → String → String → Prop} {p q : PathSite} {i : Nat} {name name' : String}

theorem fail {α : Type} {post : α → Prop} (h : C.AlikeSite cause good reads p q)
    {problem : BindingProblem} (hproblem : problem.kind ≠ .noDataContext) :
    C.Follows cause (p.fail i problem) (q.fail i problem) post :=
  throw (h.causes i problem hproblem) (h.errors i problem)

theorem failNamed {α : Type} {post : α → Prop} (h : C.AlikeSite cause good reads p q)
    (hname : reads i name name') (problem : String → BindingProblem)
    (hkind : ∀ s s', (problem s).kind = (problem s').kind)
    (hproblem : (problem name).kind ≠ .noDataContext) :
    C.Follows cause (p.fail i (problem name)) (q.fail i (problem name')) post :=
  throw (h.causes i _ hproblem) (h.namedErrors hname problem hkind)

/-- Computations that follow each other give the same list, behind what was found before. -/
theorem allOnto {xs ys : List (Eval Value)}
    (h : List.Forall₂ (fun x y => C.Follows cause x y fun _ => True) xs ys) :
    ∀ before, C.Follows cause (Eval.allOnto before xs) (Eval.allOnto before ys)
      fun _ => True := by
  induction h with
  | nil => exact fun before => pure trivial
  | cons hx _ ih => exact fun before => hx.bind fun v _ => ih (v :: before)

/-! ## Members -/

/-- Looking up a member of an object under two names for which it finds the same, where the same
handles are remembered. -/
theorem alikeMember (hhandles : SharesHandles C.states p.id q.id) {c : Contents Value}
    (hfind : c.findMember? name' = c.findMember? name)
    (herrors : C.errors (.binding ⟨.unknownMember name c.typeName, p.text, p.labels (), i⟩)
      (.binding ⟨.unknownMember name' c.typeName, q.text, q.labels (), i⟩))
    (hcause : cause (.binding ⟨.unknownMember name c.typeName, p.text, p.labels (), i⟩))
    (hmember : ∀ handle v, c.member? handle = some v → good v) :
    C.Follows cause (p.objectMember i name c) (q.objectMember i name' c) good := by
  have hhandle : C.Follows cause (p.handle i name c) (q.handle i name' c) fun _ => True := by
    intro s t hst
    unfold PathSite.handle
    simp only [Eval.exec_bind, Eval.exec_get, ← hhandles.get?_eq i c.typeName hst, hfind]
    split
    · exact .inl ⟨_, s, t, rfl, rfl, trivial, hst⟩
    · split
      · exact .inl ⟨_, _, _, rfl, rfl, trivial, hhandles.remember _ _ _ hst⟩
      · exact .inr ⟨_, s, rfl, hcause, .inr ⟨_, t, rfl, herrors, hst⟩⟩
  refine hhandle.bind fun handle _ => ?_
  cases hv : c.member? handle with
  | some v => exact pure (hmember handle v hv)
  | none => exact throw hcause herrors

/-- Looking up a member of an object, where the same handles are remembered. -/
theorem objectMember (hhandles : SharesHandles C.states p.id q.id)
    (herrors : ∀ problem, C.errors (.binding ⟨problem, p.text, p.labels (), i⟩)
      (.binding ⟨problem, q.text, q.labels (), i⟩))
    (hcause : ∀ problem : BindingProblem, problem.kind ≠ .noDataContext →
      cause (.binding ⟨problem, p.text, p.labels (), i⟩))
    {c : Contents Value} (hmember : ∀ handle v, c.member? handle = some v → good v) :
    C.Follows cause (p.objectMember i name c) (q.objectMember i name c) good :=
  alikeMember hhandles rfl (herrors _) (hcause _ nofun) hmember

/-- Whether a name stands for the length of an array does not depend on its case. -/
theorem isLengthName_congr (h : Text.equalIgnoringAsciiCase name name' = true) :
    PathSite.isLengthName name' = PathSite.isLengthName name := by
  unfold PathSite.isLengthName
  rw [Text.equalIgnoringAsciiCase_congr_left h, Text.equalIgnoringAsciiCase_congr_left h]

mutual

/-- Reading a member under two names follows, by induction on the value: objects look it up alike,
the length does not depend on the case of the name, and arrays read it from their items. -/
theorem member (hm : C.Meets good) (h : C.AlikeSite cause good reads p q)
    (hname : reads i name name') :
    ∀ v : Value, good v → C.Follows cause (p.member i name v) (q.member i name' v) good
  | .object o, hv => by
    unfold PathSite.member
    exact h.objectMember o hname hv
  | .text s, _ => by
    unfold PathSite.member
    rw [← Text.equalIgnoringAsciiCase_congr_left (h.spelling hname)]
    split
    · exact pure (hm.number _)
    · exact failNamed h hname (.unknownMember · _) (fun _ _ => rfl) nofun
  | .array items, hv => by
    unfold PathSite.member
    rw [isLengthName_congr (h.spelling hname)]
    split
    · exact pure (hm.number _)
    · refine (members hm h hname items (hm.array.mp hv) [] (by simp)).bind fun vs hvs => ?_
      exact pure (hm.array.mpr hvs)
  | .empty, _ | .number _, _ | .decimal _, _ | .boolean _, _ | .dateTime _, _ => by
    unfold PathSite.member
    exact failNamed h hname (.unknownMember · _) (fun _ _ => rfl) nofun

/-- So do the members of the items of an array, from left to right. -/
theorem members (hm : C.Meets good) (h : C.AlikeSite cause good reads p q)
    (hname : reads i name name') :
    ∀ items : List Value, (∀ v ∈ items, good v) → ∀ before : List Value, (∀ v ∈ before, good v) →
      C.Follows cause (p.members i name before items) (q.members i name' before items)
        fun vs => ∀ v ∈ vs, good v
  | [], _, before, hbefore => by
    unfold PathSite.members
    exact pure (by simpa using hbefore)
  | v :: items, hitems, before, hbefore => by
    obtain ⟨hv, htail⟩ := List.forall_mem_cons.mp hitems
    -- Empty items stay as they are; the member is looked up in the others.
    by_cases hempty : v = .empty
    · subst hempty
      unfold PathSite.members
      exact members hm h hname items htail _ (List.forall_mem_cons.mpr ⟨hv, hbefore⟩)
    · rw [PathSite.members.eq_3 _ _ _ _ _ _ hempty, PathSite.members.eq_3 _ _ _ _ _ _ hempty]
      refine (member hm h hname v hv).bind fun w hw => ?_
      exact members hm h hname items htail _ (List.forall_mem_cons.mpr ⟨hw, hbefore⟩)

end

/-! ## Items -/

section
variable (ha : C.Admits cause) (hm : C.Meets good) (h : C.AlikeSite cause good reads p q)
include ha hm h

/-- Taking an item of an array depends on the items and the keys alone, but for the name in an
error. -/
theorem arrayItem {items keys : List Value} (hname : reads i name name')
    (hitems : good (.array items)) :
    C.Follows cause (p.arrayItem i name items keys) (q.arrayItem i name' items keys) good := by
  unfold PathSite.arrayItem
  split
  · refine (ofOutcome ha (Value.operational_asNumber _)).bind fun x _ => ?_
    cases hfound : if 0 ≤ x && Number.isWhole x then items[Number.toCount x]? else none with
    | none => exact failNamed h hname (.noPosition · _ _) (fun _ _ => rfl) nofun
    | some v =>
      refine pure (hm.array.mp hitems v ?_)
      split at hfound
      · exact List.mem_of_getElem? hfound
      · cases hfound
  · exact failNamed h hname (.notIndexable · _) (fun _ _ => rfl) nofun

variable (hvalidates : ¬C.Validates)
include hvalidates

/-- So does taking an item of an object, and a placeholder stands in for it in both runs or in
neither. -/
theorem objectItem {o : Object Value} {keys : List Value} (hname : reads i name name')
    (ho : good (.object o)) :
    C.Follows cause (p.objectItem i name o.contents keys) (q.objectItem i name' o.contents keys)
      good := by
  have hgraph := hm.graph hvalidates
  unfold PathSite.objectItem
  split
  · exact throw_self (ha.operational _ rfl)
  · rename_i keys _
    cases hindexed : o.contents.indexed? keys with
    | some v => exact pure (hgraph.indexed ho hindexed)
    | none =>
      cases o.contents.shape with
      | plain => exact failNamed h hname (.notIndexable · _) (fun _ _ => rfl) nofun
      | sequence => exact failNamed h hname (.noItem · _ _) (fun _ _ => rfl) nofun
      | dictionary =>
        refine read ?_
        cases hplaceholder : o.contents.elementPlaceholder? with
        | none => exact failNamed h hname (.missingKey · _ _) (fun _ _ => rfl) nofun
        | some v =>
          rcases C.mode with hmode | ⟨hstrict, halone⟩
          · rw [hmode]
            cases C.first.mode.throws with
            | true => exact failNamed h hname (.missingKey · _ _) (fun _ _ => rfl) nofun
            | false => exact pure (hgraph.elementPlaceholder ho hplaceholder)
          · -- A strict run takes no placeholder for the item.
            rw [hstrict]
            exact throw_alone (h.causes i _ nofun) (halone _)

/-- Taking an item from any container follows, since both runs are validations or neither is. -/
theorem item {v : Value} {keys : List Value} (hname : reads i name name') (hv : good v) :
    C.Follows cause (p.item i name v keys) (q.item i name' v keys) good := by
  unfold PathSite.item
  refine read ?_
  simp only [validation_iff hvalidates]
  split
  · exact pure ((hm.graph hvalidates).elementOf hv)
  · split
    · exact arrayItem ha hm h hname hv
    · exact objectItem ha hm h hvalidates hname hv
    · exact fail h nofun
    · exact failNamed h hname (.notIndexable · _) (fun _ _ => rfl) nofun

/-! ## Whole paths -/

omit hvalidates

/-- A step follows: it reads a member alike, for which a placeholder stands in in both runs or
neither, and takes an item of it under keys that have the same values. -/
theorem step {s t : Step (Eval Value)} (hst : C.AlikeStep cause s t)
    (hname : reads i s.name t.name) {v : Value} (hv : good v) :
    C.Follows cause (p.step i s v) (q.step i t v) good := by
  unfold PathSite.step
  refine (member hm h hname v hv).bind fun m hgood => read ?_
  rw [h.memberPlaceholder?_eq hname hv]
  by_cases hvalidates : C.Validates
  · -- There is no placeholder for the member, and there are no keys.
    have hmember : ∀ b : Bool,
        (if b then (PathSite.memberPlaceholder? s.name v).getD m else m) = m := by
      intro b
      rw [hm.memberPlaceholder?_eq_none hvalidates hv]
      exact ite_self m
    have hkeys := hst.keys
    rw [hst.keys_eq_nil hvalidates, List.forall₂_nil_left_iff] at hkeys
    rw [hmember, hmember, hst.keys_eq_nil hvalidates, hkeys]
    exact pure hgood
  · -- Both runs are validations, in which a placeholder stands in for an empty value, or neither.
    have hmode : (C.second.mode == .validation) = (C.first.mode == .validation) := by
      rw [Bool.eq_iff_iff, beq_iff_eq, beq_iff_eq, validation_iff hvalidates]
    have hgood' : good
        (if m.isEmpty && C.first.mode == .validation then
          (PathSite.memberPlaceholder? s.name v).getD m else m) := by
      split
      · cases hplaceholder : PathSite.memberPlaceholder? s.name v with
        | none => exact hgood
        | some w => exact (hm.graph hvalidates).placeholder hv hplaceholder
      · exact hgood
    rw [hmode]
    have hkeys := hst.keys
    revert hkeys
    cases s.keys with
    | nil =>
      intro hkeys
      rw [List.forall₂_nil_left_iff.mp hkeys]
      exact pure hgood'
    | cons x xs =>
      cases t.keys with
      | nil => exact fun hkeys => nomatch hkeys
      | cons y ys =>
        intro hkeys
        exact (allOnto hkeys []).bind fun keys _ => item ha hm h hvalidates hname hgood'

/-- A walk follows, by induction on the steps: each goes on from the value that the step before led
to in both runs. -/
theorem walk {ss ts : List (Step (Eval Value))}
    (hsteps : List.Forall₂ (C.AlikeStep cause) ss ts) :
    ∀ i v, (∀ j s t, ss[j]? = some s → ts[j]? = some t → reads (i + j) s.name t.name) → good v →
      C.Follows cause (p.walk i v ss) (q.walk i v ts) good := by
  induction hsteps with
  | nil => exact fun i v _ hv => pure hv
  | @cons _ _ ss ts hst _ ih =>
    intro i v hnames hv
    -- The rest of the path is walked from the next step on, so its names are told one later.
    have hrest : ∀ j s t, ss[j]? = some s → ts[j]? = some t →
        reads (i + 1 + j) s.name t.name := by
      intro j s t hs ht
      rw [Nat.add_assoc, Nat.add_comm 1]
      exact hnames (j + 1) s t hs ht
    unfold PathSite.walk
    split
    · refine read ?_
      rcases C.mode with hmode | ⟨hstrict, halone⟩
      · rw [hmode]
        split
        · exact pure hm.empty
        · exact fail h nofun
      · rw [hstrict, if_neg nofun]
        exact throw_alone (h.causes i _ nofun) (halone _)
    · exact (step ha hm h hst (hnames 0 _ _ rfl rfl) hv).bind fun w hw => ih (i + 1) w hrest hw

end

/-- A path with steps that are alike gives the same in the second run.  What is a cause `inside` of
the path is a cause of the path failing, unless it is a problem that the first run puts up with. -/
theorem resolve {inside : CalcError → Prop} (ha : C.Admits inside) (hm : C.Meets good)
    (h : C.AlikeSite inside good reads p q) {ss ts : List (Step (Eval Value))}
    (hsteps : List.Forall₂ (C.AlikeStep inside) ss ts)
    (hnames : ∀ j s t, ss[j]? = some s → ts[j]? = some t → reads j s.name t.name)
    (hroot : ∀ root, C.first.scope.context = some root → good root)
    (hnone : C.first.scope.context = none →
      inside (.binding ⟨.noDataContext, p.text, p.labels (), 0⟩))
    (hcause : ∀ e, inside e →
      (∀ b, e = .binding b → PathSite.isTolerated C.first.mode b.kind = false) → cause e) :
    C.Follows cause (p.resolve ss) (q.resolve ts) good := by
  rw [PathSite.resolve_eq, PathSite.resolve_eq]
  refine read (tolerating ?_ hm.empty (fun kind => ?_) (fun b halone => ?_) hcause)
  · rw [C.scope_eq]
    cases hcontext : C.first.scope.context with
    | none => exact throw (hnone hcontext) (h.errors 0 .noDataContext)
    | some root =>
      refine walk ha hm h hsteps 0 root (fun j s t hs ht => ?_) (hroot root hcontext)
      rw [Nat.zero_add]
      exact hnames j s t hs ht
  -- A strict run puts up with no problem.
  · rcases C.mode with hmode | ⟨hstrict, halone⟩
    · exact .inl (by rw [hmode])
    · exact .inr ⟨by rw [hstrict]; rfl, halone⟩
  · rw [C.strict halone]
    rfl

end Follows

end Coupling

end Formula
