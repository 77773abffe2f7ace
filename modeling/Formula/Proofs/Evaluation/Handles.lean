import Formula.Proofs.Evaluation.Comparison

/-!
# Remembered handles

A step of a path remembers the handle of its member for the type that it was found in.  That this
is unseen rests on what objects promise: a handle stands for the same member in every object of the
type (`HandleContract`).  Then an evaluation gives the same whatever its steps remember from
others.
-/

namespace Formula

/-! ## What objects promise -/

/-- What the objects among some values promise: what is in them is among the values too, and a
handle that one finds for a name is that of the name for all that have its type. -/
structure HandleContract (good : Value → Prop) : Prop extends DataGraph good where
  member : ∀ {o : Object Value} {name v}, good (.object o) → o.contents.get? name = some v → good v
  valid : ∀ {o o' : Object Value} {name handle}, good (.object o) → good (.object o') →
    o.contents.typeName = o'.contents.typeName → o.contents.findMember? name = some handle →
    o'.contents.member? handle = o'.contents.get? name

/-! ## What steps remember -/

/-- Whether the handles that steps remember were found for the names that the steps read. -/
def Memo.IsValid (good : Value → Prop) (names : Nat → Nat → String) (m : Memo) : Prop :=
  ∀ id i typeName handle, m.get? (id, i) typeName = some handle →
    ∃ o : Object Value, good (.object o) ∧ o.contents.typeName = typeName ∧
      o.contents.findMember? (names id i) = some handle

/-- Remembering a handle shadows those that the step remembered before, and leaves other steps
alone. -/
theorem Memo.get?_remember (m : Memo) (step step' : Nat × Nat) (typeName typeName' : String)
    (handle : Handle) : (m.remember step typeName handle).get? step' typeName' =
      if step' = step then (if typeName = typeName' then some handle else none)
      else m.get? step' typeName' := by
  unfold Memo.remember Memo.get?
  rw [List.lookup_cons]
  by_cases hstep : step' = step
  · rw [if_pos hstep, hstep, BEq.rfl]
  · -- Only the entries of the step itself are dropped.
    have hlookup : (m.filter (·.1 != step)).lookup step' = m.lookup step' := by
      induction m with
      | nil => rfl
      | cons entry m ih =>
        obtain ⟨known, entry⟩ := entry
        rw [List.filter_cons, List.lookup_cons]
        by_cases hknown : known = step
        · rw [if_neg (by simp [hknown]), ih, hknown, beq_false_of_ne hstep]
        · rw [if_pos (by simp [hknown]), List.lookup_cons, ih]
    rw [if_neg hstep, beq_false_of_ne hstep, hlookup]

namespace Memo.IsValid

variable {good : Value → Prop} {names : Nat → Nat → String} {m : Memo}

theorem nil : IsValid good names [] := by
  intro id i typeName handle h
  cases h

/-- A handle that an object finds for the name of a step may be remembered for it. -/
theorem remember {id i : Nat} {o : Object Value} {handle : Handle} (h : m.IsValid good names)
    (ho : good (.object o)) (hfound : o.contents.findMember? (names id i) = some handle) :
    (m.remember (id, i) o.contents.typeName handle).IsValid good names := by
  intro id' i' typeName handle' hget
  rw [get?_remember] at hget
  split at hget
  · next hstep =>
    cases hstep
    split at hget
    · next htype =>
      cases hget
      exact ⟨o, ho, htype, hfound⟩
    · cases hget
  · exact h id' i' typeName handle' hget

end Memo.IsValid

/-! ## Evaluations that remember different handles -/

/-- Evaluations whose steps may remember different handles, all of them valid. -/
def Comparison.remembering (good : Value → Prop) (names : Nat → Nat → String) : Comparison where
  runs run := ∀ root, run.scope.context = some root → good root
  states s t := s.host = t.host ∧ s.recorded = t.recorded ∧ s.memo.IsValid good names ∧
    t.memo.IsValid good names
  errors := Eq
  errors_refl _ := rfl
  bindingKind?_eq h := by rw [h]
  host_eq h := h.1
  setHost _ h := ⟨rfl, h.2⟩
  record _ h := ⟨h.1, by rw [h.2.1], h.2.2⟩

/-- Whether in states that match the steps remember valid handles, whatever these are. -/
structure Coupling.KeepsValid (C : Coupling) (good : Value → Prop)
    (names names' : Nat → Nat → String) : Prop where
  valid : ∀ {s t}, C.states s t → s.memo.IsValid good names ∧ t.memo.IsValid good names'
  setMemos : ∀ {s t m m'}, C.states s t → m.IsValid good names → m'.IsValid good names' →
    C.states { s with memo := m } { t with memo := m' }

open Comparison (remembering)

/-- What a step reads from an object. -/
def memberOutcome (p : PathSite) (i : Nat) (name : String) (c : Contents Value) : Outcome Value :=
  match c.get? name with
  | some v => .ok v
  | none => .error (.binding ⟨.unknownMember name c.typeName, p.text, p.labels (), i⟩)

section
variable {good : Value → Prop} {names : Nat → Nat → String} (hgood : HandleContract good)
include hgood

/-- What a step reads from an object is the member that it names, whatever the step remembers. -/
theorem exec_objectMember {p : PathSite} {i : Nat} {o : Object Value} {run : Run} {s : EvalState}
    (ho : good (.object o)) (hs : s.memo.IsValid good names) :
    ∃ memo : Memo, memo.IsValid good names ∧
      (p.objectMember i (names p.id i) o.contents).exec run s =
        (memberOutcome p i (names p.id i) o.contents, { s with memo }) := by
  -- What the step does once it has a handle that stands for its member.
  have hread : ∀ (handle : Handle) (t : EvalState),
      o.contents.member? handle = o.contents.get? (names p.id i) →
      (match o.contents.member? handle with
        | some v => pure v
        | none => p.fail i (.unknownMember (names p.id i) o.contents.typeName) : Eval Value).exec
          run t = (memberOutcome p i (names p.id i) o.contents, t) := by
    intro handle t hmember
    rw [hmember, memberOutcome]
    cases o.contents.get? (names p.id i) <;> rfl
  unfold PathSite.objectMember PathSite.handle
  simp only [Eval.exec_bind, Eval.exec_get]
  cases hget : s.memo.get? (p.id, i) o.contents.typeName with
  | some handle =>
    -- The handle was found in another object of the type; it is valid in this one too.
    obtain ⟨o', ho', htype, hfound⟩ := hs _ _ _ _ hget
    exact ⟨s.memo, hs, hread handle s (hgood.valid ho' ho htype hfound)⟩
  | none =>
    cases hfound : o.contents.findMember? (names p.id i) with
    | some handle =>
      refine ⟨_, hs.remember ho hfound, hread handle _ ?_⟩
      rw [Contents.get?, hfound]
      rfl
    | none =>
      refine ⟨s.memo, hs, ?_⟩
      rw [memberOutcome, Contents.get?, hfound]
      rfl

/-- Looking up a member of an object, where valid handles are remembered, whatever they are. -/
theorem Coupling.Follows.validMember {C : Coupling} {names' : Nat → Nat → String}
    {cause : CalcError → Prop} {p q : PathSite} {i : Nat} {name : String} {o : Object Value}
    (hmemos : C.KeepsValid good names names') (hp : names p.id i = name) (hq : names' q.id i = name)
    (herrors : ∀ problem, C.errors (.binding ⟨problem, p.text, p.labels (), i⟩)
      (.binding ⟨problem, q.text, q.labels (), i⟩))
    (hcause : ∀ problem : BindingProblem, problem.kind ≠ .noDataContext →
      cause (.binding ⟨problem, p.text, p.labels (), i⟩)) (ho : good (.object o)) :
    C.Follows cause (p.objectMember i name o.contents) (q.objectMember i name o.contents) good := by
  intro s t hst
  obtain ⟨hs, ht⟩ := hmemos.valid hst
  obtain ⟨memo, hmemo, hx⟩ := @exec_objectMember _ _ hgood p i o C.first s ho hs
  obtain ⟨memo', hmemo', hy⟩ := @exec_objectMember _ _ hgood q i o C.second t ho ht
  have hstates := hmemos.setMemos hst hmemo hmemo'
  rw [hp] at hx
  rw [hq] at hy
  rw [hx, hy, memberOutcome, memberOutcome]
  cases hvalue : o.contents.get? name with
  | some v => exact .inl ⟨v, _, _, rfl, rfl, hgood.member ho hvalue, hstates⟩
  | none => exact .inr ⟨_, _, rfl, hcause _ nofun, .inr ⟨_, _, rfl, herrors _, hstates⟩⟩

/-- A path with steps that do the same, where valid handles are remembered, whatever they are. -/
theorem Coupling.Repeats.validPath {C : Coupling} {names' : Nat → Nat → String} {id id' : Nat}
    {steps steps' : List (Step Expr)} {text : String} (hmemos : C.KeepsValid good names names')
    (hvalidates : ¬C.Validates)
    (herrors : ∀ i problem, C.errors (.binding ⟨problem, text, steps.map Step.text, i⟩)
      (.binding ⟨problem, text, steps'.map Step.text, i⟩))
    (hrecords : C.MayRecord (.path id steps text) id id')
    (hsteps : List.Forall₂ (C.OfStep fun _ => True) steps steps')
    (hnames : ∀ j s, steps[j]? = some s → names id j = s.name ∧ names' id' j = s.name)
    (hroot : ∀ root, C.first.scope.context = some root → good root) :
    C.Repeats (fun _ => True) (.path id steps text) (.path id' steps' text) := by
  have hsite : C.SameSite (fun _ => True) good
      (fun i name => names id i = name ∧ names' id' i = name)
      ⟨id, text, fun _ => steps.map Step.text⟩ ⟨id', text, fun _ => steps'.map Step.text⟩ :=
    ⟨herrors, fun _ _ _ => trivial, fun i name o hname ho =>
      .validMember hgood hmemos hname.1 hname.2 (herrors i) (fun _ _ => trivial) ho⟩
  exact .path (fun _ => trivial) hrecords .any (.of_graph hgood.toDataGraph hvalidates) hsite hsteps
    hnames hroot (fun _ => trivial) fun _ _ _ => trivial

/-- An expression gives the same whatever the steps of its paths remember. -/
theorem Expr.relatedBy_remembering {e : Expr} (he : e.StepsNamed names) :
    Expr.RelatedBy (remembering good names) e e := by
  refine @Expr.RelatedBy.refl (remembering good names) good (fun id j name => names id j = name)
    hgood.toDataGraph ?_ (fun _ root hrun hroot => hrun root hroot) e
    fun id steps text h => he.step h
  intro id text labels
  refine ⟨fun _ _ => rfl, fun i name o hname ho => Comparison.relates_iff.mpr fun run _ => ?_⟩
  have hmemos : ((remembering good names).coupling run).KeepsValid good names names :=
    ⟨fun h => h.2.2, fun h hs ht => ⟨h.1, h.2.1, hs, ht⟩⟩
  exact .validMember (p := ⟨id, text, labels⟩) (q := ⟨id, text, labels⟩) hgood hmemos hname hname
    (fun _ => rfl) (fun _ _ => trivial) ho

end

end Formula
