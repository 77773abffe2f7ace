import Formula.Proofs.Evaluation.Expressions

/-!
# Comparing evaluations

A `Comparison` couples each of some runs with itself: it says when two states of an evaluation match
and which errors count as the same.  Two computations are related by it when from matching states
they give the same value or errors that count as the same, and leave matching states; that is, when
they follow each other in all of these runs (`Comparison.relates_iff`).
-/

namespace Formula

/-- What it means that two computations do the same. -/
structure Comparison where
  /-- The runs that are looked at. -/
  runs : Run → Prop
  /-- Whether the states of two computations match. -/
  states : EvalState → EvalState → Prop
  /-- Whether two errors count as the same. -/
  errors : CalcError → CalcError → Prop
  errors_refl : ∀ e, errors e e
  bindingKind?_eq : ∀ {e e'}, errors e e' → e.bindingKind? = e'.bindingKind?
  host_eq : ∀ {s t}, states s t → s.host = t.host
  setHost : ∀ {s t} host, states s t → states { s with host } { t with host }
  record : ∀ {s t} entry, states s t →
    states { s with recorded := entry :: s.recorded } { t with recorded := entry :: t.recorded }

namespace Comparison

variable {α : Type} (R : Comparison)

/-- Two computations give the same value, one with `post`, or errors that count as the same. -/
def Relates (x y : Eval α) (post : α → Prop) : Prop :=
  ∀ ⦃run : Run⦄ ⦃s t : EvalState⦄, R.runs run → R.states s t →
    (∃ a s' t', x.exec run s = (.ok a, s') ∧ y.exec run t = (.ok a, t') ∧ post a ∧
      R.states s' t') ∨
    (∃ e e' s' t', x.exec run s = (.error e, s') ∧ y.exec run t = (.error e', t') ∧
      R.errors e e' ∧ R.states s' t')

/-- Two paths fail alike and look up members of good objects alike, each step those that it has. -/
structure SameSite (R : Comparison) (good : Value → Prop) (reads : Nat → String → Prop)
    (p q : PathSite) : Prop where
  fails : ∀ i problem, R.errors (.binding ⟨problem, p.text, p.labels (), i⟩)
    (.binding ⟨problem, q.text, q.labels (), i⟩)
  objectMember : ∀ i name (o : Object Value), reads i name → good (.object o) →
    R.Relates (p.objectMember i name o.contents) (q.objectMember i name o.contents) good

/-! ## One of the runs -/

/-- A run coupled with itself as it is compared. -/
def coupling (run : Run) : Coupling :=
  .ofRun run R.states R.errors R.errors_refl R.bindingKind?_eq ⟨R.host_eq, R.setHost⟩ R.record

variable {R} {x y : Eval α} {post : α → Prop}

/-- Two computations are related if in every run, coupled with itself, the second follows the
first. -/
theorem relates_iff : R.Relates x y post ↔
    ∀ run, R.runs run → (R.coupling run).Follows (fun _ => True) x y post := by
  constructor
  · intro h run hrun s t hst
    rcases h hrun hst with hvalue | ⟨e, e', s', t', hx, hy, he, hst'⟩
    · exact .inl hvalue
    · exact .inr ⟨e, s', hx, trivial, .inr ⟨e', t', hy, he, hst'⟩⟩
  · intro h run s t hrun hst
    rcases h run hrun hst with hvalue | ⟨e, s', hx, -, halone | ⟨e', t', hy, he, hst'⟩⟩
    · exact .inl hvalue
    · exact halone.elim
    · exact .inr ⟨e, e', s', t', hx, hy, he, hst'⟩

theorem not_validates (run : Run) : ¬(R.coupling run).Validates :=
  Coupling.not_validates rfl

/-- Both runs record the same values for the same nodes. -/
theorem mayRecord (run : Run) (e : Expr) (id : Nat) : (R.coupling run).MayRecord e id id :=
  fun _ _ _ _ _ _ => rfl

theorem SameSite.coupled {good : Value → Prop} {reads : Nat → String → Prop} {p q : PathSite}
    (h : R.SameSite good reads p q) {run : Run} (hrun : R.runs run) :
    (R.coupling run).SameSite (fun _ => True) good reads p q :=
  ⟨h.fails, fun _ _ _ => trivial, fun i name o hname ho =>
    relates_iff.mp (h.objectMember i name o hname ho) run hrun⟩

end Comparison

/-! ## Expressions -/

namespace Expr

open Comparison (relates_iff)
open Coupling (Admits Repeats)

variable {R : Comparison}

/-- Two expressions whose evaluations are related. -/
abbrev RelatedBy (R : Comparison) (e e' : Expr) : Prop :=
  R.Relates (evaluate e) (evaluate e') fun _ => True

namespace RelatedBy

theorem literal (v : Value) : RelatedBy R (.literal v) (.literal v) :=
  relates_iff.mpr fun _ _ => Repeats.literal .any v

theorem unary {op : UnaryOp} {e e' : Expr} (h : RelatedBy R e e') :
    RelatedBy R (.unary op e) (.unary op e') :=
  relates_iff.mpr fun run hrun => Repeats.unary .any (relates_iff.mp h run hrun)

theorem binary {op : BinaryOp} {l l' r r' : Expr} (hl : RelatedBy R l l') (hr : RelatedBy R r r') :
    RelatedBy R (.binary op l r) (.binary op l' r') :=
  relates_iff.mpr fun run hrun =>
    Repeats.binary .any (relates_iff.mp hl run hrun) (relates_iff.mp hr run hrun)

theorem coupled {es es' : List Expr} (h : List.Forall₂ (RelatedBy R) es es') {run : Run}
    (hrun : R.runs run) : List.Forall₂ ((R.coupling run).Repeats fun _ => True) es es' :=
  h.imp fun _ _ h => relates_iff.mp h run hrun

/-- A call repeats itself with arguments that are related, since its plan is confined to them. -/
theorem call {asks : Nat → Prop} {sees recovers : Prop} {id : Nat} {f : FunctionDef}
    {args args' : List Expr}
    (hplan : Plan.Confined asks sees recovers (f.implementation.plan args.length))
    (h : List.Forall₂ (RelatedBy R) args args') :
    RelatedBy R (.call id f args) (.call id f args') := by
  refine relates_iff.mpr fun run hrun => Repeats.call .any (Comparison.mayRecord run _ id) ?_
  rw [← h.length_eq]
  exact .plan hplan .any (fun _ _ => False.elim) (fun _ _ _ => trivial)
    (Repeats.arguments (coupled h hrun))

theorem var {id : Nat} {name : String} {index index' : List Expr}
    (h : List.Forall₂ (RelatedBy R) index index') :
    RelatedBy R (.var id name index) (.var id name index') :=
  relates_iff.mpr fun run hrun =>
    Repeats.var .any (Comparison.mayRecord run _ id) (fun _ => trivial) (coupled h hrun)

/-- Two steps with the same name and related keys. -/
structure OfStep (R : Comparison) (s s' : Step Expr) : Prop where
  name_eq : s.name = s'.name
  keys : List.Forall₂ (RelatedBy R) s.keys s'.keys

variable {good : Value → Prop}

/-- In one run a path repeats itself if its steps look up the same and their keys are related. -/
theorem repeats_path {reads : Nat → String → Prop} {id : Nat} {steps steps' : List (Step Expr)}
    {text : String} {run : Run} (hrun : R.runs run) (hd : DataGraph good)
    (hsite : R.SameSite good reads ⟨id, text, fun _ => steps.map Step.text⟩
      ⟨id, text, fun _ => steps'.map Step.text⟩)
    (hsteps : List.Forall₂ ((R.coupling run).OfStep fun _ => True) steps steps')
    (hnames : ∀ j s, steps[j]? = some s → reads j s.name)
    (hroot : ∀ run root, R.runs run → run.scope.context = some root → good root) :
    (R.coupling run).Repeats (fun _ => True) (.path id steps text) (.path id steps' text) :=
  Repeats.path (fun _ => trivial) (Comparison.mayRecord run _ id) .any
    (.of_graph hd (Comparison.not_validates run)) (hsite.coupled hrun) hsteps hnames
    (fun root => hroot run root hrun) (fun _ => trivial) fun _ _ _ => trivial

/-- Two paths with the same text are related if they look up the same and their keys are related. -/
theorem path {reads : Nat → String → Prop} {id : Nat} {steps steps' : List (Step Expr)}
    {text : String} (hd : DataGraph good)
    (hsite : R.SameSite good reads ⟨id, text, fun _ => steps.map Step.text⟩
      ⟨id, text, fun _ => steps'.map Step.text⟩)
    (hsteps : List.Forall₂ (OfStep R) steps steps')
    (hnames : ∀ j s, steps[j]? = some s → reads j s.name)
    (hroot : ∀ run root, R.runs run → run.scope.context = some root → good root) :
    RelatedBy R (.path id steps text) (.path id steps' text) := by
  refine relates_iff.mpr fun run hrun => repeats_path hrun hd hsite ?_ hnames hroot
  refine hsteps.imp fun s s' hs => ⟨hs.name_eq, coupled hs.keys hrun, fun hvalidates => ?_⟩
  exact absurd hvalidates (Comparison.not_validates run)

/-- An expression is related to itself if its paths are. -/
theorem refl {reads : Nat → Nat → String → Prop} (hd : DataGraph good)
    (hsite : ∀ id text labels, R.SameSite good (reads id) ⟨id, text, labels⟩ ⟨id, text, labels⟩)
    (hroot : ∀ run root, R.runs run → run.scope.context = some root → good root) (e : Expr)
    (hnames : ∀ id steps text, .path id steps text ∈ e.nodes →
      ∀ j s, steps[j]? = some s → reads id j s.name) : RelatedBy R e e := by
  refine relates_iff.mpr fun run hrun => Repeats.of_nodes .any e fun node hmem => ?_
  cases node with
  | call id f args =>
    intro hargs
    refine Repeats.call .any (Comparison.mayRecord run _ id)
      (.plan_self rfl ⟨R.host_eq, R.setHost⟩ (fun _ => False.elim) ?_ _)
    exact Repeats.arguments (List.forall₂_same.mpr hargs)
  | var id name index => exact ⟨Comparison.mayRecord run _ id, fun _ => trivial⟩
  | path id steps text =>
    intro hkeys
    refine repeats_path hrun hd (hsite id text _) (List.forall₂_same.mpr fun s hs => ?_)
      (hnames id steps text hmem) hroot
    exact ⟨rfl, List.forall₂_same.mpr (hkeys s hs), fun hvalidates =>
      absurd hvalidates (Comparison.not_validates run)⟩
  | _ => trivial

end RelatedBy

end Expr

end Formula
