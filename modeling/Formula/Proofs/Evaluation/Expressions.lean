import Formula.Proofs.Evaluation.Paths
import Formula.Proofs.Expr.Nodes
import Formula.Proofs.Function.Builtins

/-!
# Coupled expressions

An expression in the second run repeats one in the first if its parts do (`Coupling.Repeats`).  Of a
call this is said for its plan, and of a path for the site of the path, since there the printed
forms of the parts play a role too.  An expression repeats itself if each of its nodes does
(`Repeats.of_nodes`), and in a run coupled with itself this tells which errors an evaluation can
raise (`cause_of_evaluate`).
-/

namespace Formula.Coupling

variable {C : Coupling} {cause : CalcError → Prop}

/-! ## Calls -/

/-- Arguments of which each follows the one in the same place. -/
abbrev SameArguments (C : Coupling) (cause : CalcError → Prop) (args args' : List Argument) :
    Prop :=
  List.Forall₂ (fun a b => C.Follows cause a.value b.value fun _ => True) args args'

namespace Follows

variable {α : Type} {args args' : List Argument}

/-- The same argument is missing in both runs, or it follows the one in the same place. -/
theorem get {i : Nat} (h : C.SameArguments cause args args')
    (hmissing : args.length ≤ i → cause (.argument (.missing i))) :
    C.Follows cause (Argument.get args i) (Argument.get args' i) fun _ => True := by
  obtain ⟨hlength, hvalues⟩ := List.forall₂_iff_get.mp h
  unfold Argument.get
  rcases Nat.lt_or_ge i args.length with hi | hi
  · have hi' : i < args'.length := hlength ▸ hi
    rw [List.getElem?_eq_getElem hi, List.getElem?_eq_getElem hi']
    exact hvalues i hi hi'
  · rw [List.getElem?_eq_none hi, List.getElem?_eq_none (hlength ▸ hi)]
    exact throw_self (hmissing hi)

/-- A confined plan does the same with arguments that do.  It goes on without an argument only where
the error of a path never stands alone. -/
theorem plan {asks : Nat → Prop} {sees recovers : Prop} {p : Plan α}
    (hp : Plan.Confined asks sees recovers p) (ha : C.Admits cause)
    (hrecovers : recovers → ∀ b, ¬C.alone (.binding b))
    (hmissing : ∀ i, asks i → args.length ≤ i → cause (.argument (.missing i)))
    (hargs : C.SameArguments cause args args') :
    C.Follows cause (p.run args) (p.run args') fun _ => True := by
  induction hp with
  | done a => exact pure trivial
  | fail he => exact throw_self (ha.operational _ he)
  | argument hi _ ih => exact (get hargs (hmissing _ hi)).bind fun v _ => ih v
  | argumentOrEmpty hr hi _ ih =>
    exact (orEmpty (hrecovers hr) (get hargs (hmissing _ hi))).bind fun v _ => ih v
  | poll _ ih => exact (poll ha.cancelled).bind fun u _ => ih u
  | askScope _ _ ih =>
    refine read ?_
    rw [C.scope_eq]
    exact ih _

/-- A plan does the same with arguments that do and are printed the same in the same mode, if the
errors that it raises of its own accord have a cause. -/
theorem plan_raising (hmode : C.second.mode = C.first.mode) (hcalls : SharesCalls C.states)
    (halone : ∀ b, ¬C.alone (.binding b)) (hcancelled : C.first.token ≠ none → cause .cancelled)
    (hmissing : ∀ i, cause (.argument (.missing i))) (hargs : C.SameArguments cause args args')
    (hsource : ∀ i : Nat, args'[i]?.map (fun a => a.source ()) = args[i]?.map fun a => a.source ())
    {p : Plan α} (hp : p.RaisesOnly cause) :
    C.Follows cause (p.run args) (p.run args') fun _ => True := by
  induction p with
  | done a => exact pure trivial
  | fail e => exact throw_self hp
  | argument i _ ih => exact (get hargs fun _ => hmissing i).bind fun v _ => ih v (hp v)
  | argumentOrEmpty i _ ih =>
    exact (orEmpty halone (get hargs fun _ => hmissing i)).bind fun v _ => ih v (hp v)
  | poll _ ih => exact (poll hcancelled).bind fun u _ => ih u (hp u)
  | askMode _ ih =>
    refine read ?_
    rw [hmode]
    exact ih _ (hp _)
  | askScope _ ih =>
    refine read ?_
    rw [C.scope_eq]
    exact ih _ (hp _)
  | source i _ ih =>
    unfold Plan.run
    rw [hsource i]
    exact ih _ (hp _)
  | cancel token _ ih =>
    exact (changed fun _ _ hst => hcalls.cancel token hst).bind fun u _ => ih u (hp u)
  | tally _ ih =>
    exact (changed fun _ _ hst => hcalls.count hst).bind fun _ _ => withCalls hcalls fun n =>
      ih n (hp n)

/-- Any plan does the same with the same arguments in the same mode, if its errors may have any
cause. -/
theorem plan_self (hmode : C.second.mode = C.first.mode) (hhost : SharesHost C.states)
    (halone : ∀ b, ¬C.alone (.binding b)) (hargs : C.SameArguments (fun _ => True) args args)
    (p : Plan α) : C.Follows (fun _ => True) (p.run args) (p.run args) fun _ => True :=
  plan_raising hmode hhost.sharesCalls halone (fun _ => trivial) (fun _ => trivial) hargs
    (fun _ => rfl) p.raisesOnly_any

end Follows

/-! ## Nodes -/

/-- Whether an expression in the second run does the same as one in the first. -/
abbrev Repeats (C : Coupling) (cause : CalcError → Prop) (e e' : Expr) : Prop :=
  C.Follows cause e.evaluate e'.evaluate fun _ => True

/-- Two steps with keys that do the same. -/
structure OfAlikeStep (C : Coupling) (cause : CalcError → Prop) (s s' : Step Expr) : Prop where
  keys : List.Forall₂ (C.Repeats cause) s.keys s'.keys
  keys_eq_nil : C.Validates → s.keys = []

/-- Two steps with the same name and keys that do the same. -/
structure OfStep (C : Coupling) (cause : CalcError → Prop) (s s' : Step Expr) : Prop where
  name_eq : s.name = s'.name
  keys : List.Forall₂ (C.Repeats cause) s.keys s'.keys
  keys_eq_nil : C.Validates → s.keys = []

/-- Whether every value that the first run finds for a node may be recorded for it, and for a node
in the second run. -/
def MayRecord (C : Coupling) (e : Expr) (id id' : Nat) : Prop :=
  ∀ ⦃s t s' v⦄, C.states s t → e.evaluate.exec C.first s = (.ok v, s') → C.records id id' v

namespace Repeats

/-- What a node does before it has its value and after. -/
theorem recorded {id id' : Nat} {x y : Eval Value}
    (hcancelled : C.first.token ≠ none → cause .cancelled)
    (hrecords : ∀ ⦃s t s' v⦄, C.states s t →
      (do
        Eval.poll
        let v ← x
        Eval.record id v
        return v).exec C.first s = (.ok v, s') → C.records id id' v)
    (h : C.Follows cause x y fun _ => True) :
    C.Follows cause
      (do
        Eval.poll
        let v ← x
        Eval.record id v
        return v)
      (do
        Eval.poll
        let v ← y
        Eval.record id' v
        return v) fun _ => True := by
  have hvalue : C.Follows cause (Eval.poll >>= fun _ => x) (Eval.poll >>= fun _ => y)
      fun _ => True :=
    (Follows.poll hcancelled).bind fun _ _ => h
  intro s t hst
  have hrecord := @hrecords s t
  rw [Eval.exec_recorded] at hrecord ⊢
  rw [Eval.exec_recorded]
  rcases hvalue hst with ⟨v, s', t', hx, hy, -, hst'⟩ | ⟨e, s', hx, he, hy⟩
  · rw [hx] at hrecord ⊢
    rw [hy]
    exact .inl ⟨v, _, _, rfl, rfl, trivial, C.record (hrecord hst rfl) hst'⟩
  · rw [hx]
    refine .inr ⟨e, s', rfl, he, hy.imp_right ?_⟩
    rintro ⟨e', t', hy, herrors, hst'⟩
    rw [hy]
    exact ⟨e', t', rfl, herrors, hst'⟩

variable (ha : C.Admits cause) {e e' l l' r r' : Expr}

section
include ha

theorem literal (v : Value) : C.Repeats cause (.literal v) (.literal v) :=
  (Follows.poll ha.cancelled).bind fun _ _ => .pure trivial

theorem unary {op : UnaryOp} (h : C.Repeats cause e e') :
    C.Repeats cause (.unary op e) (.unary op e') :=
  (Follows.poll ha.cancelled).bind fun _ _ =>
    h.bind fun v _ => .ofOutcome ha (v.operational_applyUnary op)

theorem truth (h : C.Repeats cause e e') :
    C.Follows cause e.evaluate.truth e'.evaluate.truth fun _ => True :=
  h.bind fun v _ => .ofOutcome ha v.operational_asBool

/-- An operator repeats itself with operands that do; the right one of `AND` and `OR` is evaluated
in both runs or in neither, since the left ones have the same truth value. -/
theorem binary {op : BinaryOp} (hl : C.Repeats cause l l') (hr : C.Repeats cause r r') :
    C.Repeats cause (.binary op l r) (.binary op l' r') := by
  -- Operators on truth values may leave out their right operand; the others take both.
  have hstrict : C.Follows cause
      (do
        Eval.poll
        let v ← l.evaluate
        let w ← r.evaluate
        Eval.ofOutcome (v.applyBinary op w))
      (do
        Eval.poll
        let v ← l'.evaluate
        let w ← r'.evaluate
        Eval.ofOutcome (v.applyBinary op w)) fun _ => True :=
    (Follows.poll ha.cancelled).bind fun _ _ => hl.bind fun v _ => hr.bind fun w _ =>
      .ofOutcome ha (v.operational_applyBinary op w)
  have htruth : C.Follows cause (do return Value.boolean (← r.evaluate.truth))
      (do return Value.boolean (← r'.evaluate.truth)) fun _ => True :=
    (truth ha hr).bind fun _ _ => .pure trivial
  cases op with
  | and =>
    refine (Follows.poll ha.cancelled).bind fun _ _ => (truth ha hl).bind fun b _ => ?_
    cases b with
    | true => exact htruth
    | false => exact .pure trivial
  | or =>
    refine (Follows.poll ha.cancelled).bind fun _ _ => (truth ha hl).bind fun b _ => ?_
    cases b with
    | true => exact .pure trivial
    | false => exact htruth
  | arithmetic op => exact hstrict
  | equal => exact hstrict
  | notEqual => exact hstrict
  | order op => exact hstrict

theorem call {id id' : Nat} {f : FunctionDef} {args args' : List Expr}
    (hrecords : C.MayRecord (.call id f args) id id')
    (h : C.Follows cause ((f.implementation.plan args.length).run (Expr.arguments args))
      ((f.implementation.plan args'.length).run (Expr.arguments args')) fun _ => True) :
    C.Repeats cause (.call id f args) (.call id' f args') := recorded ha.cancelled hrecords h

/-- Two variables that have the same value, if any. -/
theorem alikeVar {id id' : Nat} {name name' : String} {index index' : List Expr}
    (hrecords : C.MayRecord (.var id name index) id id')
    (hget : C.first.scope.vars.get? name' = C.first.scope.vars.get? name)
    (herrors : C.errors (.unknownVariable name) (.unknownVariable name'))
    (hunknown : C.first.scope.vars.get? name = none → cause (.unknownVariable name))
    (h : List.Forall₂ (C.Repeats cause) index index') :
    C.Repeats cause (.var id name index) (.var id' name' index') := by
  refine recorded ha.cancelled hrecords (.read ?_)
  rw [C.scope_eq, hget]
  cases hvar : C.first.scope.vars.get? name with
  | none => exact .throw (hunknown hvar) herrors
  | some v =>
    -- An index is looked at only where the variable is an array.
    cases h with
    | nil => cases v <;> exact .pure trivial
    | cons he _ =>
      cases v with
      | array items =>
        refine he.bind fun key _ => (Follows.ofOutcome ha key.operational_asNumber).bind
          fun x _ => ?_
        split <;> exact .pure trivial
      | _ => exact .pure trivial

theorem var {id id' : Nat} {name : String} {index index' : List Expr}
    (hrecords : C.MayRecord (.var id name index) id id')
    (hunknown : C.first.scope.vars.get? name = none → cause (.unknownVariable name))
    (h : List.Forall₂ (C.Repeats cause) index index') :
    C.Repeats cause (.var id name index) (.var id' name index') :=
  alikeVar ha hrecords rfl (C.errors_refl _) hunknown h

end

/-- Expressions that repeat each other serve as the same arguments. -/
theorem arguments {es es' : List Expr} (h : List.Forall₂ (C.Repeats cause) es es') :
    C.SameArguments cause (Expr.arguments es) (Expr.arguments es') := by
  rw [SameArguments, Expr.arguments_eq_map, Expr.arguments_eq_map, List.forall₂_map_left_iff,
    List.forall₂_map_right_iff]
  exact h

/-- A call of a built-in function with arguments that do the same. -/
theorem builtin {id id' : Nat} {b : Builtin} {args args' : List Expr}
    (halone : ∀ e, ¬C.alone (.binding e))
    (hrecords : C.MayRecord (.call id b.definition args) id id')
    (h : List.Forall₂ (C.Repeats fun _ => True) args args') :
    C.Repeats (fun _ => True) (.call id b.definition args) (.call id' b.definition args') := by
  refine call .any hrecords ?_
  rw [← h.length_eq]
  exact .plan (.ofBuiltin b args.length) .any (fun _ => halone) (fun _ _ _ => trivial) (arguments h)

/-- Steps with keys that do the same are steps with keys that follow each other. -/
theorem computations {steps steps' : List (Step Expr)}
    (h : List.Forall₂ (C.OfAlikeStep cause) steps steps') :
    List.Forall₂ (C.AlikeStep cause) (Expr.computations steps) (Expr.computations steps') := by
  rw [Expr.computations_eq_map, Expr.computations_eq_map, List.forall₂_map_left_iff,
    List.forall₂_map_right_iff]
  refine h.imp fun s s' hs => ⟨?_, fun hvalidates => ?_⟩
  · rw [List.forall₂_map_left_iff, List.forall₂_map_right_iff]
    exact hs.keys
  · rw [hs.keys_eq_nil hvalidates, List.map_nil]

/-- A path with steps that are alike and do the same.  What is a cause `inside` of the path is a
cause of the path failing, unless it is a problem that the first run puts up with. -/
theorem alikePath {inside : CalcError → Prop} {good : Value → Prop}
    {reads : Nat → String → String → Prop} {id id' : Nat} {steps steps' : List (Step Expr)}
    {text text' : String} (hcancelled : C.first.token ≠ none → cause .cancelled)
    (hrecords : C.MayRecord (.path id steps text) id id') (ha : C.Admits inside) (hm : C.Meets good)
    (hsite : C.AlikeSite inside good reads ⟨id, text, fun _ => steps.map Step.text⟩
      ⟨id', text', fun _ => steps'.map Step.text⟩)
    (hsteps : List.Forall₂ (C.OfAlikeStep inside) steps steps')
    (hnames : ∀ j s s', steps[j]? = some s → steps'[j]? = some s' → reads j s.name s'.name)
    (hroot : ∀ root, C.first.scope.context = some root → good root)
    (hnone : C.first.scope.context = none →
      inside (.binding ⟨.noDataContext, text, steps.map Step.text, 0⟩))
    (hcause : ∀ e, inside e →
      (∀ b, e = .binding b → PathSite.isTolerated C.first.mode b.kind = false) → cause e) :
    C.Repeats cause (.path id steps text) (.path id' steps' text') := by
  have hnames' : ∀ j s s', (Expr.computations steps)[j]? = some s →
      (Expr.computations steps')[j]? = some s' → reads j s.name s'.name := by
    intro j s s' hs hs'
    rw [Expr.computations_eq_map, List.getElem?_map, Option.map_eq_some_iff] at hs hs'
    obtain ⟨s, hs, rfl⟩ := hs
    obtain ⟨s', hs', rfl⟩ := hs'
    exact hnames j s s' hs hs'
  have hvalue := Follows.resolve ha hm hsite (computations hsteps) hnames' hroot hnone hcause
  exact recorded hcancelled hrecords (hvalue.mono (fun _ he => he) fun _ _ => trivial)

/-- A path with the same steps. -/
theorem path {inside : CalcError → Prop} {good : Value → Prop} {reads : Nat → String → Prop}
    {id id' : Nat} {steps steps' : List (Step Expr)} {text : String}
    (hcancelled : C.first.token ≠ none → cause .cancelled)
    (hrecords : C.MayRecord (.path id steps text) id id') (ha : C.Admits inside) (hm : C.Meets good)
    (hsite : C.SameSite inside good reads ⟨id, text, fun _ => steps.map Step.text⟩
      ⟨id', text, fun _ => steps'.map Step.text⟩)
    (hsteps : List.Forall₂ (C.OfStep inside) steps steps')
    (hnames : ∀ j s, steps[j]? = some s → reads j s.name)
    (hroot : ∀ root, C.first.scope.context = some root → good root)
    (hnone : C.first.scope.context = none →
      inside (.binding ⟨.noDataContext, text, steps.map Step.text, 0⟩))
    (hcause : ∀ e, inside e →
      (∀ b, e = .binding b → PathSite.isTolerated C.first.mode b.kind = false) → cause e) :
    C.Repeats cause (.path id steps text) (.path id' steps' text) := by
  refine alikePath hcancelled hrecords ha hm hsite.alike
    (hsteps.imp fun s s' hs => ⟨hs.keys, hs.keys_eq_nil⟩) (fun j s s' hs hs' => ?_) hroot hnone
    hcause
  refine ⟨?_, hnames j s hs⟩
  obtain ⟨hj, rfl⟩ := List.getElem?_eq_some_iff.mp hs
  obtain ⟨hj', rfl⟩ := List.getElem?_eq_some_iff.mp hs'
  exact (hsteps.get hj hj').name_eq

end Repeats

/-! ## An expression and itself -/

/-- Whether a node does the same in both runs if its parts do. -/
def Keeps (C : Coupling) (cause : CalcError → Prop) : Expr → Prop
  | .call id f args => (∀ e ∈ args, C.Repeats cause e e) →
      C.Repeats cause (.call id f args) (.call id f args)
  | .var id name index => C.MayRecord (.var id name index) id id ∧
      (C.first.scope.vars.get? name = none → cause (.unknownVariable name))
  | .path id steps text => (∀ s ∈ steps, ∀ e ∈ s.keys, C.Repeats cause e e) →
      C.Repeats cause (.path id steps text) (.path id steps text)
  | _ => True

namespace Keeps

/-- A call of a built-in function, which asks for a missing argument only if there is a wrong number
of them. -/
theorem builtin {id : Nat} {b : Builtin} {args : List Expr}
    (hrecords : C.MayRecord (.call id b.definition args) id id) (ha : C.Admits cause)
    (hrecovers : b = .valueOr → ∀ e, ¬C.alone (.binding e))
    (hmissing : b.arity.accepts args.length = false → ∀ i, cause (.argument (.missing i))) :
    C.Keeps cause (.call id b.definition args) := by
  intro hargs
  refine Repeats.call ha hrecords (.plan (Plan.Confined.ofBuiltin b args.length) ha hrecovers ?_
    (Repeats.arguments (List.forall₂_same.mpr hargs)))
  intro i hasks hi
  refine hmissing (Bool.eq_false_iff.mpr fun haccepts => ?_) i
  rw [Expr.arguments_eq_map, List.length_map] at hi
  have := hasks haccepts
  omega

/-- A path, where the same handles are remembered. -/
theorem path {good : Value → Prop} {id : Nat} {steps : List (Step Expr)} {text : String}
    (hrecords : C.MayRecord (.path id steps text) id id) (ha : C.Admits cause) (hm : C.Meets good)
    (hhandles : SharesHandles C.states id id)
    (hmember : ∀ (o : Object Value) handle v, good (.object o) →
      o.contents.member? handle = some v → good v)
    (hroot : ∀ root, C.first.scope.context = some root → good root)
    (hkeys : C.Validates → ∀ s ∈ steps, s.keys = [])
    (hcause : ∀ b : BindingError, PathSite.isTolerated C.first.mode b.kind = false →
      (b.kind = .noDataContext → C.first.scope.context = none) → cause (.binding b)) :
    C.Keeps cause (.path id steps text) := by
  intro hparts
  -- Inside of the path, before it is said which problems are put up with.
  let inside : CalcError → Prop := fun e => cause e ∨
    ∃ b, e = .binding b ∧ (b.kind = .noDataContext → C.first.scope.context = none)
  have hinside : ∀ b : BindingError, b.kind ≠ .noDataContext → inside (.binding b) :=
    fun b hb => .inr ⟨b, rfl, fun hkind => absurd hkind hb⟩
  have hsite : C.SameSite inside good (fun _ _ => True) ⟨id, text, fun _ => steps.map Step.text⟩
      ⟨id, text, fun _ => steps.map Step.text⟩ := by
    refine ⟨fun _ _ => C.errors_refl _, fun _ _ h => hinside _ h, fun i name o _ ho => ?_⟩
    exact .objectMember hhandles (fun _ => C.errors_refl _) (fun _ h => hinside _ h)
      fun handle v => hmember o handle v ho
  have hsteps : List.Forall₂ (C.OfStep inside) steps steps := by
    refine List.forall₂_same.mpr fun s hs => ⟨rfl, ?_, fun hvalidates => hkeys hvalidates s hs⟩
    exact List.forall₂_same.mpr fun e he => (hparts s hs e he).mono (fun _ => .inl) fun _ ha => ha
  refine Repeats.path ha.cancelled hrecords
    ⟨fun e he => .inl (ha.operational e he), fun h => .inl (ha.cancelled h)⟩ hm hsite hsteps
    (fun _ _ _ => trivial) hroot (fun hnone => .inr ⟨_, rfl, fun _ => hnone⟩) ?_
  rintro e (he | ⟨b, rfl, hcontext⟩) huntolerated
  · exact he
  · exact hcause b (huntolerated b rfl) hcontext

end Keeps

/-- An expression does the same in both runs if its nodes do. -/
theorem Repeats.of_nodes (ha : C.Admits cause) (e : Expr)
    (h : ∀ node ∈ e.nodes, C.Keeps cause node) : C.Repeats cause e e := by
  induction e with
  | literal v => exact literal ha v
  | unary op e ih => exact unary ha (ih fun node hmem => h node (Expr.mem_nodes_operand hmem))
  | binary op l r ihl ihr =>
    refine binary ha (ihl fun node hmem => ?_) (ihr fun node hmem => ?_)
    · exact h node (Expr.mem_nodes_left hmem)
    · exact h node (Expr.mem_nodes_right hmem)
  | call id f args ih =>
    have hcall : C.Keeps cause (.call id f args) := h _ List.mem_cons_self
    exact hcall fun e he => ih e he fun node hmem => h node (Expr.mem_nodes_argument he hmem)
  | var id name index ih =>
    have hvar : C.Keeps cause (.var id name index) := h _ List.mem_cons_self
    refine var ha hvar.1 hvar.2 (List.forall₂_same.mpr fun e he => ?_)
    exact ih e he fun node hmem => h node (Expr.mem_nodes_index he hmem)
  | path id steps text ih =>
    have hpath : C.Keeps cause (.path id steps text) := h _ List.mem_cons_self
    refine hpath fun s hs e he => ih s hs e he fun node hmem => ?_
    exact h node (Expr.mem_nodes_key hs he hmem)

/-- Which errors an evaluation can raise that calls built-in functions only. -/
theorem cause_of_evaluate {run : Run} (ha : (same run).Admits cause) {e : Expr}
    (hcalls : ∀ id f args, .call id f args ∈ e.nodes → ∃ b : Builtin, f = b.definition ∧
      (b.arity.accepts args.length = false → ∀ i, cause (.argument (.missing i))))
    (hvars : ∀ id name index, .var id name index ∈ e.nodes → run.scope.vars.get? name = none →
      cause (.unknownVariable name))
    (hpaths : ∀ id steps text, .path id steps text ∈ e.nodes → ∀ b : BindingError,
      PathSite.isTolerated run.mode b.kind = false →
      (b.kind = .noDataContext → run.scope.context = none) → cause (.binding b))
    {s s' : EvalState} {error : CalcError} (hrun : e.evaluate.exec run s = (.error error, s')) :
    cause error := by
  refine cause_of_exec (Repeats.of_nodes ha e fun node hmem => ?_) hrun
  have hvalidates : ¬(same run).Validates := not_validates rfl
  cases node with
  | call id f args =>
    obtain ⟨b, rfl, hmissing⟩ := hcalls id f args hmem
    exact .builtin (fun _ _ _ _ _ _ => rfl) ha (fun _ _ => False.elim) hmissing
  | var id name index => exact ⟨fun _ _ _ _ _ _ => rfl, hvars id name index hmem⟩
  | path id steps text =>
    exact .path (fun _ _ _ _ _ _ => rfl) ha (.of_graph .all hvalidates)
      ((sharesMemo_same run).handles id)
      (fun _ _ _ _ _ => trivial) (fun _ _ => trivial) (fun h => absurd h hvalidates)
      (hpaths id steps text hmem)
  | _ => trivial

end Formula.Coupling
