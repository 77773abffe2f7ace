import Formula.Proofs.Engine.Modes
import Formula.Proofs.Evaluation.Afresh

/-!
# Cancelling is all or nothing

An evaluation whose token is cancelled at some point, from outside or by a function that it calls,
either ends with `CalcError.cancelled`, or gives just what it gives when it cannot be cancelled
(`cancelled_or_undisturbed`).  What catches errors, `ValueOr` and the modes that put up with
problems of paths, catches problems of paths only, and so a stop gets through all of it.
-/

namespace Formula

/-! ## Plans that only cancel and poll -/

/-- A plan that does nothing with the world of the host but poll and cancel the tokens in `cancels`,
and does not stop but by polling. -/
inductive Plan.Interruptible {α : Type} (cancels : Nat → Prop) : Plan α → Prop
  | done (a : α) : Interruptible cancels (.done a)
  | fail {error : CalcError} (h : error ≠ .cancelled) : Interruptible cancels (.fail error)
  | argument (i : Nat) {next : Value → Plan α} (h : ∀ v, Interruptible cancels (next v)) :
    Interruptible cancels (.argument i next)
  | argumentOrEmpty (i : Nat) {next : Value → Plan α} (h : ∀ v, Interruptible cancels (next v)) :
    Interruptible cancels (.argumentOrEmpty i next)
  | poll {next : Unit → Plan α} (h : ∀ u, Interruptible cancels (next u)) :
    Interruptible cancels (.poll next)
  | askMode {next : Mode → Plan α} (h : ∀ mode, Interruptible cancels (next mode)) :
    Interruptible cancels (.askMode next)
  | askScope {next : Scope → Plan α} (h : ∀ scope, Interruptible cancels (next scope)) :
    Interruptible cancels (.askScope next)
  | source (i : Nat) {next : Option String → Plan α} (h : ∀ s, Interruptible cancels (next s)) :
    Interruptible cancels (.source i next)
  | cancel {token : Nat} {next : Unit → Plan α} (htoken : cancels token)
    (h : ∀ u, Interruptible cancels (next u)) : Interruptible cancels (.cancel token next)

theorem CalcError.ne_cancelled_of_isOperational {e : CalcError} (h : e.isOperational = true) :
    e ≠ .cancelled := by
  rintro rfl
  cases h

/-- A plan that is confined to its arguments only asks and polls, so it can be stopped by polling
only. -/
theorem Plan.Confined.interruptible {α : Type} {asks : Nat → Prop} {sees recovers : Prop}
    {p : Plan α} (h : Plan.Confined asks sees recovers p) (cancels : Nat → Prop) :
    p.Interruptible cancels := by
  induction h with
  | done a => exact .done a
  | fail he => exact .fail (CalcError.ne_cancelled_of_isOperational he)
  | argument _ _ ih => exact .argument _ ih
  | argumentOrEmpty _ _ _ ih => exact .argumentOrEmpty _ ih
  | poll _ ih => exact .poll ih
  | askScope _ _ ih => exact .askScope ih

/-- Whether the functions that an expression calls only cancel the tokens in `cancels` and poll,
like the built-in functions, which cancel none. -/
def Expr.InterruptibleBy (cancels : Nat → Prop) (e : Expr) : Prop :=
  ∀ id f args, .call id f args ∈ e.nodes →
    ∀ count, (f.implementation.plan count).Interruptible cancels

/-- Built-in functions cancel nothing, so an expression that calls no others is stopped by polling
only. -/
theorem Expr.CallsOnlyBuiltins.interruptibleBy {e : Expr} (h : e.CallsOnlyBuiltins)
    (cancels : Nat → Prop) : e.InterruptibleBy cancels := by
  intro id f args hmem count
  obtain ⟨b, rfl⟩ := h id f args hmem
  exact (Plan.Confined.ofBuiltin b count).interruptible cancels

/-! ## Two runs of which one can be stopped -/

namespace Coupling

variable {C : Coupling} {cancels : Nat → Prop}

/-- What goes wrong in a run is a stop only if the run has a token. -/
abbrev Stopped (C : Coupling) (e : CalcError) : Prop := e = .cancelled → C.first.token ≠ none

theorem admits_stopped : C.Admits C.Stopped where
  operational _ h hcancelled := absurd hcancelled (CalcError.ne_cancelled_of_isOperational h)
  cancelled h _ := h

/-- What is asked of a coupling so that expressions repeat themselves in it whose functions only
cancel the tokens in `cancels` and poll. -/
structure Interrupts (C : Coupling) (cancels : Nat → Prop) : Prop where
  mode_eq : C.second.mode = C.first.mode
  alone : ∀ b, ¬C.alone (.binding b)
  memo : SharesMemo C.states
  records : ∀ id v, C.records id id v
  cancel : ∀ {s t token}, cancels token → C.states s t →
    C.states { s with host := s.host.cancel token } { t with host := t.host.cancel token }

namespace Follows

variable {α : Type} {args : List Argument}

/-- A plan that only cancels and polls does the same in both runs, by induction on the plan; the
first may be stopped. -/
theorem interruptible (h : C.Interrupts cancels) {p : Plan α} (hp : p.Interruptible cancels)
    (hargs : C.SameArguments C.Stopped args args) :
    C.Follows C.Stopped (p.run args) (p.run args) fun _ => True := by
  have hget : ∀ i, C.Follows C.Stopped (Argument.get args i) (Argument.get args i) fun _ => True :=
    fun i => get hargs fun _ => nofun
  induction hp with
  | done a => exact pure trivial
  | fail he => exact throw_self fun hcancelled => absurd hcancelled he
  | argument i _ ih => exact (hget i).bind fun v _ => ih v
  | argumentOrEmpty i _ ih => exact (orEmpty h.alone (hget i)).bind fun v _ => ih v
  | poll _ ih => exact (poll fun hnone _ => hnone).bind fun u _ => ih u
  | askMode _ ih =>
    refine read ?_
    rw [h.mode_eq]
    exact ih _
  | askScope _ ih =>
    refine read ?_
    rw [C.scope_eq]
    exact ih _
  | source i _ ih => exact ih _
  | cancel htoken _ ih =>
    exact (changed fun s t hst => h.cancel htoken hst).bind fun u _ => ih u

end Follows

/-- An expression repeats itself node by node if its functions only cancel and poll. -/
theorem Repeats.interruptible (h : C.Interrupts cancels) {e : Expr}
    (he : e.InterruptibleBy cancels) : C.Repeats C.Stopped e e := by
  refine .of_nodes admits_stopped e fun node hmem => ?_
  have hvalidates : ¬C.Validates := not_validates h.mode_eq
  cases node with
  | call id f args =>
    intro hargs
    exact .call admits_stopped (fun _ _ _ v _ _ => h.records id v)
      (.interruptible h (he id f args hmem args.length)
        (Repeats.arguments (List.forall₂_same.mpr hargs)))
  | var id => exact ⟨fun _ _ _ v _ _ => h.records id v, fun _ => nofun⟩
  | path id steps text =>
    exact .path (fun _ _ _ v _ _ => h.records id v) admits_stopped (.of_graph .all hvalidates)
      (h.memo.handles id) (fun _ _ _ _ _ => trivial) (fun _ _ => trivial)
      (fun h => absurd h hvalidates) fun _ _ _ => nofun
  | _ => trivial

end Coupling

/-- What holds of the world of the host as long as polls of a token do not stop.  If polls never
stop, `stops` is false. -/
structure Host.Intact (token : Nat) (intact : Host → Prop) (stops : Prop) : Prop where
  stop : ∀ {h : Host}, intact h → (h.poll token).1 = true → stops
  go : ∀ {h : Host}, intact h → (h.poll token).1 = false → intact (h.poll token).2

namespace Host.Intact

variable (token : Nat)

/-- In any world polls may stop. -/
theorem any : Intact token (fun _ => True) True := ⟨fun _ _ => trivial, fun _ _ => trivial⟩

/-- As long as polls do not stop, the token is not cancelled. -/
theorem notCancelled : Intact token (fun h => h.isCancelled token = false) True where
  stop _ _ := trivial
  go {h} hintact hgo := by
    rw [poll_of_go hintact (h.go_of_poll hgo).2]
    exact hintact

/-- Polls never stop if the token is not cancelled and nothing is due. -/
theorem never : Intact token (fun h => h.isCancelled token = false ∧ h.due = none) False where
  stop {h} hintact hstop := by
    rw [poll_of_go hintact.1 (by rw [hintact.2]; exact nofun)] at hstop
    cases hstop
  go {h} hintact hgo := by
    rw [poll_of_go hintact.1 (h.go_of_poll hgo).2]
    exact ⟨hintact.1, by rw [hintact.2]; rfl⟩

end Host.Intact

theorem Host.isCancelled_cancel_of_ne (h : Host) {token token' : Nat} (hne : token ≠ token') :
    (h.cancel token').isCancelled token = h.isCancelled token := by
  rw [isCancelled, cancel, List.contains_cons, beq_false_of_ne hne, Bool.false_or, isCancelled]

/-- A run with no other token than one coupled with a run without, which cannot be stopped.  Only a
stop stands alone. -/
def Coupling.undisturbed (run : Run) {token : Nat} {intact : Host → Prop} {stops : Prop}
    (htoken : run.token = none ∨ run.token = some token)
    (hintact : Host.Intact token intact stops) : Coupling where
  first := run
  second := { run with token := none }
  states s t := s.memo = t.memo ∧ intact s.host
  errors := Eq
  alone e := e = .cancelled ∧ stops
  errors_refl _ := rfl
  bindingKind?_eq := CalcError.bindingKind?_congr
  scope_eq := rfl
  mode := .inl rfl
  strict h := nomatch h.1
  poll {s t} h := by
    rw [Run.poll_of_token_none t rfl]
    rcases htoken with htoken | htoken
    · rw [Run.poll_of_token_none s htoken]
      exact .inr ⟨rfl, h⟩
    · have hpoll : run.poll s =
          ((s.host.poll token).1, { s with host := (s.host.poll token).2 }) := by
        rw [Run.poll, htoken]
      rw [hpoll]
      cases hstop : (s.host.poll token).1 with
      | true => exact .inl ⟨rfl, rfl, hintact.stop h.2 hstop⟩
      | false => exact .inr ⟨rfl, h.1, hintact.go h.2 hstop⟩
  records _ _ _ := True
  record _ h := by
    split <;> exact h

/-- A run without a token does what one with a token does until that is stopped, as long as nothing
cancels the token in a world that is intact. -/
theorem Coupling.interrupts_undisturbed {run : Run} {token : Nat} {intact : Host → Prop}
    {stops : Prop} (htoken : run.token = none ∨ run.token = some token)
    (hintact : Host.Intact token intact stops) {cancels : Nat → Prop}
    (hcancel : ∀ h token', cancels token' → intact h → intact (h.cancel token')) :
    (Coupling.undisturbed run htoken hintact).Interrupts cancels where
  mode_eq := rfl
  alone _ h := nomatch h.1
  memo := ⟨And.left, fun _ h => ⟨rfl, h.2⟩⟩
  records _ _ := trivial
  cancel htoken h := ⟨h.1, hcancel _ _ htoken h.2⟩

/-- A run either is stopped or ends like one without a token, whatever the world of the host is for
that; then what held of its own world still holds. -/
theorem Expr.exec_undisturbed {cancels : Nat → Prop} {e : Expr} (he : e.InterruptibleBy cancels)
    {run : Run} {token : Nat} {intact : Host → Prop} {stops : Prop}
    (htoken : run.token = none ∨ run.token = some token)
    (hintact : Host.Intact token intact stops)
    (hcancel : ∀ h token', cancels token' → intact h → intact (h.cancel token'))
    {s t : EvalState} (hmemo : s.memo = t.memo) (hs : intact s.host) :
    ((e.evaluate.exec run s).1 = .error .cancelled ∧ stops) ∨
      (e.evaluate.exec run s).1 = (e.evaluate.exec { run with token := none } t).1 ∧
        intact (e.evaluate.exec run s).2.host := by
  have hrepeats := Coupling.Repeats.interruptible
    (Coupling.interrupts_undisturbed htoken hintact hcancel) he
  rcases @hrepeats s t ⟨hmemo, hs⟩ with
    ⟨v, s', t', hx, hy, -, hst⟩ | ⟨error, s', hx, -, ⟨rfl, hstops⟩ | ⟨_, t', hy, rfl, hst⟩⟩
  · have hx' : e.evaluate.exec run s = (.ok v, s') := hx
    have hy' : e.evaluate.exec { run with token := none } t = (.ok v, t') := hy
    rw [hx', hy']
    exact .inr ⟨rfl, hst.2⟩
  · have hx' : e.evaluate.exec run s = (.error .cancelled, s') := hx
    rw [hx']
    exact .inl ⟨rfl, hstops⟩
  · have hx' : e.evaluate.exec run s = (.error error, s') := hx
    have hy' : e.evaluate.exec { run with token := none } t = (.error error, t') := hy
    rw [hx', hy']
    exact .inr ⟨rfl, hst.2⟩

/-- A run without a token is not stopped. -/
theorem Expr.exec_ne_cancelled {cancels : Nat → Prop} {e : Expr} (he : e.InterruptibleBy cancels)
    {run : Run} (htoken : run.token = none) (s : EvalState) :
    (e.evaluate.exec run s).1 ≠ .error .cancelled := by
  have hinterrupts : (Coupling.same run).Interrupts cancels :=
    ⟨rfl, fun _ => False.elim, Coupling.sharesMemo_same run, fun _ _ => rfl, fun _ h => h ▸ rfl⟩
  intro hcancelled
  have hexec : e.evaluate.exec run s = (.error .cancelled, (e.evaluate.exec run s).2) :=
    Prod.ext hcancelled rfl
  exact Coupling.cause_of_exec (Coupling.Repeats.interruptible hinterrupts he) hexec rfl htoken

/-- Neither of two runs without a token can be stopped, so they give the same in all worlds. -/
theorem Expr.exec_fst_eq {cancels : Nat → Prop} {e : Expr} (he : e.InterruptibleBy cancels)
    {run : Run} (htoken : run.token = none) {s t : EvalState} (hmemo : s.memo = t.memo) :
    (e.evaluate.exec run s).1 = (e.evaluate.exec run t).1 := by
  have huntokened : { run with token := none } = run := by rw [← htoken]
  rcases Expr.exec_undisturbed he (.inl htoken) (.any 0) (fun _ _ _ _ => trivial) hmemo trivial with
    ⟨hstopped, -⟩ | ⟨hsame, -⟩
  · exact absurd hstopped (Expr.exec_ne_cancelled he htoken s)
  · rw [huntokened] at hsame
    exact hsame

/-- If the token is cancelled beforehand, the first poll ends the evaluation. -/
theorem Expr.exec_of_isCancelled (e : Expr) {run : Run} {token : Nat}
    (htoken : run.token = some token) {s : EvalState} (hs : s.host.isCancelled token = true) :
    (e.evaluate.exec run s).1 = .error .cancelled := by
  have hstop : (run.poll s).1 = true := by
    simp only [Run.poll, htoken, Host.poll_of_isCancelled hs]
  rw [e.exec_of_stop hstop]

namespace Engine

/-- Cancelling is all or nothing: an evaluation that carries a token, in any world of the host,
either ends with a stop or gives just what it gives when it carries none, which is no stop and does
not depend on the world.  A token that was cancelled before stops it.  If no function cancels the
token, then the evaluation ends with a stop if it leaves the token cancelled, and does not if
nothing is to cancel it. -/
theorem cancelled_or_undisturbed (e : Engine) (tree : Tree) (cancels : Nat → Prop)
    (h : tree.expr.InterruptibleBy cancels) (mode : Mode) (o : EvaluateOptions) (token : Nat)
    (host : Host) :
    let undisturbed := ((run tree { o with token := none } mode).run e).1.1
    let disturbed := (run tree { o with token := some token } mode).run { e with host }
    undisturbed ≠ .error .cancelled ∧
    ((run tree { o with token := none } mode).run { e with host }).1.1 = undisturbed ∧
    (disturbed.1.1 = .error .cancelled ∨ disturbed.1.1 = undisturbed) ∧
    (host.isCancelled token = true → disturbed.1.1 = .error .cancelled) ∧
    (¬cancels token →
      (disturbed.2.host.isCancelled token = true → disturbed.1.1 = .error .cancelled) ∧
      (host.isCancelled token = false → host.due = none → disturbed.1.1 = undisturbed)) := by
  intro undisturbed disturbed
  have hnever : undisturbed ≠ .error .cancelled := Expr.exec_ne_cancelled h rfl _
  have hends : ∀ {intact : Host → Prop} {stops : Prop}, Host.Intact token intact stops →
      (∀ h token', cancels token' → intact h → intact (h.cancel token')) → intact host →
      (disturbed.1.1 = .error .cancelled ∧ stops) ∨
        disturbed.1.1 = undisturbed ∧ intact disturbed.2.host :=
    fun hintact hcancel hhost => Expr.exec_undisturbed h (.inr rfl) hintact hcancel rfl hhost
  -- Other tokens may be cancelled.
  have hkeeps : ¬cancels token → ∀ (h : Host) token', cancels token' →
      h.isCancelled token = false → (h.cancel token').isCancelled token = false := by
    intro hnot h token' htoken hintact
    have hne : token ≠ token' := fun heq => hnot (heq ▸ htoken)
    rw [h.isCancelled_cancel_of_ne hne]
    exact hintact
  refine ⟨hnever, Expr.exec_fst_eq h rfl rfl, ?_, fun hcancelled => ?_,
    fun hnot => ⟨fun hafter => ?_, fun hbefore hdue => ?_⟩⟩
  · exact (hends (.any token) (fun _ _ _ _ => trivial) trivial).imp And.left And.left
  · exact tree.expr.exec_of_isCancelled rfl hcancelled
  · cases hhost : host.isCancelled token with
    | true => exact tree.expr.exec_of_isCancelled rfl hhost
    | false =>
      rcases hends (.notCancelled token) (hkeeps hnot) hhost with ⟨hstopped, -⟩ | ⟨-, hintact⟩
      · exact hstopped
      · rw [hafter] at hintact
        cases hintact
  · rcases hends (.never token)
        (fun h token' htoken hintact => ⟨hkeeps hnot h token' htoken hintact.1, hintact.2⟩)
        ⟨hbefore, hdue⟩ with ⟨-, hstops⟩ | ⟨hsame, -⟩
    · exact hstops.elim
    · exact hsame

/-! ## A function that cancels -/

/-- A function of the host that cancels the evaluations with token `7`. -/
def stopping : FunctionDef :=
  { name := "Stop", arity := ⟨0, some 0⟩
    implementation := .plain fun _ => .cancel 7 fun _ => .done (.boolean true) }

/-- The formula `ValueOr(Stop() && TRUE, FALSE)`. -/
def stoppedChoice : Expr :=
  .call 1 Builtin.valueOr.definition
    [.binary .and (.call 2 stopping []) (.literal (.boolean true)), .literal (.boolean false)]

/-- The formula calls a function of the host that cancels the token `7`, and the built-in
`ValueOr`. -/
theorem interruptibleBy_stoppedChoice : stoppedChoice.InterruptibleBy (· = 7) := by
  intro id f args hmem count
  simp only [stoppedChoice, Expr.nodes, Expr.nodesOfAll, List.mem_cons, List.mem_append,
    List.not_mem_nil, reduceCtorEq, or_false, false_or, Expr.call.injEq] at hmem
  rcases hmem with ⟨-, rfl, -⟩ | ⟨-, rfl, -⟩
  · exact (Plan.Confined.ofBuiltin .valueOr count).interruptible _
  · exact .cancel rfl fun _ => .done _

/-- `ValueOr` does not go on when its first argument is stopped, by a function in it or from
outside. -/
theorem cancelled_or_undisturbed_stoppedChoice : stoppedChoice.InterruptibleBy (· = 7) ∧
    ((run ⟨stoppedChoice, []⟩ {} .strict).run {}).1.1 = .ok (.boolean true) ∧
    ((run ⟨stoppedChoice, []⟩ { token := some 7 } .strict).run {}).1.1 = .error .cancelled ∧
    ((run ⟨stoppedChoice, []⟩ { token := some 8 } .lenient).run { host := { due := some 2 } }).1.1 =
      .error .cancelled := by
  obtain ⟨-, -, -, -, houtside⟩ := cancelled_or_undisturbed {} ⟨stoppedChoice, []⟩ (· = 7)
    interruptibleBy_stoppedChoice .lenient {} 8 { due := some 2 }
  exact ⟨interruptibleBy_stoppedChoice, rfl, rfl, (houtside (by decide)).1 rfl⟩

end Engine

end Formula
