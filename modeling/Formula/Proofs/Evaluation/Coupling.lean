import Formula.Proofs.Evaluation.Exec
import Formula.Proofs.Value.Operational
import Mathlib.Data.List.Forall2

/-!
# Coupled evaluations

A `Coupling` says of two runs on the same data which of their states match and which of their errors
count as the same.  A computation in the second run follows one in the first when from matching
states it ends alike (`Coupling.Follows`): with the same value, or with an error that counts as the
same.  Some errors of the first run may stand alone; what the second run does then is of no account.
The errors of the first run are said to have a cause, so that a run coupled with itself tells which
errors it can raise.
-/

namespace Formula

/-- Whether states match only with the same world of the host, whatever it is. -/
structure SharesHost (states : EvalState → EvalState → Prop) : Prop where
  host_eq : ∀ {s t}, states s t → s.host = t.host
  setHost : ∀ {s t} host, states s t → states { s with host } { t with host }

/-- Whether functions of the host see and do the same in states that match: as many calls were
counted, and the states still match when another is counted or a token is cancelled. -/
structure SharesCalls (states : EvalState → EvalState → Prop) : Prop where
  calls_eq : ∀ {s t}, states s t → s.host.calls = t.host.calls
  count : ∀ {s t}, states s t →
    states { s with host := { s.host with calls := s.host.calls + 1 } }
      { t with host := { t.host with calls := t.host.calls + 1 } }
  cancel : ∀ {s t} token, states s t →
    states { s with host := s.host.cancel token } { t with host := t.host.cancel token }

/-- Two runs on the same data, and what it means that they do the same. -/
structure Coupling where
  first : Run
  second : Run
  /-- Whether states of the two runs match. -/
  states : EvalState → EvalState → Prop
  /-- Whether errors of the two runs count as the same. -/
  errors : CalcError → CalcError → Prop
  /-- The errors of the first run after which the second may do anything. -/
  alone : CalcError → Prop
  errors_refl : ∀ e, errors e e
  bindingKind?_eq : ∀ {e e'}, errors e e' → e.bindingKind? = e'.bindingKind?
  scope_eq : second.scope = first.scope
  /-- If the modes are different, the first run is strict and all of its errors stand alone. -/
  mode : second.mode = first.mode ∨ first.mode = .strict ∧ ∀ e, alone e
  /-- Problems of paths stand alone only in a strict run, which never puts up with them. -/
  strict : ∀ {b}, alone (.binding b) → first.mode = .strict
  /-- The runs stop together when they poll, or the first stops alone. -/
  poll : ∀ {s t}, states s t → (first.poll s).1 = true ∧ alone .cancelled ∨
    (second.poll t).1 = (first.poll s).1 ∧ states (first.poll s).2 (second.poll t).2
  /-- Whether a value may be recorded for a node in the first run and for one in the second. -/
  records : Nat → Nat → Value → Prop
  record : ∀ {s t id id' v}, records id id' v → states s t →
    states (if first.traced then { s with recorded := (id, v) :: s.recorded } else s)
      (if second.traced then { t with recorded := (id', v) :: t.recorded } else t)

/-- A run that asks from states with the same world of the host whether it is to stop is told the
same. -/
theorem SharesHost.poll {states : EvalState → EvalState → Prop} (h : SharesHost states) (run : Run)
    {s t : EvalState} (hst : states s t) :
    (run.poll t).1 = (run.poll s).1 ∧ states (run.poll s).2 (run.poll t).2 := by
  unfold Run.poll
  cases run.token with
  | none => exact ⟨rfl, hst⟩
  | some token =>
    dsimp only
    rw [h.host_eq hst]
    exact ⟨rfl, h.setHost _ hst⟩

/-- States with the same world of the host show functions of the host the same. -/
theorem SharesHost.sharesCalls {states : EvalState → EvalState → Prop} (h : SharesHost states) :
    SharesCalls states where
  calls_eq hst := congrArg Host.calls (h.host_eq hst)
  count hst := by
    rw [h.host_eq hst]
    exact h.setHost _ hst
  cancel token hst := by
    rw [h.host_eq hst]
    exact h.setHost _ hst

namespace Coupling

/-- A run coupled with itself, from states that need not be the same.  It records the same values
for the same nodes. -/
def ofRun (run : Run) (states : EvalState → EvalState → Prop)
    (errors : CalcError → CalcError → Prop) (errors_refl : ∀ e, errors e e)
    (bindingKind?_eq : ∀ {e e'}, errors e e' → e.bindingKind? = e'.bindingKind?)
    (hhost : SharesHost states)
    (record : ∀ {s t} entry, states s t → states { s with recorded := entry :: s.recorded }
      { t with recorded := entry :: t.recorded }) :
    Coupling where
  first := run
  second := run
  states := states
  errors := errors
  alone _ := False
  errors_refl := errors_refl
  bindingKind?_eq := bindingKind?_eq
  scope_eq := rfl
  mode := .inl rfl
  strict h := h.elim
  poll hst := .inr (hhost.poll run hst)
  records id id' _ := id' = id
  record h hst := by
    rw [h]
    split
    · exact record _ hst
    · exact hst

theorem sharesHost_eq : SharesHost Eq := ⟨congrArg EvalState.host, fun _ h => h ▸ rfl⟩

/-- A run coupled with itself. -/
def same (run : Run) : Coupling :=
  ofRun run Eq Eq Eq.refl CalcError.bindingKind?_congr sharesHost_eq fun _ h => h ▸ rfl

variable {α β : Type} (C : Coupling)

/-- A computation of the second run ends like one of the first: with the same value, one with
`post`, or with errors that count as the same, unless that of the first stands alone.  The error of
the first has a cause. -/
def Follows (cause : CalcError → Prop) (x y : Eval α) (post : α → Prop) : Prop :=
  ∀ ⦃s t : EvalState⦄, C.states s t →
    (∃ a s' t', x.exec C.first s = (.ok a, s') ∧ y.exec C.second t = (.ok a, t') ∧ post a ∧
      C.states s' t') ∨
    (∃ e s', x.exec C.first s = (.error e, s') ∧ cause e ∧
      (C.alone e ∨ ∃ e' t', y.exec C.second t = (.error e', t') ∧ C.errors e e' ∧ C.states s' t'))

/-- Causes that allow for what can go wrong in any computation.  Only a run with a token can be
cancelled. -/
structure Admits (cause : CalcError → Prop) : Prop where
  operational : ∀ e, e.isOperational = true → cause e
  cancelled : C.first.token ≠ none → cause .cancelled

theorem Admits.any {C : Coupling} : C.Admits fun _ => True :=
  ⟨fun _ _ => trivial, fun _ => trivial⟩

namespace Follows

variable {C} {cause cause' : CalcError → Prop} {x y : Eval α} {post post' : α → Prop}

/-! ## Results -/

theorem pure {a : α} (h : post a) : C.Follows cause (Pure.pure a) (Pure.pure a) post :=
  fun s t hst => .inl ⟨a, s, t, rfl, rfl, h, hst⟩

theorem throw {e e' : CalcError} (h : cause e) (he : C.errors e e') :
    C.Follows cause (MonadExcept.throw e) (MonadExcept.throw e') post :=
  fun s t hst => .inr ⟨e, s, rfl, h, .inr ⟨e', t, rfl, he, hst⟩⟩

theorem throw_self {e : CalcError} (h : cause e) :
    C.Follows cause (MonadExcept.throw e) (MonadExcept.throw e) post := throw h (C.errors_refl e)

theorem throw_alone {e : CalcError} (h : cause e) (he : C.alone e) :
    C.Follows cause (MonadExcept.throw e) y post := fun s _ _ => .inr ⟨e, s, rfl, h, .inl he⟩

/-- A result or an operational error, found without evaluating anything, is the same in both
runs. -/
theorem ofOutcome {r : Outcome α} (ha : C.Admits cause) (h : r.Operational) :
    C.Follows cause (Eval.ofOutcome r) (Eval.ofOutcome r) fun _ => True := by
  cases r with
  | ok a => exact pure trivial
  | error e => exact throw_self (ha.operational e (h e rfl))

/-- The causes and what is known of the value may be weakened. -/
theorem mono (h : C.Follows cause x y post) (hcause : ∀ e, cause e → cause' e)
    (hpost : ∀ a, post a → post' a) : C.Follows cause' x y post' := by
  intro s t hst
  rcases h hst with ⟨a, s', t', hx, hy, ha, hst'⟩ | ⟨e, s', hx, he, hy⟩
  · exact .inl ⟨a, s', t', hx, hy, hpost a ha, hst'⟩
  · exact .inr ⟨e, s', hx, hcause e he, hy⟩

/-! ## Putting together -/

/-- Where the first run goes on with a value, the second goes on with the same one from a state that
matches; where it fails, both have ended. -/
theorem bind {f g : α → Eval β} {post' : β → Prop} (h : C.Follows cause x y post)
    (hf : ∀ a, post a → C.Follows cause (f a) (g a) post') :
    C.Follows cause (x >>= f) (y >>= g) post' := by
  intro s t hst
  simp only [Eval.exec_bind]
  rcases h hst with ⟨a, s', t', hx, hy, ha, hst'⟩ | ⟨e, s', hx, he, hy⟩
  · rw [hx, hy]
    exact hf a ha hst'
  · rw [hx]
    refine .inr ⟨e, s', rfl, he, hy.imp_right ?_⟩
    rintro ⟨e', t', hy, herrors, hst'⟩
    rw [hy]
    exact ⟨e', t', rfl, herrors, hst'⟩

/-- Computations one after another follow those in the same places, by induction on the list. -/
theorem mapM {γ δ : Type} {f : γ → Eval α} {g : δ → Eval α} {l : List γ} {l' : List δ}
    (h : List.Forall₂ (fun a b => C.Follows cause (f a) (g b) fun _ => True) l l') :
    C.Follows cause (l.mapM f) (l'.mapM g) fun _ => True := by
  induction h with
  | nil => exact pure trivial
  | cons hab _ ih =>
    rw [List.mapM_cons, List.mapM_cons]
    exact hab.bind fun _ _ => ih.bind fun _ _ => pure trivial

/-- Errors that count as the same are handled alike, and those that stand alone are raised
again. -/
theorem tryCatch {f g : CalcError → Eval α} (h : C.Follows cause x y post)
    (hf : ∀ e e', cause e → C.errors e e' → C.Follows cause' (f e) (g e') post)
    (halone : ∀ e, cause e → C.alone e → f e = MonadExcept.throw e ∧ cause' e) :
    C.Follows cause' (MonadExcept.tryCatch x f) (MonadExcept.tryCatch y g) post := by
  intro s t hst
  simp only [Eval.exec_tryCatch]
  rcases h hst with ⟨a, s', t', hx, hy, ha, hst'⟩ |
    ⟨e, s', hx, hcause, he | ⟨e', t', hy, he, hst'⟩⟩
  · rw [hx, hy]
    exact .inl ⟨a, s', t', rfl, rfl, ha, hst'⟩
  · obtain ⟨hf, hcause'⟩ := halone e hcause he
    rw [hx]
    dsimp only
    rw [hf]
    exact .inr ⟨e, s', rfl, hcause', .inl he⟩
  · rw [hx, hy]
    exact hf e e' hcause he hst'

/-- Problems of a path are tolerated alike, or those of the first run are raised again and stand
alone.  What is a cause of the computation is a cause of what is raised again. -/
theorem tolerating {x y : Eval Value} {post : Value → Prop}
    {tolerates tolerates' : BindingKind → Bool} (h : C.Follows cause x y post)
    (hempty : post .empty)
    (hsame : ∀ kind, tolerates' kind = tolerates kind ∨ tolerates kind = false ∧ ∀ e, C.alone e)
    (halone : ∀ b, C.alone (.binding b) → tolerates b.kind = false)
    (hcause : ∀ e, cause e → (∀ b, e = .binding b → tolerates b.kind = false) → cause' e) :
    C.Follows cause' (x.tolerating tolerates) (y.tolerating tolerates') post := by
  -- What is not tolerated is raised again.
  have hraised : ∀ e : CalcError, e.bindingKind?.any tolerates = false →
      ∀ b, e = .binding b → tolerates b.kind = false := by
    rintro _ he b rfl
    exact he
  refine h.tryCatch (fun e e' he herrors => ?_) fun e he halone' => ?_
  · have hagree : e.bindingKind?.any tolerates' = e.bindingKind?.any tolerates ∨
        e.bindingKind?.any tolerates = false ∧ C.alone e := by
      cases e.bindingKind? with
      | none => exact .inl rfl
      | some kind => exact (hsame kind).imp_right fun h => ⟨h.1, h.2 e⟩
    rw [← C.bindingKind?_eq herrors]
    rcases hagree with hagree | ⟨hany, halone'⟩
    · rw [hagree]
      cases hany : e.bindingKind?.any tolerates with
      | true => exact pure hempty
      | false => exact throw (hcause e he (hraised e hany)) herrors
    · rw [hany]
      exact throw_alone (hcause e he (hraised e hany)) halone'
  · have hany : e.bindingKind?.any tolerates = false := by
      cases e with
      | binding b => exact halone b halone'
      | _ => rfl
    rw [hany]
    exact ⟨rfl, hcause e he (hraised e hany)⟩

theorem orEmpty {x y : Eval Value} (halone : ∀ b, ¬C.alone (.binding b))
    (h : C.Follows cause x y fun _ => True) :
    C.Follows cause x.orEmpty y.orEmpty fun _ => True := by
  rw [Eval.orEmpty_eq, Eval.orEmpty_eq]
  exact h.tolerating trivial (fun _ => .inl rfl) (fun b hb => absurd hb (halone b)) fun _ he _ => he

/-! ## What a run does besides -/

theorem read {f g : Run → Eval α} (h : C.Follows cause (f C.first) (g C.second) post) :
    C.Follows cause (MonadReader.read >>= f) (MonadReader.read >>= g) post := by
  intro s t hst
  rw [Eval.exec_bind, Eval.exec_bind, Eval.exec_read, Eval.exec_read]
  exact h hst

/-- Both runs stop when they poll, or both go on, unless the first is stopped and this may stand
alone. -/
theorem poll (h : C.first.token ≠ none → cause .cancelled) :
    C.Follows cause Eval.poll Eval.poll fun _ => True := by
  intro s t hst
  have hcause : (C.first.poll s).1 = true → cause .cancelled := by
    intro hstop
    refine h fun hnone => ?_
    rw [Run.poll_of_token_none s hnone] at hstop
    cases hstop
  rw [Eval.exec_poll, Eval.exec_poll]
  rcases C.poll hst with ⟨hstop, halone⟩ | ⟨hsame, hst'⟩
  · rw [hstop]
    exact .inr ⟨_, _, rfl, hcause hstop, .inl halone⟩
  · rw [hsame]
    cases hstop : (C.first.poll s).1 with
    | true => exact .inr ⟨_, _, rfl, hcause hstop, .inr ⟨_, _, rfl, C.errors_refl _, hst'⟩⟩
    | false => exact .inl ⟨(), _, _, rfl, rfl, trivial, hst'⟩

/-- A change of the state. -/
theorem changed {f g : EvalState → EvalState} (h : ∀ s t, C.states s t → C.states (f s) (g t)) :
    C.Follows cause (modify f) (modify g) fun _ => True :=
  fun s t hst => .inl ⟨(), f s, g t, rfl, rfl, trivial, h s t hst⟩

/-- Going on with the number of calls that were counted. -/
theorem withCalls (hcalls : SharesCalls C.states) {f g : Nat → Eval α}
    (h : ∀ n, C.Follows cause (f n) (g n) post) :
    C.Follows cause (get >>= fun s => f s.host.calls) (get >>= fun s => g s.host.calls) post := by
  intro s t hst
  have hg : C.Follows cause (f s.host.calls) (g t.host.calls) post :=
    hcalls.calls_eq hst ▸ h s.host.calls
  rw [Eval.exec_bind, Eval.exec_bind]
  exact hg hst

/-! ## What the values of one run tell of the other -/

/-- What has a value in the first run has it in the second. -/
theorem ok_of_first {s t s' : EvalState} {a : α} (h : C.Follows cause x y post)
    (hst : C.states s t) (hx : x.exec C.first s = (.ok a, s')) :
    ∃ t', y.exec C.second t = (.ok a, t') := by
  rcases h hst with ⟨b, s'', t', hb, hy, -⟩ | ⟨e, s'', he, -⟩
  · obtain rfl : b = a := Except.ok.inj (congrArg Prod.fst (hb.symm.trans hx))
    exact ⟨t', hy⟩
  · cases he.symm.trans hx

/-- What has a value in the second run has it in the first, or fails there with an error that stands
alone. -/
theorem ok_of_second {s t t' : EvalState} {a : α} (h : C.Follows cause x y post)
    (hst : C.states s t) (hy : y.exec C.second t = (.ok a, t')) :
    (∃ s', x.exec C.first s = (.ok a, s')) ∨
      ∃ e s', x.exec C.first s = (.error e, s') ∧ C.alone e := by
  rcases h hst with ⟨b, s', t'', hx, hb, -⟩ | ⟨e, s', hx, -, halone | ⟨e', t'', he, -⟩⟩
  · obtain rfl : b = a := Except.ok.inj (congrArg Prod.fst (hb.symm.trans hy))
    exact .inl ⟨s', hx⟩
  · exact .inr ⟨e, s', hx, halone⟩
  · cases he.symm.trans hy

end Follows

/-! ## A run and itself -/

/-- An error of a computation that follows itself has a cause. -/
theorem cause_of_exec {run : Run} {cause : CalcError → Prop} {x : Eval α} {post : α → Prop}
    {s s' : EvalState} {e : CalcError} (h : (same run).Follows cause x x post)
    (hx : x.exec run s = (.error e, s')) : cause e := by
  rcases @h s s rfl with ⟨a, t, -, ha, -⟩ | ⟨e', t, he, hcause, -⟩
  · have hx' : x.exec run s = (.ok a, t) := ha
    rw [hx] at hx'
    cases hx'
  · have hx' : x.exec run s = (.error e', t) := he
    rw [hx] at hx'
    cases hx'
    exact hcause

end Coupling

end Formula
