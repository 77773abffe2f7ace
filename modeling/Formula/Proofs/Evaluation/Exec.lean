import Formula.Evaluation.Evaluate

/-!
# Running computations

What `Eval.exec` gives for the computations that an evaluation is put together from.
-/

namespace Formula

/-! ## Polls -/

/-- Whether a run is to stop, which it asks for by its token, and the state after it asked. -/
def Run.poll (run : Run) (s : EvalState) : Bool × EvalState :=
  match run.token with
  | none => (false, s)
  | some token => ((s.host.poll token).1, { s with host := (s.host.poll token).2 })

namespace Run

variable (run : Run) (s : EvalState)

theorem poll_of_token_none {run : Run} (h : run.token = none) : run.poll s = (false, s) := by
  rw [poll, h]

theorem memo_poll : (run.poll s).2.memo = s.memo := by
  unfold poll
  split <;> rfl

theorem recorded_poll : (run.poll s).2.recorded = s.recorded := by
  unfold poll
  split <;> rfl

/-- Runs with the same token and the same world of the host are told the same. -/
theorem poll_congr {run run' : Run} {s t : EvalState} (htoken : run'.token = run.token)
    (hhost : s.host = t.host) :
    (run'.poll t).1 = (run.poll s).1 ∧ (run.poll s).2.host = (run'.poll t).2.host := by
  unfold poll
  rw [htoken]
  cases run.token with
  | none => exact ⟨rfl, hhost⟩
  | some token =>
    dsimp only
    rw [hhost]
    exact ⟨rfl, rfl⟩

end Run

theorem Host.poll_of_isCancelled {h : Host} {token : Nat}
    (hcancelled : h.isCancelled token = true) : h.poll token = (true, h) := by
  rw [poll, if_pos hcancelled]

/-- A poll that stops leaves a cancelled token. -/
theorem Host.isCancelled_of_stop {h : Host} {token : Nat} (hstop : (h.poll token).1 = true) :
    (h.poll token).2.isCancelled token = true := by
  unfold poll at hstop ⊢
  by_cases hcancelled : h.isCancelled token = true
  · rw [if_pos hcancelled]
    exact hcancelled
  · rw [if_neg hcancelled] at hstop ⊢
    match hdue : h.due with
    | none => rw [hdue] at hstop; cases hstop
    | some 0 => simp [isCancelled, cancel]
    | some (n + 1) => rw [hdue] at hstop; cases hstop

namespace Run

/-- The state after some polls. -/
def polled (run : Run) : Nat → EvalState → EvalState
  | 0, s => s
  | k + 1, s => (run.poll (run.polled k s)).2

variable {run : Run} {s : EvalState}

/-- A run that is to stop is to stop ever after. -/
theorem poll_of_stop (hstop : (run.poll s).1 = true) :
    run.poll (run.poll s).2 = (true, (run.poll s).2) := by
  unfold poll at hstop ⊢
  cases htoken : run.token with
  | none => rw [htoken] at hstop; cases hstop
  | some token =>
    rw [htoken] at hstop
    dsimp only
    rw [Host.poll_of_isCancelled (Host.isCancelled_of_stop hstop)]

/-- The first of some polls may be taken apart from the others. -/
theorem polled_succ (k : Nat) : run.polled (k + 1) s = run.polled k (run.poll s).2 := by
  induction k with
  | zero => rfl
  | succ k ih => rw [polled, ih, polled]

/-- Where nothing is due from outside, polls change nothing. -/
theorem polled_eq (hdue : run.token = none ∨ s.host.due = none) (k : Nat) :
    run.polled k s = s := by
  have hpoll : (run.poll s).2 = s := by
    rcases hdue with htoken | hdue
    · rw [poll_of_token_none s htoken]
    · unfold poll
      split
      · rfl
      · unfold Host.poll
        rw [hdue]
        split <;> rfl
  induction k with
  | zero => rfl
  | succ k ih => rw [polled, ih, hpoll]

/-- What stops a run after some polls stopped it before them, or came from outside. -/
theorem stop_or_isDue {k : Nat} (hstop : (run.poll (run.polled k s)).1 = true) :
    (run.poll s).1 = true ∨ run.token ≠ none ∧ s.host.due ≠ none := by
  by_cases hdue : run.token = none ∨ s.host.due = none
  · rw [polled_eq hdue] at hstop
    exact .inl hstop
  · exact .inr (not_or.mp hdue)

/-- Polling leaves the handles that were remembered as they are. -/
theorem memo_polled (k : Nat) : (run.polled k s).memo = s.memo := by
  induction k with
  | zero => rfl
  | succ k ih => rw [polled, memo_poll, ih]

end Run

/-! ## Computations -/

namespace Eval

variable {α β : Type} (run : Run) (s : EvalState)

@[simp] theorem exec_pure (a : α) : (pure a : Eval α).exec run s = (.ok a, s) := rfl

@[simp] theorem exec_throw (e : CalcError) : (throw e : Eval α).exec run s = (.error e, s) := rfl

@[simp] theorem exec_read : (read : Eval Run).exec run s = (.ok run, s) := rfl

@[simp] theorem exec_get : (get : Eval EvalState).exec run s = (.ok s, s) := rfl

@[simp] theorem exec_modify (f : EvalState → EvalState) :
    (modify f : Eval Unit).exec run s = (.ok (), f s) := rfl

@[simp] theorem exec_ofOutcome (r : Outcome α) : (ofOutcome r).exec run s = (r, s) := by
  cases r <;> rfl

/-- A computation goes on with the value of another from the state that this left; an error ends
it. -/
theorem exec_bind (x : Eval α) (f : α → Eval β) :
    (x >>= f).exec run s =
      match x.exec run s with
      | (.ok a, t) => (f a).exec run t
      | (.error e, t) => (.error e, t) := by
  show (ExceptT.bindCont (fun a => f a run) (x run s).1) (x run s).2 = _
  unfold exec
  rcases x run s with ⟨_ | _, _⟩ <;> rfl

theorem exec_map (f : α → β) (x : Eval α) :
    (f <$> x).exec run s = ((x.exec run s).1.map f, (x.exec run s).2) := by
  rw [map_eq_pure_bind, exec_bind]
  rcases x.exec run s with ⟨_ | _, _⟩ <;> rfl

/-- An error is handled in the state in which it was raised. -/
theorem exec_tryCatch (x : Eval α) (h : CalcError → Eval α) :
    (tryCatch x h).exec run s =
      match x.exec run s with
      | (.ok a, t) => (.ok a, t)
      | (.error e, t) => (h e).exec run t := by
  show (ExceptT.tryCatch (x run) fun e => h e run) s = _
  unfold exec ExceptT.tryCatch
  simp only [ExceptT.mk, bind, StateT.bind]
  rcases x run s with ⟨_ | _, _⟩ <;> rfl

/-- A poll ends a run that is to stop, and otherwise does nothing but let the world pass. -/
theorem exec_poll :
    poll.exec run s = (if (run.poll s).1 then .error .cancelled else .ok (), (run.poll s).2) := by
  unfold poll Run.poll
  rw [exec_bind, exec_read]
  dsimp only
  cases run.token with
  | none => rfl
  | some token =>
    simp only [exec_bind, exec_get, exec_modify]
    split <;> rfl

/-- A computation that stops for no token when there is none. -/
theorem exec_poll_of_token_none {run : Run} (h : run.token = none) :
    poll.exec run s = (.ok (), s) := by
  rw [exec_poll, Run.poll_of_token_none s h]
  rfl

/-- Values are recorded in front of those before them, in a run that is traced. -/
theorem exec_record (id : Nat) (v : Value) :
    (record id v).exec run s =
      (.ok (), if run.traced then { s with recorded := (id, v) :: s.recorded } else s) := by
  unfold record
  rw [exec_bind, exec_read]
  cases h : run.traced <;> simp [h]

/-- What a node does around the computation of its value: it polls before, and records the value
behind it. -/
theorem exec_recorded (id : Nat) (x : Eval Value) :
    (do
      poll
      let v ← x
      record id v
      return v : Eval Value).exec run s =
        match (poll >>= fun _ => x).exec run s with
        | (.ok v, t) =>
          (.ok v, if run.traced then { t with recorded := (id, v) :: t.recorded } else t)
        | (.error e, t) => (.error e, t) := by
  simp only [exec_bind, exec_record, exec_pure]
  rcases poll.exec run s with ⟨_ | _, t⟩
  · rfl
  · dsimp only
    rcases x.exec run t with ⟨_ | _, _⟩ <;> rfl

/-- What a node gives is the value between its poll and its record. -/
theorem outcome_recorded (id : Nat) (x : Eval Value) :
    ((do
      poll
      let v ← x
      record id v
      return v : Eval Value).exec run s).1 = ((poll >>= fun _ => x).exec run s).1 := by
  rw [exec_recorded]
  rcases (poll >>= fun _ => x).exec run s with ⟨_ | _, _⟩ <;> rfl

/-- A computation that a poll stands before, which stops it or not. -/
theorem exec_polled (x : Eval α) : (poll >>= fun _ => x).exec run s =
    if (run.poll s).1 then (.error .cancelled, (run.poll s).2)
    else x.exec run (run.poll s).2 := by
  rw [exec_bind, exec_poll]
  cases (run.poll s).1 <;> rfl

theorem outcome_polled (x : Eval α) : ((poll >>= fun _ => x).exec run s).1 =
    if (run.poll s).1 then .error .cancelled else (x.exec run (run.poll s).2).1 := by
  rw [exec_polled]
  split <;> rfl

/-- Computations for the elements of a list, one after another. -/
theorem exec_mapM_cons (f : α → Eval β) (a : α) (l : List α) : ((a :: l).mapM f).exec run s =
    match (f a).exec run s with
    | (.ok b, t) => (((l.mapM f).exec run t).1.map (b :: ·), ((l.mapM f).exec run t).2)
    | (.error e, t) => (.error e, t) := by
  rw [List.mapM_cons, exec_bind]
  rcases (f a).exec run s with ⟨e | b, t⟩
  · rfl
  · dsimp only
    rw [← exec_map, map_eq_pure_bind]

/-- Where a computation has a result, all that it is put together from has one. -/
theorem exec_bind_ok {run : Run} {s u : EvalState} {x : Eval α} {f : α → Eval β} {b : β}
    (h : (x >>= f).exec run s = (.ok b, u)) :
    ∃ a t, x.exec run s = (.ok a, t) ∧ (f a).exec run t = (.ok b, u) := by
  rw [exec_bind] at h
  rcases hx : x.exec run s with ⟨e | a, t⟩
  · rw [hx] at h
    cases h
  · rw [hx] at h
    exact ⟨a, t, rfl, h⟩

/-- Computations for the elements of a list have one value for each. -/
theorem length_of_exec_mapM {f : α → Eval β} {l : List α} {bs : List β} {run : Run}
    {s t : EvalState} (h : (l.mapM f).exec run s = (.ok bs, t)) : bs.length = l.length := by
  induction l generalizing s bs with
  | nil =>
    cases h
    rfl
  | cons a l ih =>
    rw [List.mapM_cons] at h
    obtain ⟨b, u, -, hrest⟩ := exec_bind_ok h
    obtain ⟨bs', u', hbs, hcons⟩ := exec_bind_ok hrest
    cases hcons
    exact congrArg (· + 1) (ih hbs)

end Eval

/-- The state after a node had an outcome: a value is recorded if the evaluation is traced. -/
def Run.afterNode (run : Run) (id : Nat) : Outcome Value → EvalState → EvalState
  | .ok v, s => if run.traced then { s with recorded := (id, v) :: s.recorded } else s
  | .error _, s => s

/-- Every node polls before it does anything else. -/
theorem Expr.exists_poll_bind (e : Expr) :
    ∃ rest : Unit → Eval Value, e.evaluate = (Eval.poll >>= rest) := by
  cases e with
  | binary op l r => cases op <;> exact ⟨_, rfl⟩
  | _ => exact ⟨_, rfl⟩

/-- So a run that is to stop stops at any node. -/
theorem Expr.exec_of_stop (e : Expr) {run : Run} {s : EvalState} (hstop : (run.poll s).1 = true) :
    e.evaluate.exec run s = (.error .cancelled, (run.poll s).2) := by
  obtain ⟨rest, hrest⟩ := e.exists_poll_bind
  rw [hrest, Eval.exec_bind, Eval.exec_poll, hstop]
  rfl

/-- A node that is polled before does what it does after the poll: if it was to stop, it is to stop
again. -/
theorem Expr.exec_poll_bind_evaluate {α : Type} {run : Run} {s : EvalState} (e : Expr)
    (f : Value → Eval α) :
    (Eval.poll >>= fun _ => e.evaluate >>= f).exec run s =
      (e.evaluate >>= f).exec run (run.poll s).2 := by
  rw [Eval.exec_bind, Eval.exec_poll]
  cases hstop : (run.poll s).1 with
  | false => rfl
  | true =>
    have hagain := Run.poll_of_stop hstop
    rw [Eval.exec_bind, e.exec_of_stop (congrArg Prod.fst hagain), hagain]
    rfl

/-! ## Catching errors of paths -/

/-- The kind of problem of a path that an error tells of, if it is the error of a path. -/
def CalcError.bindingKind? : CalcError → Option BindingKind
  | .binding e => some e.kind
  | _ => none

theorem CalcError.bindingKind?_congr {e e' : CalcError} (h : e = e') :
    e.bindingKind? = e'.bindingKind? := congrArg bindingKind? h

/-- Goes on with an absent value after problems of a path of some kinds. -/
def Eval.tolerating (x : Eval Value) (tolerates : BindingKind → Bool) : Eval Value :=
  tryCatch x fun e => if e.bindingKind?.any tolerates then pure .empty else throw e

/-- Taking an absent value in place of a path that cannot be resolved is to put up with all
problems. -/
theorem Eval.orEmpty_eq (x : Eval Value) : x.orEmpty = x.tolerating fun _ => true := by
  unfold orEmpty tolerating
  congr
  funext e
  cases e <;> rfl

/-- A path is a walk from the data context whose problems are put up with where the mode says so. -/
theorem PathSite.resolve_eq (p : PathSite) (steps : List (Step (Eval Value))) :
    p.resolve steps = (do
      let run ← read
      Eval.tolerating
        (match run.scope.context with
          | some root => p.walk 0 root steps
          | none => p.fail 0 .noDataContext)
        (isTolerated run.mode)) := by
  unfold resolve Eval.tolerating
  congr
  funext run
  congr
  funext e
  cases e <;> rfl

end Formula
