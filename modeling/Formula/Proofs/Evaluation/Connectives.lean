import Formula.Proofs.Evaluation.Arguments
import Formula.Proofs.Evaluation.Renumbered

/-!
# Connectives

`AND` of some operands and their chain with `&&` do the same, and so do `OR` and `||`: both evaluate
the operands one after another up to the first that decides (`Expr.connectives_agree`).  The chain
only polls more often before, once for each of its operators.
-/

namespace Formula

/-- The operator that a truth value decides: false decides `&&`, and true decides `||`. -/
def BinaryOp.decidedBy : Bool → BinaryOp
  | false => .and
  | true => .or

/-- The function that a truth value decides: false decides `AND`, and true decides `OR`. -/
def Builtin.decidedBy : Bool → Builtin
  | false => .and
  | true => .or

namespace Expr

/-! ## Operands -/

/-- Operands evaluated one after another, from some state, up to the first that reads as `stop` or
fails: how many were evaluated, the truth value or the error that comes of them, and the state
behind them. -/
inductive Decides (stop : Bool) (run : Run) :
    EvalState → List Expr → Nat → Outcome Bool → EvalState → Prop
  | all {s : EvalState} : Decides stop run s [] 0 (.ok !stop) s
  | stop {s t : EvalState} {e : Expr} {es : List Expr} :
      e.evaluate.truth.exec run s = (.ok stop, t) → Decides stop run s (e :: es) 1 (.ok stop) t
  | fail {s t : EvalState} {e : Expr} {es : List Expr} {error : CalcError} :
      e.evaluate.truth.exec run s = (.error error, t) →
      Decides stop run s (e :: es) 1 (.error error) t
  | next {s t u : EvalState} {e : Expr} {es : List Expr} {count : Nat} {r : Outcome Bool} :
      e.evaluate.truth.exec run s = (.ok !stop, t) → Decides stop run t es count r u →
      Decides stop run s (e :: es) (count + 1) r u

variable {stop : Bool} {run : Run} {s t : EvalState} {e l r : Expr} {es : List Expr} {count : Nat}
  {result : Outcome Bool}

/-- Some expressions from the first on decide the truth values, whatever the expressions are. -/
theorem exists_decides (stop : Bool) (run : Run) (s : EvalState) (es : List Expr) :
    ∃ count result t, Decides stop run s es count result t := by
  induction es generalizing s with
  | nil => exact ⟨0, .ok !stop, s, .all⟩
  | cons e es ih =>
    rcases htruth : e.evaluate.truth.exec run s with ⟨error | b, t⟩
    · exact ⟨1, .error error, t, .fail htruth⟩
    · by_cases hb : b = stop
      · exact ⟨1, .ok stop, t, .stop (hb ▸ htruth)⟩
      · obtain ⟨count, result, u, h⟩ := ih t
        exact ⟨count + 1, result, u, .next (Bool.eq_not.mpr hb ▸ htruth) h⟩

/-- The truth value of an operand is the same where a cancellation from outside is due sooner,
unless it is stopped. -/
theorem exec_truth_sooner {u : EvalState} {b : Outcome Bool}
    (hshares : SharesNumbers id id (fun _ => True) True s u)
    (he : e.evaluate.truth.exec run s = (b, t)) :
    b = .error .cancelled ∨
      ∃ t', e.evaluate.truth.exec run u = (b, t') ∧
        SharesNumbers id id (fun _ => True) True t t' := by
  have hrepeats := repeats_renumber_self Function.injective_id run True e
  rw [renumber_id] at hrepeats
  rcases Coupling.Repeats.truth .any hrepeats hshares with
    ⟨b', s', t', hs, hu, -, hshares'⟩ | ⟨error, s', hs, -, halone⟩
  · cases he.symm.trans hs
    exact .inr ⟨t', hu, hshares'⟩
  · cases he.symm.trans hs
    rcases halone with ⟨rfl, -⟩ | ⟨error', t', hu, rfl, hshares'⟩
    · exact .inl rfl
    · exact .inr ⟨t', hu, hshares'⟩

/-- So operands decide the same, unless one of them is stopped. -/
theorem Decides.sooner {u : EvalState} (h : Decides stop run s es count result t)
    (hshares : SharesNumbers id id (fun _ => True) True s u) :
    result = .error .cancelled ∨ ∃ t', Decides stop run u es count result t' := by
  induction h generalizing u with
  | all => exact .inr ⟨u, .all⟩
  | stop he =>
    rcases exec_truth_sooner hshares he with hok | ⟨t', hu, -⟩
    · cases hok
    · exact .inr ⟨t', .stop hu⟩
  | fail he =>
    rcases exec_truth_sooner hshares he with hcancelled | ⟨t', hu, -⟩
    · exact .inl (congrArg _ (Except.error.inj hcancelled))
    · exact .inr ⟨t', .fail hu⟩
  | next he h ih =>
    rcases exec_truth_sooner hshares he with hok | ⟨t', hu, hshares'⟩
    · cases hok
    · exact (ih hshares').imp_right fun ⟨t'', h⟩ => ⟨t'', .next hu h⟩

/-! ## Polls before an operand -/

theorem exec_poll_bind_truth {α : Type} (e : Expr) (f : Bool → Eval α) :
    (Eval.poll >>= fun _ => e.evaluate.truth >>= f).exec run s =
      (e.evaluate.truth >>= f).exec run (run.poll s).2 := by
  rw [Eval.truth, bind_assoc]
  exact exec_poll_bind_evaluate e _

/-! ## Chains -/

/-- Operands joined by an operator from the left. -/
def chain (op : BinaryOp) (e : Expr) (es : List Expr) : Expr := es.foldl (.binary op) e

theorem truth_map_boolean (x : Eval Bool) : (Value.boolean <$> x).truth = x := by
  rw [Eval.truth, bind_map_left]
  exact bind_pure x

/-- Such an operator gives truth values, and may leave out its right operand. -/
theorem evaluate_decidedBy (stop : Bool) (l r : Expr) :
    (binary (.decidedBy stop) l r).evaluate = Value.boolean <$> (do
      Eval.poll
      let b ← l.evaluate.truth
      if b = stop then return stop else r.evaluate.truth) := by
  simp only [map_eq_pure_bind, bind_assoc]
  cases stop with
  | false =>
    rw [BinaryOp.decidedBy, evaluate]
    congr; funext _; congr; funext b
    cases b <;> rfl
  | true =>
    rw [BinaryOp.decidedBy, evaluate]
    congr; funext _; congr; funext b
    cases b <;> rfl

/-- The truth of a computation is that of its value, and the error if it has none or cannot be
converted. -/
theorem exec_truth (x : Eval Value) : x.truth.exec run s =
    match x.exec run s with
    | (.ok v, t) => (v.asBool, t)
    | (.error e, t) => (.error e, t) := by
  rw [Eval.truth, Eval.exec_bind]
  rcases x.exec run s with ⟨_ | v, t⟩
  · rfl
  · exact Eval.exec_ofOutcome ..

/-- The right operand is left out where the left one decides, and else its truth value is that of
both. -/
theorem exec_truth_decidedBy (l r : Expr) :
    (binary (.decidedBy stop) l r).evaluate.truth.exec run s =
      match l.evaluate.truth.exec run (run.poll s).2 with
      | (.ok b, t) => if b = stop then (.ok stop, t) else r.evaluate.truth.exec run t
      | (.error e, t) => (.error e, t) := by
  rw [evaluate_decidedBy, truth_map_boolean, exec_poll_bind_truth, Eval.exec_bind]
  rcases l.evaluate.truth.exec run (run.poll s).2 with ⟨error | b, t⟩
  · rfl
  · by_cases hb : b = stop
    · simp only [hb, if_true, Eval.exec_pure]
    · simp only [hb, if_false]

theorem exec_eq_truth (l r : Expr) :
    (binary (.decidedBy stop) l r).evaluate.exec run s =
      (((binary (.decidedBy stop) l r).evaluate.truth.exec run s).1.map .boolean,
        ((binary (.decidedBy stop) l r).evaluate.truth.exec run s).2) := by
  rw [evaluate_decidedBy, truth_map_boolean, Eval.exec_map]

/-- Two operands that are joined decide like the two after a poll. -/
theorem Decides.join (h : Decides stop run (run.poll s).2 (l :: r :: es) count result t) :
    ∃ count, Decides stop run s (binary (.decidedBy stop) l r :: es) count result t := by
  have hboth : (binary (.decidedBy stop) l r).evaluate.truth.exec run s = _ :=
    exec_truth_decidedBy l r
  cases h with
  | stop hl =>
    rw [hl] at hboth
    exact ⟨1, .stop (hboth.trans (if_pos rfl))⟩
  | fail hl =>
    rw [hl] at hboth
    exact ⟨1, .fail hboth⟩
  | next hl h =>
    rw [hl] at hboth
    have hboth := hboth.trans (if_neg (Bool.not_not_eq.mpr rfl))
    cases h with
    | stop hr => exact ⟨1, .stop (hboth.trans hr)⟩
    | fail hr => exact ⟨1, .fail (hboth.trans hr)⟩
    | next hr h => exact ⟨_, .next (hboth.trans hr) h⟩

/-- A chain has the truth value that its operands decide after one poll for each operator. -/
theorem exec_truth_chain (h : Decides stop run (run.polled es.length s) (e :: es) count result t) :
    (chain (.decidedBy stop) e es).evaluate.truth.exec run s = (result, t) := by
  induction es generalizing e count with
  | nil =>
    cases h with
    | stop he => exact he
    | fail he => exact he
    | next he h =>
      cases h
      exact he
  | cons e' es ih =>
    obtain ⟨count, h⟩ := h.join
    exact ih h

/-- A chain of two or more expressions is an operator between two of them. -/
theorem exists_chain_eq_binary (op : BinaryOp) (e e' : Expr) (es : List Expr) :
    ∃ l r, chain op e (e' :: es) = binary op l r := by
  induction es generalizing e e' with
  | nil => exact ⟨e, e', rfl⟩
  | cons e'' es ih => exact ih (binary op e e') e''

/-- A chain, which polls once for each of its operators before it comes to the first expression,
gives what its expressions decide. -/
theorem exec_chain
    (h : Decides stop run (run.polled (es.length + 1) s) (l :: r :: es) count result t) :
    (chain (.decidedBy stop) l (r :: es)).evaluate.exec run s = (result.map .boolean, t) := by
  have htruth : (chain (.decidedBy stop) l (r :: es)).evaluate.truth.exec run s = (result, t) :=
    exec_truth_chain h
  obtain ⟨l', r', hchain⟩ := exists_chain_eq_binary (.decidedBy stop) l r es
  rw [hchain] at htruth ⊢
  rw [exec_eq_truth, htruth]

/-! ## Calls -/

/-- A plan that is at an argument goes on behind it, unless it decides. -/
theorem exec_truthUntil_succ (before : List Expr) (e : Expr) (es : List Expr) (count : Nat) :
    ((Plan.truthUntil stop (count + 1) before.length).run (arguments (before ++ e :: es))).exec run
        s =
      match e.evaluate.truth.exec run s with
      | (.ok b, t) =>
        if b = stop then (.ok (.boolean stop), t)
        else ((Plan.truthUntil stop count (before.length + 1)).run
          (arguments (before ++ e :: es))).exec run t
      | (.error e, t) => (.error e, t) := by
  rw [Plan.truthUntil, Plan.run, get_arguments, Eval.exec_bind, exec_truth]
  rcases e.evaluate.exec run s with ⟨error | v, t⟩
  · rfl
  · dsimp only
    rcases v.asBool with error | b
    · rfl
    · by_cases hb : b = stop
      · simp only [hb, beq_self_eq_true, if_true]
        rfl
      · simp only [hb, beq_iff_eq, if_false]

/-- A plan does with the arguments from some number on what these decide. -/
theorem exec_truthUntil (before : List Expr) (h : Decides stop run s es count result t) :
    ((Plan.truthUntil stop es.length before.length).run (arguments (before ++ es))).exec run s =
      (result.map .boolean, t) := by
  induction h generalizing before with
  | all => rfl
  | stop he =>
    rw [List.length_cons, exec_truthUntil_succ, he]
    exact if_pos rfl
  | fail he =>
    rw [List.length_cons, exec_truthUntil_succ, he]
    rfl
  | @next _ _ _ e es _ _ he h ih =>
    have hrest := ih (before ++ [e])
    rw [List.append_assoc, List.length_append] at hrest
    rw [List.length_cons, exec_truthUntil_succ, he]
    exact (if_neg (Bool.not_not_eq.mpr rfl)).trans hrest

theorem plan_decidedBy (stop : Bool) (count : Nat) :
    (Builtin.decidedBy stop).definition.implementation.plan count =
      .truthUntil stop count 0 := by
  cases stop <;> rfl

/-- A call gives what its arguments decide after one poll. -/
theorem exec_call_decidedBy (id : Nat)
    (h : Decides stop run (run.poll s).2 (e :: es) count result t) :
    (call id (Builtin.decidedBy stop).definition (e :: es)).evaluate.exec run s =
      (result.map .boolean, run.afterNode id (result.map .boolean) t) := by
  have hplan : (Eval.poll >>= fun _ =>
      (Plan.truthUntil stop (e :: es).length 0).run (arguments (e :: es))).exec run s =
        (result.map .boolean, t) := by
    rw [← exec_truthUntil [] h]
    exact exec_poll_bind_evaluate e _
  rw [evaluate, Eval.exec_recorded, plan_decidedBy, hplan]
  cases result <;> rfl

/-! ## Literals -/

/-- A literal gives its value unless the run is to stop. -/
theorem exec_truth_literal (v : Value) :
    (literal v).evaluate.truth.exec run s =
      (if (run.poll s).1 then .error .cancelled else v.asBool, (run.poll s).2) := by
  rw [exec_truth, evaluate, Eval.exec_bind, Eval.exec_poll]
  cases (run.poll s).1 <;> rfl

/-- What the operator does with two values. -/
theorem applyBinary_decidedBy (v w : Value) :
    v.applyBinary (.decidedBy stop) w = (do
      let b ← v.asBool
      if b = stop then return Value.boolean stop
      else return Value.boolean (← w.asBool)) := by
  cases stop with
  | false =>
    rw [BinaryOp.decidedBy, Value.applyBinary]
    rcases v.asBool with _ | _ | _ <;> rfl
  | true => rfl

/-- Between literals the operator does what it does with their values, unless the run stops. -/
theorem outcome_literals (stop : Bool) (run : Run) (s : EvalState) (v w : Value) :
    let outcome :=
      ((binary (.decidedBy stop) (.literal v) (.literal w)).evaluate.exec run s).1
    outcome = v.applyBinary (.decidedBy stop) w ∨
      outcome = .error .cancelled ∧
        ((run.poll s).1 = true ∨ run.token ≠ none ∧ s.host.due ≠ none) := by
  intro outcome
  have houtcome : outcome = _ := congrArg Prod.fst (exec_eq_truth ..)
  rw [exec_truth_decidedBy, exec_truth_literal] at houtcome
  rw [houtcome, applyBinary_decidedBy]
  cases hfirst : (run.poll (run.poll s).2).1 with
  | true => exact .inr ⟨rfl, Run.stop_or_isDue (k := 1) hfirst⟩
  | false =>
    rw [if_neg Bool.false_ne_true]
    rcases v.asBool with error | b
    · exact .inl rfl
    · change _ = (if b = stop then _ else _) ∨ _
      by_cases hb : b = stop
      · simp only [if_pos hb]
        exact .inl rfl
      · simp only [if_neg hb, exec_truth_literal]
        cases hsecond : (run.poll (run.poll (run.poll s).2).2).1 with
        | true => exact .inr ⟨rfl, Run.stop_or_isDue (k := 2) hsecond⟩
        | false =>
          refine .inl ?_
          cases w.asBool <;> rfl

/-! ## Both -/

/-- Operands are stopped with the run. -/
theorem Decides.of_stop (hstop : (run.poll s).1 = true)
    (h : Decides stop run s (e :: es) count result t) : result = .error .cancelled := by
  have htruth : e.evaluate.truth.exec run s = (.error .cancelled, (run.poll s).2) := by
    rw [exec_truth, e.exec_of_stop hstop]
  cases h with
  | stop he => cases htruth.symm.trans he
  | fail he =>
    cases htruth.symm.trans he
    rfl
  | next he => cases htruth.symm.trans he

/-- Operands decide after more polls what they decide after one, unless they are stopped. -/
theorem Decides.of_polled {k : Nat}
    (h : Decides stop run (run.polled (k + 1) s) (e :: es) count result t) :
    result = .error .cancelled ∨
      ∃ t', Decides stop run (run.polled 1 s) (e :: es) count result t' := by
  rw [Run.polled_succ] at h
  rcases Run.stop_or_isSooner_polled k with hstop | hsooner
  · exact .inl (h.of_stop hstop)
  · refine h.sooner ⟨hsooner, fun _ => trivial, fun id _ i typeName => ?_⟩
    rw [Run.memo_polled]
    rfl

/-- `AND` of two or more operands does what their chain with `&&` does, and so do `OR` and `||`.
Both evaluate the same operands, one after another, and give what these decide; besides, the call
has its value recorded.  The chain polls once for each operator before, and the call once, so the
chain may be stopped alone where a cancellation from outside is due.  Two literals joined by the
operator give what the operator gives for their values, unless the run is stopped. -/
theorem connectives_agree (stop : Bool) (id : Nat) (l r : Expr) (es : List Expr) (run : Run)
    (s : EvalState) :
    (∃ count result t count' result' t',
      Decides stop run (run.polled 1 s) (l :: r :: es) count result t ∧
      (call id (Builtin.decidedBy stop).definition (l :: r :: es)).evaluate.exec run s =
        (result.map .boolean, run.afterNode id (result.map .boolean) t) ∧
      Decides stop run (run.polled (es.length + 1) s) (l :: r :: es) count' result' t' ∧
      (chain (.decidedBy stop) l (r :: es)).evaluate.exec run s = (result'.map .boolean, t') ∧
      (count' = count ∧ result' = result ∧ t' = t ∨
        (run.token ≠ none ∧ s.host.due ≠ none) ∧
          (count' = count ∧ result' = result ∨ result' = .error .cancelled))) ∧
      ∀ v w,
        let outcome := ((binary (.decidedBy stop) (.literal v) (.literal w)).evaluate.exec run s).1
        outcome = v.applyBinary (.decidedBy stop) w ∨
          outcome = .error .cancelled ∧
            ((run.poll s).1 = true ∨ run.token ≠ none ∧ s.host.due ≠ none) := by
  refine ⟨?_, outcome_literals stop run s⟩
  obtain ⟨count', result', t', hchain⟩ :=
    exists_decides stop run (run.polled (es.length + 1) s) (l :: r :: es)
  by_cases hdue : run.token = none ∨ s.host.due = none
  · have hcall : Decides stop run (run.polled 1 s) (l :: r :: es) count' result' t' := by
      rw [Run.polled_eq hdue] at hchain ⊢
      exact hchain
    exact ⟨count', result', t', count', result', t', hcall, exec_call_decidedBy id hcall, hchain,
      exec_chain hchain, .inl ⟨rfl, rfl, rfl⟩⟩
  · have hdue := not_or.mp hdue
    rcases hchain.of_polled with hcancelled | ⟨t, hcall⟩
    · obtain ⟨count, result, t, hcall⟩ :=
        exists_decides stop run (run.polled 1 s) (l :: r :: es)
      exact ⟨count, result, t, count', result', t', hcall, exec_call_decidedBy id hcall, hchain,
        exec_chain hchain, .inr ⟨hdue, .inr hcancelled⟩⟩
    · exact ⟨count', result', t, count', result', t', hcall, exec_call_decidedBy id hcall,
        hchain, exec_chain hchain, .inr ⟨hdue, .inl ⟨rfl, rfl⟩⟩⟩

end Expr
end Formula
