import Formula.Proofs.Evaluation.Respelled
import Formula.Proofs.Expr.Nodes

/-!
# The step that fails

A strict evaluation of a path that ends with a problem of the path itself has come to one of its
steps: all paths up to that step have a value, and the path with that step fails for a problem of
the same kind.  The error points at this step (`exists_unique_failing_step`).
-/

namespace Formula

/-! ## Problems of one step -/

/-- Whether all problems of paths that a computation ends with are problems of one step of a
path. -/
def Eval.Blames {α : Type} (x : Eval α) (p : PathSite) (i : Nat) : Prop :=
  ∀ ⦃run s e t⦄, x.exec run s = (.error (.binding e), t) →
    ∃ problem : BindingProblem, problem ≠ .noDataContext ∧ e = ⟨problem, p.text, p.labels (), i⟩

namespace Eval.Blames

variable {α β : Type} {p : PathSite} {i : Nat}

/-- A computation that never fails has no problem. -/
theorem of_ok {x : Eval α} (h : ∀ run s, ∃ a t, x.exec run s = (.ok a, t)) : x.Blames p i := by
  intro run s e t he
  obtain ⟨a, t', ha⟩ := h run s
  cases ha.symm.trans he

theorem pure (a : α) : (Pure.pure a : Eval α).Blames p i := of_ok fun _ s => ⟨a, s, rfl⟩

/-- A path that fails at a step blames the step, unless there are no data. -/
theorem fail {problem : BindingProblem} (h : problem ≠ .noDataContext) :
    (p.fail i problem : Eval α).Blames p i := by
  intro run s e t he
  cases he
  exact ⟨problem, h, rfl⟩

/-- Operational errors are not of paths, so no step is blamed for them. -/
theorem throw {e : CalcError} (h : e.isOperational = true) :
    (MonadExcept.throw e : Eval α).Blames p i := by
  intro run s e' t he
  cases he
  cases h

/-- A conversion that fails is no problem of a path. -/
theorem ofOutcome {r : Outcome α} (h : r.Operational) : (Eval.ofOutcome r).Blames p i := by
  cases r with
  | ok a => exact pure a
  | error e => exact throw (h e rfl)

/-- If two computations blame a step only, so does the second after the first. -/
theorem bind {x : Eval α} {f : α → Eval β} (hx : x.Blames p i) (hf : ∀ a, (f a).Blames p i) :
    (x >>= f).Blames p i := by
  intro run s e t he
  rw [Eval.exec_bind] at he
  generalize hresult : x.exec run s = result at he
  rcases result with ⟨e' | a, s'⟩
  · cases he
    exact hx hresult
  · exact hf a he

theorem read {f : Run → Eval α} (hf : ∀ run, (f run).Blames p i) :
    (MonadReader.read >>= f).Blames p i := bind (of_ok fun run s => ⟨run, s, rfl⟩) hf

end Eval.Blames

namespace PathSite

open Eval (Blames)

variable (p : PathSite) (i : Nat) (name : String)

/-- Looking up a member blames the step for the member that is missing, and nothing else. -/
theorem blames_objectMember (c : Contents Value) : (p.objectMember i name c).Blames p i := by
  have hhandle : (p.handle i name c).Blames p i := by
    unfold handle
    refine Blames.bind (.of_ok fun _ s => ⟨s, s, rfl⟩) fun s => ?_
    split
    · exact .pure _
    · split
      · exact Blames.bind (.of_ok fun _ _ => ⟨(), _, rfl⟩) fun _ => .pure _
      · exact .fail nofun
  unfold objectMember
  refine hhandle.bind fun handle => ?_
  split
  · exact .pure _
  · exact .fail nofun

mutual

/-- Reading a member of any value blames the step, by induction on the value. -/
theorem blames_member : ∀ v : Value, (p.member i name v).Blames p i
  | .object o => by
    unfold member
    exact blames_objectMember p i name o.contents
  | .text s => by
    unfold member
    split
    · exact .pure _
    · exact .fail nofun
  | .array items => by
    unfold member
    split
    · exact .pure _
    · exact (blames_members items []).bind fun vs => .pure _
  | .empty | .number _ | .decimal _ | .boolean _ | .dateTime _ => by
    unfold member
    exact .fail nofun

/-- So does reading the members of the items of an array, with the first item that has none. -/
theorem blames_members : ∀ items before : List Value, (p.members i name before items).Blames p i
  | [], before => by
    unfold members
    exact .pure _
  | v :: items, before => by
    by_cases hempty : v = .empty
    · subst hempty
      unfold members
      exact blames_members items _
    · rw [members.eq_3 _ _ _ _ _ _ hempty]
      exact (blames_member v).bind fun w => blames_members items _

end

/-- Taking an item blames the step, whatever the container; the conversion of the keys is none of
its problems. -/
theorem blames_item (v : Value) (keys : List Value) : (p.item i name v keys).Blames p i := by
  unfold item
  refine .read fun run => ?_
  split
  · exact .pure _
  split
  · unfold arrayItem
    split
    · refine (Blames.ofOutcome (Value.operational_asNumber _)).bind fun x => ?_
      dsimp only
      split
      · exact .pure _
      · exact .fail nofun
    · exact .fail nofun
  · unfold objectItem
    split
    · exact .throw rfl
    · split
      · exact .pure _
      · split
        · exact .fail nofun
        · exact .fail nofun
        · refine .read fun run => ?_
          split
          · exact .pure _
          · exact .fail nofun
  · exact .fail nofun
  · exact .fail nofun

/-! ## A step and its keys -/

end PathSite

/-- The step without its keys. -/
def Step.withoutKeys {ε : Type} (s : Step ε) : Step ε := { s with keys := [] }

namespace PathSite

variable {p q : PathSite} {i : Nat}

/-- What a step does with the value of its member. -/
def itemOf (p : PathSite) (i : Nat) (s : Step (Eval Value)) (m : Value) : Eval Value :=
  match s.keys with
  | [] => return m
  | keys => do
    let keys ← Eval.all keys
    p.item i s.name m keys

/-- A step does what it does without keys, and takes an item then. -/
theorem step_eq (p : PathSite) (i : Nat) (s : Step (Eval Value)) (v : Value) :
    p.step i s v = p.step i s.withoutKeys v >>= p.itemOf i s := by
  unfold step Step.withoutKeys
  simp only [bind_assoc, pure_bind]
  rfl

theorem blames_withoutKeys (s : Step (Eval Value)) (v : Value) :
    (p.step i s.withoutKeys v).Blames p i := by
  unfold step Step.withoutKeys
  exact (blames_member p i s.name v).bind fun m => .read fun run => .pure _

/-! ## Parts of a path -/

section
variable {run : Run} (hmode : run.mode ≠ .validation)
include hmode

/-- A path takes its first step, and goes on from there. -/
theorem exec_walk_cons (i : Nat) (v : Value) (step : Step (Eval Value))
    (ts : List (Step (Eval Value))) (s : EvalState) : (p.walk i v (step :: ts)).exec run s =
      (p.walk i v [step] >>= fun w => p.walk (i + 1) w ts).exec run s := by
  rw [walk.eq_2, walk.eq_2]
  split
  · simp only [Eval.exec_bind, Eval.exec_read, if_neg hmode]
    rfl
  · simp only [walk.eq_1, bind_assoc, pure_bind]

/-- A path goes on from the value of its first steps. -/
theorem exec_walk_append (ss ts : List (Step (Eval Value))) (i : Nat) (v : Value) (s : EvalState) :
    (p.walk i v (ss ++ ts)).exec run s =
      (p.walk i v ss >>= fun w => p.walk (i + ss.length) w ts).exec run s := by
  induction ss generalizing i v s with
  | nil => rfl
  | cons step ss ih =>
    rw [List.cons_append, exec_walk_cons hmode, Eval.exec_bind, Eval.exec_bind,
      exec_walk_cons hmode i v step ss, Eval.exec_bind, List.length_cons, ← Nat.add_assoc,
      Nat.add_right_comm]
    rcases (p.walk i v [step]).exec run s with ⟨e | w, t⟩
    · rfl
    · dsimp only
      rw [ih, Eval.exec_bind]

/-- The first steps of a path that has a value have one. -/
theorem exists_walk_of_append {ss ts : List (Step (Eval Value))} {i : Nat} {v w : Value}
    {s t : EvalState} (h : (p.walk i v (ss ++ ts)).exec run s = (.ok w, t)) :
    ∃ w t, (p.walk i v ss).exec run s = (.ok w, t) := by
  rw [exec_walk_append hmode, Eval.exec_bind] at h
  generalize (p.walk i v ss).exec run s = result at h
  rcases result with ⟨e | w', t'⟩
  · cases h
  · exact ⟨w', t', rfl⟩

/-- A path that comes to the end of its first steps goes on from there with any other step. -/
theorem exec_walk_take_append {steps : List (Step (Eval Value))} {i j : Nat} {v w : Value}
    {s t : EvalState} (hj : j ≤ steps.length)
    (h : (p.walk i v (steps.take j)).exec run s = (.ok w, t)) (step : Step (Eval Value)) :
    (p.walk i v (steps.take j ++ [step])).exec run s = (p.walk (i + j) w [step]).exec run t := by
  rw [exec_walk_append hmode, Eval.exec_bind, h, List.length_take_of_le hj]

/-- A path that fails comes to a step that fails. -/
theorem exists_failing_step {steps : List (Step (Eval Value))} {i : Nat} {v : Value}
    {s t : EvalState} {e : CalcError} (h : (p.walk i v steps).exec run s = (.error e, t)) :
    ∃ j step w u, steps[j]? = some step ∧
      (p.walk i v (steps.take j)).exec run s = (.ok w, u) ∧
      (p.walk (i + j) w [step]).exec run u = (.error e, t) := by
  induction steps generalizing i v s with
  | nil => cases h
  | cons step steps ih =>
    rw [exec_walk_cons hmode, Eval.exec_bind] at h
    generalize hfirst : (p.walk i v [step]).exec run s = result at h
    rcases result with ⟨e' | w, u⟩
    · cases h
      exact ⟨0, step, v, s, rfl, rfl, hfirst⟩
    · obtain ⟨j, last, w', u', hlast, hbefore, hfails⟩ := ih h
      refine ⟨j + 1, last, w', u', hlast, ?_, ?_⟩
      · rw [List.take_succ_cons, exec_walk_cons hmode, Eval.exec_bind, hfirst]
        exact hbefore
      · rw [← Nat.add_assoc, Nat.add_right_comm]
        exact hfails

omit hmode in
theorem walk_singleton {v : Value} (h : ¬v.isEmpty = true) (step : Step (Eval Value)) :
    p.walk i v [step] = p.step i step v := by
  rw [walk.eq_2, if_neg h]
  simp only [walk.eq_1, bind_pure]

/-- A step that ends with a problem of a path has a problem itself, or its keys have one. -/
theorem blames_or_keys {step : Step (Eval Value)} {w : Value} {s t : EvalState} {e : BindingError}
    (h : (p.walk i w [step]).exec run s = (.error (.binding e), t)) :
    (∃ problem : BindingProblem,
      problem ≠ .noDataContext ∧ e = ⟨problem, p.text, p.labels (), i⟩) ∨
    ∃ m u, (p.walk i w [step.withoutKeys]).exec run s = (.ok m, u) ∧
      ((Eval.all step.keys).exec run u).1 = .error (.binding e) := by
  by_cases hpresent : w.isEmpty = true
  · rw [walk.eq_2, if_pos hpresent] at h
    simp only [Eval.exec_bind, Eval.exec_read, if_neg hmode] at h
    cases h
    exact .inl ⟨.nullValue, nofun, rfl⟩
  · rw [walk_singleton hpresent, step_eq, Eval.exec_bind] at h
    rw [walk_singleton hpresent]
    generalize hmember : (p.step i step.withoutKeys w).exec run s = result at h
    rcases result with ⟨e' | m, u⟩
    · cases h
      exact .inl (blames_withoutKeys step w hmember)
    · dsimp only at h
      unfold itemOf at h
      split at h
      · cases h
      · -- The member was read: either the keys fail, or no item is found under their values.
        rw [Eval.exec_bind] at h
        generalize hkeys : (Eval.all step.keys).exec run u = result at h
        rcases result with ⟨e' | keys, u'⟩
        · cases h
          exact .inr ⟨m, u, rfl, congrArg Prod.fst hkeys⟩
        · exact .inl (blames_item p i step.name m keys h)

end

/-! ## Paths with the same number -/

/-- Paths with the same number and the same steps have the same value, or fail with errors of the
same variant: how they are written shows in their errors only. -/
theorem exec_walk_congr (hid : p.id = q.id) (run : Run) (v : Value)
    (steps : List (Step (Eval Value))) (s : EvalState) :
    (∃ w t, (p.walk 0 v steps).exec run s = (.ok w, t) ∧
      (q.walk 0 v steps).exec run s = (.ok w, t)) ∨
    ∃ e e' t, (p.walk 0 v steps).exec run s = (.error e, t) ∧
      (q.walk 0 v steps).exec run s = (.error e', t) ∧ e'.variant = e.variant := by
  obtain ⟨id, text, labels⟩ := p
  obtain ⟨_, text', labels'⟩ := q
  cases hid
  have hvalidates : ¬(Coupling.variants run).Validates := Coupling.not_validates rfl
  have hsteps : List.Forall₂ ((Coupling.variants run).AlikeStep fun _ => True) steps steps :=
    List.forall₂_same.mpr fun step _ =>
      ⟨List.forall₂_same.mpr fun x _ => Coupling.follows_self run x, fun h => absurd h hvalidates⟩
  have hnames : ∀ (j : Nat) (s s' : Step (Eval Value)), steps[j]? = some s → steps[j]? = some s' →
      Text.equalIgnoringAsciiCase s.name s'.name = true := by
    intro j s s' hs hs'
    cases hs.symm.trans hs'
    exact Text.equalIgnoringAsciiCase_refl s.name
  rcases Coupling.Follows.walk .any (.of_graph .all hvalidates)
    (Expr.alikeSite_variants run id text text' labels labels') hsteps 0 v hnames trivial
    (show (Coupling.variants run).states s s from rfl) with
    ⟨w, t, _, hx, hy, -, rfl⟩ | ⟨e, t, hx, -, halone | ⟨e', _, hy, hvariant, rfl⟩⟩
  · exact .inl ⟨w, t, hx, hy⟩
  · exact halone.elim
  · exact .inr ⟨e, e', t, hx, hy, hvariant.symm⟩

/-- Two paths with one number walk alike: what one leads to, the other leads to. -/
theorem exec_walk_congr_ok (hid : p.id = q.id) {run : Run} {v w : Value}
    {steps : List (Step (Eval Value))} {s t : EvalState}
    (h : (p.walk 0 v steps).exec run s = (.ok w, t)) :
    (q.walk 0 v steps).exec run s = (.ok w, t) := by
  rcases exec_walk_congr hid run v steps s with ⟨w', t', hp, hq⟩ | ⟨e, e', t', hp, -⟩
  · cases h.symm.trans hp
    exact hq
  · cases h.symm.trans hp

/-- Where one of them fails, the other fails with a problem of the same kind. -/
theorem exec_walk_congr_binding (hid : p.id = q.id) {run : Run} {v : Value}
    {steps : List (Step (Eval Value))} {s t : EvalState} {e : BindingError}
    (h : (p.walk 0 v steps).exec run s = (.error (.binding e), t)) :
    ∃ e' : BindingError, (q.walk 0 v steps).exec run s = (.error (.binding e'), t) ∧
      e'.kind = e.kind := by
  rcases exec_walk_congr hid run v steps s with ⟨w, t', hp, -⟩ | ⟨_, e', t', hp, hq, hvariant⟩
  · cases h.symm.trans hp
  · cases h.symm.trans hp
    cases e' with
    | binding e' => exact ⟨e', hq, CalcError.Variant.binding.inj hvariant⟩
    | _ => cases hvariant

/-! ## Strict paths -/

/-- In strict mode a path is a walk from the data context, and no problem is put up with. -/
theorem exec_resolve_of_strict {run : Run} {root : Value} (hmode : run.mode = .strict)
    (hroot : run.scope.context = some root) (steps : List (Step (Eval Value))) (s : EvalState) :
    (p.resolve steps).exec run s = (p.walk 0 root steps).exec run s := by
  rw [resolve_eq, Eval.exec_bind, Eval.exec_read]
  unfold Eval.tolerating
  dsimp only
  rw [Eval.exec_tryCatch, hroot, hmode]
  generalize (p.walk 0 root steps).exec run s = result
  rcases result with ⟨e | v, t⟩
  · dsimp only
    rw [if_neg]
    · rfl
    · cases e.bindingKind? <;> exact nofun
  · rfl

end PathSite

/-! ## Errors that point at a step -/

namespace BindingError

/-- The wording of a problem of a step shows the steps with the one that failed in brackets. -/
theorem exists_message_eq {e : BindingError} (h : e.problem ≠ .noDataContext) :
    ∃ before after, e.message = before ++ e.marked ++ after := by
  unfold message
  split
  · exact ⟨_, "", by rw [String.append_empty]⟩
  · next name typeName _ =>
    exact ⟨"'" ++ name ++ "' is not a valid property of " ++ typeName ++ " in path '", "'", rfl⟩
  · next name typeName _ =>
    exact ⟨"'" ++ name ++ "' (" ++ typeName ++ ") cannot be indexed in path '", "'", rfl⟩
  · next name description keys _ =>
    exact ⟨"'" ++ name ++ "' in path '", "' (" ++ description ++ ") has no key(s) '" ++ keys ++ "'",
      by simp only [String.append_assoc]⟩
  · next name position count _ =>
    exact ⟨"Index " ++ position ++ " is out of range for '" ++ name ++ "' ("
      ++ Number.integerText count ++ " items) in path '", "'", rfl⟩
  · next name description keys _ =>
    exact ⟨"Index '" ++ keys ++ "' is out of range for '" ++ name ++ "' (" ++ description
      ++ ") in path '", "'", rfl⟩
  · contradiction

/-- The marked path is the list of its steps with the one that failed in brackets. -/
theorem marked_eq {e : BindingError} {step : String} (h : e.steps[e.index]? = some step) :
    e.marked = ".".intercalate (e.steps.set e.index ("[" ++ step ++ "]")) := by
  unfold marked
  congr 1
  refine List.ext_getElem? fun j => ?_
  rw [List.getElem?_mapIdx, List.getElem?_set]
  by_cases hj : j = e.index
  · subst hj
    rw [h, if_pos rfl, if_pos (List.getElem?_eq_some_iff.mp h).1, Option.map_some, if_pos rfl]
  · rw [if_neg (Ne.symm hj)]
    cases e.steps[j]? with
    | none => rfl
    | some other => rw [Option.map_some, if_neg hj]

/-- Whether an error of a path points at a step: it gives the path as written and the step as
printed, and shows the path with this step in brackets and no other. -/
structure PointsAt (e : BindingError) (steps : List (Step Expr)) (text : String) (i : Nat) :
    Prop where
  path_eq : e.path = text
  segment_eq : (steps[i]?).map Step.text = some e.segment
  message_eq : ∃ before after, e.message =
    before ++ ".".intercalate ((steps.map Step.text).set i ("[" ++ e.segment ++ "]")) ++ after

/-- An error that names a step by its number points at it: it gives the text of the path, the step
as printed and the steps with that one in brackets. -/
theorem pointsAt {problem : BindingProblem} (hproblem : problem ≠ .noDataContext)
    {steps : List (Step Expr)} {i : Nat} {step : Step Expr} (hstep : steps[i]? = some step)
    (text : String) :
    (⟨problem, text, steps.map Step.text, i⟩ : BindingError).PointsAt steps text i := by
  have hlabel : (steps.map Step.text)[i]? = some step.text := by
    rw [List.getElem?_map, hstep]
    rfl
  have hsegment :
      (⟨problem, text, steps.map Step.text, i⟩ : BindingError).segment = step.text := by
    unfold segment
    split
    · contradiction
    · dsimp only
      rw [hlabel]
      rfl
  refine ⟨rfl, ?_, ?_⟩
  · rw [hstep, hsegment]
    rfl
  · obtain ⟨before, after, hmessage⟩ :=
      @exists_message_eq ⟨problem, text, steps.map Step.text, i⟩ hproblem
    rw [marked_eq hlabel] at hmessage
    rw [hsegment]
    exact ⟨before, after, hmessage⟩

end BindingError

/-! ## The step that fails -/

namespace Expr

/-- The value of a path. -/
def resolvePath (id : Nat) (steps : List (Step Expr)) (text : String) : Eval Value :=
  PathSite.resolve ⟨id, text, fun _ => steps.map Step.text⟩ (computations steps)

theorem evaluate_path (id : Nat) (steps : List (Step Expr)) (text : String) :
    (path id steps text).evaluate = do
      Eval.poll
      let v ← resolvePath id steps text
      Eval.record id v
      return v := by
  rw [evaluate]
  rfl

/-- Whether a path comes to a step whose keys fail with an error. -/
def KeysRaise (run : Run) (s : EvalState) (id : Nat) (steps : List (Step Expr)) (text : String)
    (e : CalcError) : Prop :=
  ∃ (j : Nat) (step : Step Expr) (m : Value) (t : EvalState), steps[j]? = some step ∧
    (resolvePath id (steps.take j ++ [step.withoutKeys]) text).exec run s = (.ok m, t) ∧
    ((Eval.all (step.keys.map evaluate)).exec run t).1 = .error e

/-- Whether a path has a value if it is cut before a step, and fails for a problem of some kind if
it is cut behind it, whatever the text of what is left. -/
structure FailsFirstAt (run : Run) (s : EvalState) (id : Nat) (steps : List (Step Expr))
    (kind : BindingKind) (i : Nat) : Prop where
  before : ∀ text, ∃ v t, (resolvePath id (steps.take i) text).exec run s = (.ok v, t)
  behind : ∀ text, ∃ e t,
    (resolvePath id (steps.take (i + 1)) text).exec run s = (.error (.binding e), t) ∧
      e.kind = kind

theorem computations_append (steps steps' : List (Step Expr)) :
    computations (steps ++ steps') = computations steps ++ computations steps' := by
  simp only [computations_eq_map, List.map_append]

theorem computations_take (n : Nat) (steps : List (Step Expr)) :
    computations (steps.take n) = (computations steps).take n := by
  simp only [computations_eq_map, List.map_take]

section
variable {run : Run} {root : Value} (hmode : run.mode = .strict)
  (hroot : run.scope.context = some root)
include hmode hroot

/-- The value of a path is that of a walk under its number. -/
theorem exec_resolvePath_ok_iff (p : PathSite) {steps : List (Step Expr)} {text : String}
    {s t : EvalState} {v : Value} : (resolvePath p.id steps text).exec run s = (.ok v, t) ↔
      (p.walk 0 root (computations steps)).exec run s = (.ok v, t) := by
  unfold resolvePath
  rw [PathSite.exec_resolve_of_strict hmode hroot]
  exact ⟨PathSite.exec_walk_congr_ok (by rfl), PathSite.exec_walk_congr_ok (by rfl)⟩

/-- A path fails for a problem of the kind that a walk under its number fails for. -/
theorem exec_resolvePath_of_binding {p : PathSite} {steps : List (Step Expr)} {s t : EvalState}
    {e : BindingError}
    (h : (p.walk 0 root (computations steps)).exec run s = (.error (.binding e), t))
    (text : String) : ∃ e' t', (resolvePath p.id steps text).exec run s =
      (.error (.binding e'), t') ∧ e'.kind = e.kind := by
  unfold resolvePath
  rw [PathSite.exec_resolve_of_strict hmode hroot]
  obtain ⟨e', hfails, hkind⟩ := PathSite.exec_walk_congr_binding (p := p)
    (q := ⟨p.id, text, fun _ => steps.map Step.text⟩) rfl h
  exact ⟨e', t, hfails, hkind⟩

/-- A path that is cut before the step at which it fails first is not cut behind another such
step. -/
theorem FailsFirstAt.le {s : EvalState} {id : Nat} {steps : List (Step Expr)}
    {kind kind' : BindingKind} {i j : Nat} (hi : FailsFirstAt run s id steps kind i)
    (hj : FailsFirstAt run s id steps kind' j) : i ≤ j := by
  by_contra hlt
  obtain ⟨rest, hrest⟩ : steps.take (j + 1) <+: steps.take i :=
    List.take_prefix_take_left (by omega)
  obtain ⟨v, t, hbefore⟩ := hi.before ""
  obtain ⟨e, t', hbehind, -⟩ := hj.behind ""
  rw [exec_resolvePath_ok_iff hmode hroot ⟨id, "", fun _ => []⟩, ← hrest, computations_append]
    at hbefore
  obtain ⟨w, u, hprefix⟩ := PathSite.exists_walk_of_append (by rw [hmode]; exact nofun) hbefore
  cases hbehind.symm.trans ((exec_resolvePath_ok_iff hmode hroot ⟨id, "", fun _ => []⟩).mpr hprefix)

/-- A strict path that fails, and not for an error of a key, has exactly one step at which it fails
first, and the error points at this step. -/
theorem exists_unique_failing_step {s t : EvalState} {id : Nat} {steps : List (Step Expr)}
    {text : String} {e : BindingError}
    (hfails : (resolvePath id steps text).exec run s = (.error (.binding e), t))
    (hkeys : ¬KeysRaise run s id steps text (.binding e)) :
    ∃! i, FailsFirstAt run s id steps e.kind i ∧ e.PointsAt steps text i := by
  have hnotValidation : run.mode ≠ .validation := by
    rw [hmode]
    exact nofun
  let p : PathSite := ⟨id, text, fun _ => steps.map Step.text⟩
  have hwalk : (p.walk 0 root (computations steps)).exec run s = (.error (.binding e), t) := by
    rw [← PathSite.exec_resolve_of_strict hmode hroot]
    exact hfails
  obtain ⟨i, last, w, u, hlast, hbefore, hstep⟩ :=
    PathSite.exists_failing_step hnotValidation hwalk
  have hcontinue := PathSite.exec_walk_take_append hnotValidation
    (Nat.le_of_lt (List.getElem?_eq_some_iff.mp hlast).1) hbefore
  have hbehind : (p.walk 0 root ((computations steps).take (i + 1))).exec run s =
      (.error (.binding e), t) := by
    rw [List.take_add_one, hlast]
    exact (hcontinue last).trans hstep
  rw [← computations_take] at hbefore hbehind hcontinue
  obtain ⟨step, hwritten, rfl⟩ : ∃ step : Step Expr, steps[i]? = some step ∧
      (⟨step.name, step.listed, step.keys.map evaluate⟩ : Step (Eval Value)) = last := by
    rw [computations_eq_map, List.getElem?_map, Option.map_eq_some_iff] at hlast
    exact hlast
  rcases PathSite.blames_or_keys hnotValidation hstep with
    ⟨problem, hproblem, herror⟩ | ⟨m, u', hmember, hraise⟩
  · rw [Nat.zero_add] at herror
    have hfirst : FailsFirstAt run s id steps e.kind i :=
      ⟨fun text' => ⟨w, u, (exec_resolvePath_ok_iff hmode hroot p).mpr hbefore⟩,
        exec_resolvePath_of_binding hmode hroot hbehind⟩
    refine ⟨i, ⟨hfirst, ?_⟩, ?_⟩
    · rw [herror]
      exact BindingError.pointsAt hproblem hwritten text
    · rintro j ⟨hj, -⟩
      exact Nat.le_antisymm (hj.le hmode hroot hfirst) (hfirst.le hmode hroot hj)
  · -- The step reads its member, and then its keys fail.
    refine absurd ⟨i, step, m, u', hwritten, ?_, hraise⟩ hkeys
    refine (exec_resolvePath_ok_iff hmode hroot p).mpr ?_
    rw [computations_append]
    exact (hcontinue _).trans hmember

end

/-! ## A path without a value -/

/-- A path without keys fails for no error of a key. -/
theorem not_keysRaise {run : Run} {s : EvalState} {id : Nat} {steps : List (Step Expr)}
    {text : String} {e : CalcError} (h : ∀ step ∈ steps, step.keys = []) :
    ¬KeysRaise run s id steps text e := by
  rintro ⟨j, step, m, t, hstep, -, hraise⟩
  rw [h step (List.mem_of_getElem? hstep)] at hraise
  cases hraise

/-- A person whose parent is absent. -/
def orphan : Value := .object ⟨0, .record ⟨"Person", [⟨"Parent", .empty, none⟩]⟩⟩

/-- The steps of the path `Parent.Name`. -/
def parentName : List (Step Expr) := [⟨"Parent", false, []⟩, ⟨"Name", false, []⟩]

/-- A strict run on the person. -/
def orphanRun : Run := { scope := { context := some orphan } }

theorem exists_exec_resolvePath_parentName : ∃ t,
    (resolvePath 0 parentName "Parent.Name").exec orphanRun {} =
      (.error (.binding ⟨.nullValue, "Parent.Name", ["Parent", "Name"], 1⟩), t) := ⟨_, rfl⟩

/-- The name of an absent parent. -/
theorem exists_unique_failing_step_parentName :
    let e : BindingError := ⟨.nullValue, "Parent.Name", ["Parent", "Name"], 1⟩
    (∃ t, (resolvePath 0 parentName "Parent.Name").exec orphanRun {} = (.error (.binding e), t)) ∧
      ¬KeysRaise orphanRun {} 0 parentName "Parent.Name" (.binding e) ∧
      ∃! i, FailsFirstAt orphanRun {} 0 parentName e.kind i ∧
        e.PointsAt parentName "Parent.Name" i := by
  intro e
  have hkeys : ∀ step ∈ parentName, step.keys = [] := by simp [parentName]
  obtain ⟨t, hfails⟩ := exists_exec_resolvePath_parentName
  refine ⟨⟨t, hfails⟩, not_keysRaise hkeys, ?_⟩
  exact exists_unique_failing_step rfl rfl hfails (not_keysRaise hkeys)

end Expr

end Formula
