import Formula.Proofs.Evaluation.Handles
import Formula.Proofs.Expr.Renumbered

/-!
# Evaluating a part again

What a part of an expression gives in the course of an evaluation, it gives again when it is
evaluated on its own: then its steps may remember other handles, the evaluation has been cancelled
no more than before, and numbers play no role (`Expr.repeats_of_matches`).  So every value that an
evaluation records is what its node gives on its own (`Expr.yields_of_recorded`).
-/

namespace Formula

/-! ## Worlds of the host -/

namespace Host

variable {h : Host} {token : Nat}

/-- Polling goes on if the token is not cancelled and nothing is due; then it is due one poll
sooner. -/
theorem poll_of_go (hcancelled : h.isCancelled token = false) (hdue : h.due ≠ some 0) :
    h.poll token = (false, { h with due := h.due.map (· - 1) }) := by
  obtain ⟨cancelled, calls, due⟩ := h
  unfold poll
  rw [hcancelled]
  rcases due with _ | _ | n
  · rfl
  · exact absurd rfl hdue
  · rfl

/-- A poll goes on only if the token is not cancelled and no cancellation is due at once. -/
theorem go_of_poll (h : Host) (hgo : (h.poll token).1 = false) :
    h.isCancelled token = false ∧ h.due ≠ some 0 := by
  unfold poll at hgo
  split at hgo
  · cases hgo
  next hcancelled =>
  refine ⟨Bool.eq_false_iff.mpr hcancelled, fun hdue => ?_⟩
  rw [hdue] at hgo
  cases hgo

/-- Whether an evaluation that is not cancelled in one world of the host is not cancelled in
another, now or after as many polls. -/
structure Outlasts (h h' : Host) : Prop where
  isCancelled : ∀ token, h.isCancelled token = true → h'.isCancelled token = true
  due : ∀ n, h.due = some n → ∃ m ≤ n, h'.due = some m

namespace Outlasts

variable {h h' : Host}

theorem refl (h : Host) : h.Outlasts h := ⟨fun _ hc => hc, fun n hn => ⟨n, Nat.le_refl n, hn⟩⟩

/-- A world outlasts what becomes of another that it outlasts. -/
theorem poll_other (hle : h.Outlasts h') (token : Nat) : h.Outlasts (h'.poll token).2 := by
  unfold Host.poll
  split
  · exact hle
  split
  · exact hle
  · refine ⟨fun token' hc => ?_, hle.due⟩
    rw [Host.isCancelled, cancel, List.contains_cons, Bool.or_eq_true]
    exact .inr (hle.isCancelled token' hc)
  · next m hm =>
    refine ⟨hle.isCancelled, fun n hn => ?_⟩
    obtain ⟨k, hk, hdue⟩ := hle.due n hn
    rw [hm] at hdue
    cases hdue
    exact ⟨m, by omega, rfl⟩

/-- What goes on in a world goes on in one that outlasts it. -/
theorem poll (hle : h.Outlasts h') {token : Nat} (hgo : (h'.poll token).1 = false) :
    (h.poll token).1 = false ∧ (h.poll token).2.Outlasts (h'.poll token).2 := by
  obtain ⟨hcancelled', hdue'⟩ := h'.go_of_poll hgo
  have hcancelled : h.isCancelled token = false := by
    rw [← Bool.not_eq_true] at hcancelled' ⊢
    exact fun hc => hcancelled' (hle.isCancelled token hc)
  have hdue : h.due ≠ some 0 := by
    intro hzero
    obtain ⟨m, hm, hsome⟩ := hle.due 0 hzero
    rw [Nat.le_zero.mp hm] at hsome
    exact hdue' hsome
  rw [poll_of_go hcancelled hdue, poll_of_go hcancelled' hdue']
  refine ⟨rfl, hle.isCancelled, fun n hn => ?_⟩
  obtain ⟨k, hk, rfl⟩ := Option.map_eq_some_iff.mp hn
  obtain ⟨m, hm, hsome⟩ := hle.due k hk
  exact ⟨m - 1, by omega, Option.map_eq_some_iff.mpr ⟨m, hsome, rfl⟩⟩

end Outlasts

end Host

/-- Polling for a run can only bring cancellations into the world, so what outlasts it goes on
to. -/
theorem Host.Outlasts.poll_run {h : Host} {s : EvalState} (hle : h.Outlasts s.host) (run : Run) :
    h.Outlasts (run.poll s).2.host := by
  unfold Run.poll
  split
  · exact hle
  · exact hle.poll_other _

/-! ## A run and one on its own -/

/-- Whether a run is one on the same data and in the same mode, with the same token or none. -/
structure Run.Mirrors (run' run : Run) : Prop where
  scope_eq : run'.scope = run.scope
  mode_eq : run'.mode = run.mode
  token : run'.token = none ∨ run'.token = run.token

/-- Where a run goes on, one that mirrors it goes on too. -/
theorem Run.Mirrors.goes_on {run run' : Run} (h : run'.Mirrors run) {s t : EvalState}
    (hst : run'.token = none ∨ t.host.Outlasts s.host) (hgo : (run.poll s).1 = false) :
    (run'.poll t).1 = false ∧
      (run'.token = none ∨ (run'.poll t).2.host.Outlasts (run.poll s).2.host) := by
  unfold Run.poll at hgo ⊢
  cases htoken' : run'.token with
  | none => exact ⟨rfl, .inl rfl⟩
  | some token =>
    have htoken : run.token = some token := by
      rcases h.token with hnone | hsame
      · cases htoken'.symm.trans hnone
      · exact hsame.symm.trans htoken'
    rw [htoken] at hgo ⊢
    have hle : t.host.Outlasts s.host :=
      hst.resolve_left fun hnone => nomatch htoken'.symm.trans hnone
    exact ⟨(hle.poll hgo).1, .inr (hle.poll hgo).2⟩

/-- A run coupled with one that mirrors it.  The steps of both remember valid handles, whatever
they are, and the second is not cancelled unless the first is. -/
def Coupling.afresh (good : Value → Prop) (names names' : Nat → Nat → String) {first second : Run}
    (h : second.Mirrors first) : Coupling where
  first := first
  second := second
  states s t := (s.memo.IsValid good names ∧ t.memo.IsValid good names') ∧
    (second.token = none ∨ t.host.Outlasts s.host)
  errors e e' := e.bindingKind? = e'.bindingKind?
  alone e := e = .cancelled
  errors_refl _ := rfl
  bindingKind?_eq h := h
  scope_eq := h.scope_eq
  mode := .inl h.mode_eq
  strict hb := nomatch hb
  poll {s t} hst := by
    cases hstop : (first.poll s).1 with
    | true => exact .inl ⟨rfl, rfl⟩
    | false =>
      obtain ⟨hgo, hhost⟩ := h.goes_on hst.2 hstop
      refine .inr ⟨hgo, ?_, hhost⟩
      rw [first.memo_poll, second.memo_poll]
      exact hst.1
  records _ _ _ := True
  record _ hst := by split <;> split <;> exact hst

namespace Expr

open Coupling (Repeats)

variable {good : Value → Prop} (hgood : HandleContract good) {names names' : Nat → Nat → String}
  {run run' : Run} (hmirrors : run'.Mirrors run)
  (hroot : ∀ root, run.scope.context = some root → good root)

section
include hgood hroot

/-- An expression gives again what one that is the same but for its numbers gives. -/
theorem repeats_of_matches {e e' : Expr} (h : e.Matches e') (hcalls : e.CallsOnlyBuiltins)
    (hnamed : e.StepsNamed names) (hnamed' : e'.StepsNamed names') :
    (Coupling.afresh good names names' hmirrors).Repeats (fun _ => True) e e' := by
  have hrecords : ∀ e id id', (Coupling.afresh good names names' hmirrors).MayRecord e id id' :=
    fun _ _ _ _ _ _ _ _ _ => trivial
  have hvalidates : ¬(Coupling.afresh good names names' hmirrors).Validates :=
    Coupling.not_validates hmirrors.mode_eq
  have hmemos : (Coupling.afresh good names names' hmirrors).KeepsValid good names names' :=
    ⟨fun h => h.1, fun h hs ht => ⟨⟨hs, ht⟩, h.2⟩⟩
  induction e generalizing e' with
  | literal v =>
    cases e' with
    | literal v' =>
      cases h
      exact .literal .any v
    | _ => cases h
  | unary op e ih =>
    cases e' with
    | unary op' e' =>
      obtain ⟨rfl, he⟩ := Expr.unary.inj h
      refine .unary .any (ih he hcalls.operand (hnamed.of_subset ?_) (hnamed'.of_subset ?_))
      · exact fun _ => mem_nodes_operand
      · exact fun _ => mem_nodes_operand
    | _ => cases h
  | binary op l r ihl ihr =>
    cases e' with
    | binary op' l' r' =>
      obtain ⟨rfl, hl, hr⟩ := Expr.binary.inj h
      refine .binary .any (ihl hl hcalls.left (hnamed.of_subset ?_) (hnamed'.of_subset ?_))
        (ihr hr hcalls.right (hnamed.of_subset ?_) (hnamed'.of_subset ?_))
      · exact fun _ => mem_nodes_left
      · exact fun _ => mem_nodes_left
      · exact fun _ => mem_nodes_right
      · exact fun _ => mem_nodes_right
    | _ => cases h
  | call id f args ih =>
    cases e' with
    | call id' f' args' =>
      obtain ⟨-, rfl, hargs⟩ := Expr.call.inj h
      have hargs := Matches.forall₂ hargs
      have harguments := (forall₂_mem hargs).imp fun a b hab =>
        ih a hab.1.1 hab.2 (hcalls.argument hab.1.1)
          (hnamed.of_subset fun _ => mem_nodes_argument hab.1.1)
          (hnamed'.of_subset fun _ => mem_nodes_argument hab.1.2)
      obtain ⟨b, rfl⟩ := hcalls.function
      exact .builtin (fun _ hb => nomatch hb) (hrecords _ id id') harguments
    | _ => cases h
  | var id name index ih =>
    cases e' with
    | var id' name' index' =>
      obtain ⟨-, rfl, hindex⟩ := Expr.var.inj h
      refine .var .any (hrecords _ id id') (fun _ => trivial) ?_
      exact (forall₂_mem (Matches.forall₂ hindex)).imp fun a b hab =>
        ih a hab.1.1 hab.2 (hcalls.index hab.1.1)
          (hnamed.of_subset fun _ => mem_nodes_index hab.1.1)
          (hnamed'.of_subset fun _ => mem_nodes_index hab.1.2)
    | _ => cases h
  | path id steps text ih =>
    cases e' with
    | path id' steps' text' =>
      obtain ⟨-, hsteps, rfl⟩ := Expr.path.inj h
      have hsteps := forall₂_matchesStep hsteps
      have hnames : ∀ j s, steps[j]? = some s → names id j = s.name ∧ names' id' j = s.name := by
        intro j s hs
        refine ⟨hnamed.step List.mem_cons_self j s hs, ?_⟩
        refine hnamed' id' _ (mem_referencesOf_path List.mem_cons_self) j s.name ?_
        rw [← names_eq hsteps, List.getElem?_map, hs]
        rfl
      have hparts := (forall₂_mem hsteps).imp fun s s' hs =>
        (⟨hs.2.name_eq, (forall₂_mem hs.2.keys).imp fun a b hab =>
          ih s hs.1.1 a hab.1.1 hab.2 (hcalls.key hs.1.1 hab.1.1)
            (hnamed.of_subset fun _ => mem_nodes_key hs.1.1 hab.1.1)
            (hnamed'.of_subset fun _ => mem_nodes_key hs.1.2 hab.1.2),
          fun h => absurd h hvalidates⟩ :
        (Coupling.afresh good names names' hmirrors).OfStep (fun _ => True) s s')
      exact .validPath hgood hmemos hvalidates (fun _ _ => rfl) (hrecords _ id id') hparts hnames
        hroot
    | _ => cases h

end

/-! ## What is recorded -/

/-- Whether a node on its own has a value in every run that mirrors a run, from the same world of
the host and whatever valid handles its steps remember. -/
def Yields (good : Value → Prop) (run : Run) (host : Host) (node : Expr) (v : Value) : Prop :=
  ∀ run' names memo recorded, Run.Mirrors run' run → node.StepsNamed names →
    Memo.IsValid good names memo → (node.evaluate.exec run' ⟨memo, recorded, host⟩).1 = .ok v

section
include hgood hroot

/-- What a node gives in the course of a run, a node that is the same but for its numbers yields on
its own. -/
theorem yields_of_exec {node node' : Expr} (hmatches : node.Matches node') {host : Host}
    {s s' : EvalState} {v : Value} (hcalls : node.CallsOnlyBuiltins)
    (hnamed : node.StepsNamed names) (hs : s.memo.IsValid good names) (hhost : host.Outlasts s.host)
    (hrun : node.evaluate.exec run s = (.ok v, s')) : node'.Yields good run host v := by
  intro run' names' memo recorded hmirrors hnamed' hmemo
  have hrepeats := repeats_of_matches hgood hmirrors hroot hmatches hcalls hnamed hnamed'
  rcases @hrepeats s ⟨memo, recorded, host⟩ ⟨⟨hs, hmemo⟩, .inr hhost⟩ with
    ⟨a, t, t', hx, hy, -⟩ | ⟨e, t, hx, -⟩
  · cases hrun.symm.trans hx
    exact congrArg Prod.fst hy
  · cases hrun.symm.trans hx

end

end Expr

/-- A run coupled with itself that records nothing but what holds of nodes and values, from a world
of the host that outlasts all that follow. -/
def Coupling.recording (good : Value → Prop) (names : Nat → Nat → String) (run : Run) (host : Host)
    (holds : Nat → Value → Prop) : Coupling :=
  { same run with
    first := run
    second := run
    states s t := (s.memo.IsValid good names ∧ t.memo.IsValid good names) ∧ s.host = t.host ∧
      host.Outlasts s.host ∧ ∀ entry ∈ s.recorded, holds entry.1 entry.2
    poll {s t} hst := by
      obtain ⟨hstop, hhost⟩ := @Run.poll_congr run run s t rfl hst.2.1
      refine .inr ⟨hstop, ?_, hhost, ?_, ?_⟩
      · rw [run.memo_poll, run.memo_poll]
        exact hst.1
      · exact hst.2.2.1.poll_run run
      · rw [run.recorded_poll]
        exact hst.2.2.2
    records id _ v := holds id v
    record {s t id id' v} h hst := by
      split
      · exact ⟨hst.1, hst.2.1, hst.2.2.1, List.forall_mem_cons.mpr ⟨h, hst.2.2.2⟩⟩
      · exact hst }

section
variable {good : Value → Prop} (hgood : HandleContract good) {names : Nat → Nat → String}
  {run : Run} (hroot : ∀ root, run.scope.context = some root → good root)
include hgood hroot

/-- Every value that is recorded in the evaluation of an expression is what one of its nodes yields
on its own. -/
theorem Expr.yields_of_recorded {e : Expr} (hcalls : e.CallsOnlyBuiltins)
    (hnamed : e.StepsNamed names) {memo : Memo} (hmemo : memo.IsValid good names) {host : Host}
    {r : Outcome Value} {s : EvalState} (hrun : e.evaluate.exec run ⟨memo, [], host⟩ = (r, s)) :
    ∀ entry ∈ s.recorded, ∃ node ∈ e.nodes, node.id? = some entry.1 ∧
      node.Yields good run host entry.2 := by
  let holds : Nat → Value → Prop := fun id v =>
    ∃ node ∈ e.nodes, node.id? = some id ∧ node.Yields good run host v
  let C := Coupling.recording good names run host holds
  have hmemos : C.KeepsValid good names names := ⟨fun h => h.1, fun h hs ht => ⟨⟨hs, ht⟩, h.2⟩⟩
  have hvalidates : ¬C.Validates := Coupling.not_validates rfl
  have hrecords : ∀ node ∈ e.nodes, ∀ id, node.id? = some id → C.MayRecord node id id := by
    intro node hmem id hid s t s' v hst hexec
    refine ⟨node, hmem, hid, ?_⟩
    exact yields_of_exec hgood hroot (.refl node) (hcalls.part hmem) (hnamed.part hmem) hst.1.1
      hst.2.2.1 hexec
  have hrepeats : C.Repeats (fun _ => True) e e := by
    refine .of_nodes .any e fun node hmem => ?_
    cases node with
    | call id f args =>
      obtain ⟨b, rfl⟩ := hcalls id f args hmem
      exact .builtin (hrecords _ hmem id rfl) .any (fun _ _ => False.elim) fun _ _ => trivial
    | var id name index => exact ⟨hrecords _ hmem id rfl, fun _ => trivial⟩
    | path id steps text =>
      intro hkeys
      have hsteps : List.Forall₂ (C.OfStep fun _ => True) steps steps :=
        List.forall₂_same.mpr fun s hs => ⟨rfl, List.forall₂_same.mpr (hkeys s hs), fun h =>
          absurd h hvalidates⟩
      exact .validPath hgood hmemos hvalidates (fun _ _ => rfl) (hrecords _ hmem id rfl) hsteps
        (fun j s hs => ⟨hnamed.step hmem j s hs, hnamed.step hmem j s hs⟩) hroot
    | _ => trivial
  have hstart : C.states ⟨memo, [], host⟩ ⟨memo, [], host⟩ :=
    ⟨⟨hmemo, hmemo⟩, rfl, .refl host, List.forall_mem_nil _⟩
  rcases hrepeats hstart with
    ⟨v, t, t', hx, -, -, hst⟩ | ⟨error, t, hx, -, halone | ⟨e', t', -, -, hst⟩⟩
  · cases hrun.symm.trans hx
    exact hst.2.2.2
  · exact halone.elim
  · cases hrun.symm.trans hx
    exact hst.2.2.2

end

end Formula
