import Formula.Proofs.Expr.Renumbered
import Formula.Proofs.Expr.Steady
import Formula.Proofs.Text.AsciiCase

/-!
# Expressions with names in another case

An expression respells another if the two are the same but for the case of the ASCII letters in the
names of variables and steps, and for the texts of their paths.  Folding keeps that: only what has
no names is replaced by its value, so folding commutes with writing all names in lower case
(`run_fold_lowerNames`), whatever the functions are.
-/

namespace Formula

/-- Names are equal but for the case of ASCII letters if their lower-case forms are equal. -/
theorem Text.equalIgnoringAsciiCase_iff_toLower {a b : String} :
    equalIgnoringAsciiCase a b = true ↔ a.toLower = b.toLower := by
  have hlower : ∀ s : String, s.toLower.toList = s.toList.map Char.toLower :=
    fun s => String.toList_map
  rw [equalIgnoringAsciiCase_iff, ← String.toList_inj, hlower, hlower]

namespace Expr

/-! ## Names in lower case -/

mutual

/-- The expression with its names in lower case, and without the texts of its paths. -/
def lowerNames : Expr → Expr
  | literal v => literal v
  | unary op e => unary op (lowerNames e)
  | binary op l r => binary op (lowerNames l) (lowerNames r)
  | call id f args => call id f (lowerNamesOfAll args)
  | var id name index => var id name.toLower (lowerNamesOfAll index)
  | path id steps _ => path id (lowerNamesOfSteps steps) ""

/-- Expressions with their names in lower case. -/
def lowerNamesOfAll : List Expr → List Expr
  | [] => []
  | e :: es => lowerNames e :: lowerNamesOfAll es

/-- Steps with their names in lower case, and those in their keys too. -/
def lowerNamesOfSteps : List (Step Expr) → List (Step Expr)
  | [] => []
  | ⟨name, listed, keys⟩ :: steps =>
    ⟨name.toLower, listed, lowerNamesOfAll keys⟩ :: lowerNamesOfSteps steps

end

/-- A list in lower case is the list of its elements in lower case. -/
theorem lowerNamesOfAll_eq_map (es : List Expr) : lowerNamesOfAll es = es.map lowerNames := by
  induction es with
  | nil => rfl
  | cons e es ih => rw [lowerNamesOfAll, ih, List.map_cons]

/-- Steps in lower case have names and keys in lower case. -/
theorem lowerNamesOfSteps_eq_map (steps : List (Step Expr)) : lowerNamesOfSteps steps =
    steps.map fun s => ⟨s.name.toLower, s.listed, s.keys.map lowerNames⟩ := by
  induction steps with
  | nil => rfl
  | cons s steps ih => rw [lowerNamesOfSteps, ih, lowerNamesOfAll_eq_map, List.map_cons]

@[simp] theorem isLiteral_lowerNames (e : Expr) : e.lowerNames.isLiteral = e.isLiteral := by
  cases e <;> rfl

/-- A literal has no names. -/
theorem lowerNames_eq_self_of_isLiteral {e : Expr} (h : e.isLiteral = true) :
    e.lowerNames = e := by
  cases e with
  | literal v => rfl
  | _ => cases h

/-! ## Folding -/

/-- Whether a node is made of literals does not depend on the case of names. -/
@[simp] theorem isReducible_lowerNames (e : Expr) : e.lowerNames.isReducible = e.isReducible := by
  cases e with
  | call id f args =>
    show (f.isFoldable && (lowerNamesOfAll args).all isLiteral) =
      (f.isFoldable && args.all isLiteral)
    rw [lowerNamesOfAll_eq_map, List.all_map]
    congr 2
    funext e
    exact e.isLiteral_lowerNames
  | unary op e => exact e.isLiteral_lowerNames
  | binary op l r => exact congrArg₂ and l.isLiteral_lowerNames r.isLiteral_lowerNames
  | _ => rfl

/-- What is made of literals has no names. -/
theorem lowerNames_eq_self_of_isReducible {e : Expr} (h : e.isReducible = true) :
    e.lowerNames = e := by
  cases e with
  | unary op e => exact congrArg (unary op) (lowerNames_eq_self_of_isLiteral h)
  | binary op l r =>
    obtain ⟨hl, hr⟩ := (Bool.and_eq_true _ _).mp h
    exact congrArg₂ (binary op) (lowerNames_eq_self_of_isLiteral hl)
      (lowerNames_eq_self_of_isLiteral hr)
  | call id f args =>
    have hargs := List.all_eq_true.mp ((Bool.and_eq_true _ _).mp h).2
    have hsame : args.map lowerNames = args.map fun e => e :=
      List.map_congr_left fun e he => lowerNames_eq_self_of_isLiteral (hargs e he)
    show call id f (lowerNamesOfAll args) = call id f args
    rw [lowerNamesOfAll_eq_map, hsame, List.map_id']
  | _ => cases h

/-- A node that is settled has no names in it, so settling it comes to the same before its names are
written in lower case and after. -/
theorem run_settle_lowerNames (scope : Scope) (e : Expr) (host : Host) :
    (settle scope e.lowerNames).run host =
      (((settle scope e).run host).1.lowerNames, ((settle scope e).run host).2) := by
  cases h : e.isReducible with
  | false =>
    rw [run_settle_of_not_isReducible h,
      run_settle_of_not_isReducible (e.isReducible_lowerNames.trans h)]
  | true =>
    rw [lowerNames_eq_self_of_isReducible h]
    rcases hrun : (evaluate e).exec { scope } { host } with ⟨error | v, s⟩
    · rw [run_settle_of_isReducible h hrun, reduced, lowerNames_eq_self_of_isReducible h]
    · rw [run_settle_of_isReducible h hrun]
      rfl

section
variable (scope : Scope)

/-- Folding a list commutes with lower case if folding its elements does. -/
theorem run_foldAll_lowerNames {es : List Expr}
    (h : ∀ e ∈ es, ∀ host, (fold scope e.lowerNames).run host =
      (((fold scope e).run host).1.lowerNames, ((fold scope e).run host).2)) (host : Host) :
    (foldAll scope (lowerNamesOfAll es)).run host =
      (lowerNamesOfAll ((foldAll scope es).run host).1, ((foldAll scope es).run host).2) := by
  induction es generalizing host with
  | nil => rfl
  | cons e es ih =>
    obtain ⟨he, hes⟩ := List.forall_mem_cons.mp h
    rw [lowerNamesOfAll, foldAll, run_bind_eq (he host), run_bind_eq (ih hes _)]
    rfl

/-- So does folding the keys of steps. -/
theorem run_foldSteps_lowerNames {steps : List (Step Expr)}
    (h : ∀ s ∈ steps, ∀ e ∈ s.keys, ∀ host, (fold scope e.lowerNames).run host =
      (((fold scope e).run host).1.lowerNames, ((fold scope e).run host).2)) (host : Host) :
    (foldSteps scope (lowerNamesOfSteps steps)).run host =
      (lowerNamesOfSteps ((foldSteps scope steps).run host).1,
        ((foldSteps scope steps).run host).2) := by
  induction steps generalizing host with
  | nil => rfl
  | cons s steps ih =>
    obtain ⟨hs, hsteps⟩ := List.forall_mem_cons.mp h
    rw [lowerNamesOfSteps, foldSteps, run_bind_eq (run_foldAll_lowerNames scope hs host),
      run_bind_eq (ih hsteps _)]
    rfl

/-- An expression with its names in lower case is folded to what the expression is folded to, with
the names in lower case, and does the same to the world of the host. -/
theorem run_fold_lowerNames (e : Expr) (host : Host) : (fold scope e.lowerNames).run host =
    (((fold scope e).run host).1.lowerNames, ((fold scope e).run host).2) := by
  induction e generalizing host with
  | literal v => rfl
  | unary op e ih =>
    rw [lowerNames, fold, run_bind_eq (ih host)]
    exact run_settle_lowerNames scope (unary op ((fold scope e).run host).1) _
  | binary op l r ihl ihr =>
    rw [lowerNames, fold, run_bind_eq (ihl host), run_bind_eq (ihr _)]
    exact run_settle_lowerNames scope (binary op ((fold scope l).run host).1 _) _
  | call id f args ih =>
    rw [lowerNames, fold, run_bind_eq (run_foldAll_lowerNames scope ih host)]
    exact run_settle_lowerNames scope (call id f ((foldAll scope args).run host).1) _
  | var id name index ih =>
    rw [lowerNames, fold, run_bind_eq (run_foldAll_lowerNames scope ih host)]
    rfl
  | path id steps text ih =>
    rw [lowerNames, fold, run_bind_eq (run_foldSteps_lowerNames scope ih host)]
    rfl

end

/-! ## The same in another spelling -/

/-- Whether expressions are the same but for the case of the ASCII letters in their names and for
the texts of their paths. -/
def Respells (e e' : Expr) : Prop := e.lowerNames = e'.lowerNames

namespace Respells

variable {e e' : Expr}

theorem symm (h : e.Respells e') : e'.Respells e := Eq.symm h

/-- Lists that are the same in lower case have items that are. -/
theorem forall₂ {es es' : List Expr} (h : lowerNamesOfAll es = lowerNamesOfAll es') :
    List.Forall₂ Respells es es' := by
  rw [lowerNamesOfAll_eq_map, lowerNamesOfAll_eq_map, ← List.forall₂_eq_eq_eq,
    List.forall₂_map_left_iff, List.forall₂_map_right_iff] at h
  exact h

/-- Folding keeps what is the same in another spelling, and does the same to the world of the
host. -/
theorem fold (h : e.Respells e') (scope : Scope) (host : Host) :
    ((e.fold scope).run host).1.Respells ((e'.fold scope).run host).1 ∧
      ((e.fold scope).run host).2 = ((e'.fold scope).run host).2 := by
  have hsame := run_fold_lowerNames scope e host
  rw [show e.lowerNames = e'.lowerNames from h, run_fold_lowerNames] at hsame
  exact ⟨(congrArg Prod.fst hsame).symm, (congrArg Prod.snd hsame).symm⟩

end Respells

/-- Two steps that are the same in lower case. -/
structure RespellsStep (s s' : Step Expr) : Prop where
  spelling : Text.equalIgnoringAsciiCase s.name s'.name = true
  keys : List.Forall₂ Respells s.keys s'.keys

/-- Steps that are the same in lower case respell each other one by one. -/
theorem forall₂_respellsStep {steps steps' : List (Step Expr)}
    (h : lowerNamesOfSteps steps = lowerNamesOfSteps steps') :
    List.Forall₂ RespellsStep steps steps' := by
  rw [lowerNamesOfSteps_eq_map, lowerNamesOfSteps_eq_map, ← List.forall₂_eq_eq_eq,
    List.forall₂_map_left_iff, List.forall₂_map_right_iff] at h
  refine h.imp fun s s' hs => ?_
  obtain ⟨hname, -, hkeys⟩ := Step.mk.inj hs
  refine ⟨Text.equalIgnoringAsciiCase_iff_toLower.mpr hname, Respells.forall₂ ?_⟩
  rw [lowerNamesOfAll_eq_map, lowerNamesOfAll_eq_map]
  exact hkeys

end Expr

end Formula
