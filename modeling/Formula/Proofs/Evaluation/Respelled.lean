import Formula.Proofs.Evaluation.Expressions
import Formula.Proofs.Expr.Respelled

/-!
# Evaluating in another spelling

Variables, functions and members are found under any spelling of their names, so an expression that
calls built-in functions only gives what it gives in another spelling.  Errors may print the names,
and so only their variants are the same (`Expr.mapError_exec_of_respells`).
-/

namespace Formula

/-! ## Variants of errors -/

namespace CalcError

/-- What a caller can tell of an error without reading its text. -/
inductive Variant where
  | invalidSyntax
  | argumentCount
  | binding (kind : BindingKind)
  | cast
  | evaluation
  | argument
  | unknownVariable
  | cancelled
deriving DecidableEq, Repr

/-- The variant of an error. -/
def variant : CalcError → Variant
  | .invalidSyntax _ => .invalidSyntax
  | .argumentCount _ _ _ => .argumentCount
  | .binding e => .binding e.kind
  | .cast _ _ _ => .cast
  | .evaluation _ => .evaluation
  | .argument _ => .argument
  | .unknownVariable _ => .unknownVariable
  | .cancelled => .cancelled

/-- Errors that a caller cannot tell apart are problems of the same kind with a path, or none is. -/
theorem bindingKind?_eq_of_variant_eq {e e' : CalcError} (h : e.variant = e'.variant) :
    e.bindingKind? = e'.bindingKind? := by
  have hvariant : ∀ e : CalcError, e.bindingKind? =
      match e.variant with
      | .binding kind => some kind
      | _ => none := by
    intro e
    cases e <;> rfl
  rw [hvariant e, hvariant e', h]

end CalcError

/-! ## Members -/

section
variable {name name' : String} (h : Text.equalIgnoringAsciiCase name name' = true)
include h

/-- An object finds a member under any spelling of its name. -/
theorem Contents.findMember?_congr (c : Contents Value) :
    c.findMember? name' = c.findMember? name := by
  cases c with
  | record r => simp only [findMember?, Record.find?, Text.lowercase_congr h]
  | dictionary d => simp only [findMember?, Text.lowercase_congr h]
  | host o =>
    simp only [findMember?, HostObject.find?, Text.equalIgnoringAsciiCase_congr_right h]

/-- A placeholder is found under any spelling of the name. -/
theorem PathSite.memberPlaceholder?_congr (v : Value) :
    memberPlaceholder? name' v = memberPlaceholder? name v := by
  cases v with
  | object o => simp only [memberPlaceholder?, Contents.findMember?_congr h]
  | _ => rfl

end

/-! ## Expressions -/

theorem EvalState.recorded_congr {s t : EvalState} (entry : Nat × Value) (h : s = t) :
    { s with recorded := entry :: s.recorded } = { t with recorded := entry :: t.recorded } := by
  rw [h]

/-- A run coupled with itself, where errors of the same variant count as the same. -/
def Coupling.variants (run : Run) : Coupling :=
  ofRun run Eq (fun e e' => e.variant = e'.variant) (fun _ => rfl)
    CalcError.bindingKind?_eq_of_variant_eq sharesHost_eq EvalState.recorded_congr

/-- A computation does the same in a run and in the run itself. -/
theorem Coupling.follows_self {α : Type} (run : Run) (x : Eval α) :
    (variants run).Follows (fun _ => True) x x fun _ => True := by
  rintro s _ rfl
  generalize hx : x.exec run s = result
  rcases result with ⟨e | a, t⟩
  · exact .inr ⟨e, t, hx, trivial, .inr ⟨e, t, hx, rfl, rfl⟩⟩
  · exact .inl ⟨a, t, t, hx, hx, trivial, rfl⟩

namespace Expr

open Coupling (variants)

section
variable (run : Run)

theorem mayRecord_variants (e : Expr) (id : Nat) : (variants run).MayRecord e id id :=
  fun _ _ _ _ _ _ => rfl

/-- Paths whose steps are spelt in another case fail for problems of the same kinds, and find the
same members. -/
theorem alikeSite_variants (id : Nat) (text text' : String) (labels labels' : Unit → List String) :
    (variants run).AlikeSite (fun _ => True) (fun _ => True)
      (fun _ name name' => Text.equalIgnoringAsciiCase name name' = true) ⟨id, text, labels⟩
      ⟨id, text', labels'⟩ where
  spelling h := h
  errors _ _ := rfl
  namedErrors _ _ hkind := congrArg CalcError.Variant.binding (hkind _ _)
  causes _ _ _ := trivial
  objectMember := by
    intro i name name' o h _
    exact .alikeMember (Coupling.sharesMemo_eq.handles _) (Contents.findMember?_congr h o.contents)
      rfl trivial fun _ _ _ => trivial
  memberPlaceholder?_eq h _ := PathSite.memberPlaceholder?_congr h _

/-- An expression that calls built-in functions only repeats itself in another spelling. -/
theorem repeats_of_respells {e e' : Expr} (h : e.Respells e') (hcalls : e.CallsOnlyBuiltins) :
    (variants run).Repeats (fun _ => True) e e' := by
  have hvalidates : ¬(variants run).Validates := Coupling.not_validates rfl
  induction e generalizing e' with
  | literal v =>
    cases e' with
    | literal v' =>
      cases h
      exact .literal .any v
    | _ => cases h
  | unary op e ih =>
    cases e' with
    | unary op' e' =>
      obtain ⟨rfl, he⟩ := Expr.unary.inj h
      exact .unary .any (ih he hcalls.operand)
    | _ => cases h
  | binary op l r ihl ihr =>
    cases e' with
    | binary op' l' r' =>
      obtain ⟨rfl, hl, hr⟩ := Expr.binary.inj h
      exact .binary .any (ihl hl hcalls.left) (ihr hr hcalls.right)
    | _ => cases h
  | call id f args ih =>
    cases e' with
    | call id' f' args' =>
      obtain ⟨rfl, rfl, hargs⟩ := Expr.call.inj h
      obtain ⟨b, rfl⟩ := hcalls.function
      refine .builtin (fun _ halone => halone) (mayRecord_variants run _ _) ?_
      refine (forall₂_mem (Respells.forall₂ hargs)).imp fun a a' ha => ?_
      exact ih a ha.1.1 ha.2 (hcalls.argument ha.1.1)
    | _ => cases h
  | var id name index ih =>
    cases e' with
    | var id' name' index' =>
      obtain ⟨rfl, hname, hindex⟩ := Expr.var.inj h
      have hspelling := Text.equalIgnoringAsciiCase_iff_toLower.mpr hname
      refine .alikeVar .any (mayRecord_variants run _ _) (NameMap.get?_congr hspelling _).symm rfl
        (fun _ => trivial) ?_
      refine (forall₂_mem (Respells.forall₂ hindex)).imp fun a a' ha => ?_
      exact ih a ha.1.1 ha.2 (hcalls.index ha.1.1)
    | _ => cases h
  | path id steps text ih =>
    cases e' with
    | path id' steps' text' =>
      obtain ⟨rfl, hsteps, -⟩ := Expr.path.inj h
      have hsteps := forall₂_respellsStep hsteps
      have halike : List.Forall₂ ((variants run).OfAlikeStep fun _ => True) steps steps' := by
        refine (forall₂_mem hsteps).imp fun s s' hs => ⟨?_, fun h => absurd h hvalidates⟩
        refine (forall₂_mem hs.2.keys).imp fun k k' hk => ?_
        exact ih s hs.1.1 k hk.1.1 hk.2 (hcalls.key hs.1.1 hk.1.1)
      have hnames : ∀ (j : Nat) (s s' : Step Expr), steps[j]? = some s → steps'[j]? = some s' →
          Text.equalIgnoringAsciiCase s.name s'.name = true := by
        intro j s s' hs hs'
        obtain ⟨hj, rfl⟩ := List.getElem?_eq_some_iff.mp hs
        obtain ⟨hj', rfl⟩ := List.getElem?_eq_some_iff.mp hs'
        exact (hsteps.get hj hj').spelling
      exact .alikePath (fun _ => trivial) (mayRecord_variants run _ _) .any
        (.of_graph .all hvalidates) (alikeSite_variants run id text text' _ _) halike hnames
        (fun _ _ => trivial) (fun _ => trivial) fun _ _ _ => trivial
    | _ => cases h

/-- An expression gives the same value in another spelling, or an error of the same variant. -/
theorem mapError_exec_of_respells {e e' : Expr} (h : e.Respells e') (hcalls : e.CallsOnlyBuiltins)
    (s : EvalState) : (e.evaluate.exec run s).1.mapError CalcError.variant =
      (e'.evaluate.exec run s).1.mapError CalcError.variant := by
  rcases repeats_of_respells run h hcalls (show (variants run).states s s from rfl) with
    ⟨v, s', t', hx, hy, -⟩ | ⟨error, s', hx, -, halone | ⟨error', t', hy, hvariant, -⟩⟩
  · have hx : e.evaluate.exec run s = (.ok v, s') := hx
    have hy : e'.evaluate.exec run s = (.ok v, t') := hy
    rw [hx, hy]
  · exact halone.elim
  · have hx : e.evaluate.exec run s = (.error error, s') := hx
    have hy : e'.evaluate.exec run s = (.error error', t') := hy
    rw [hx, hy]
    exact congrArg Except.error hvariant

end

end Expr

end Formula
