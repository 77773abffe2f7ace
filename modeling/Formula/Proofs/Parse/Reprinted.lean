import Formula.Proofs.Evaluation.Restated
import Formula.Proofs.Expr.Annotated
import Formula.Proofs.Parse.Literals
import Formula.Proofs.Parse.PathText

/-!
# Formulas as a trace prints them

A trace prints literals in a style of its own, and paths as they were written, though their keys may
have been folded.  What it prints for an expression is read as an expression that restates it
(`reprints_annotated`), if its literals are such that they are read again with their values.
-/

namespace Formula

/-- Whether a literal that a trace prints is read again with its value: a text without a single
quote, two of which are read as a double one; a truth value, which is read as a call; or a finite
number that is read back from its text, perhaps with a sign. -/
def Value.Retraces : Value → Prop
  | .text s => '\'' ∉ s.toList
  | .boolean _ => True
  | .number x => x.isFinite = true ∧ Number.read? (Number.display x).toList = some x
  | _ => False

namespace Parse

open Formula.Expr (Restates)
open Trace (annotated annotatedList annotationOf)

variable {s : Spelling} {names : Names} {good : Value → Prop} {stepNames : Nat → Nat → String}
  {run : Run}

/-- Whether a text is read, wherever it stands, as an expression that restates another. -/
def Reprints (s : Spelling) (names : Names) (good : Value → Prop) (stepNames : Nat → Nat → String)
    (run : Run) (text : String) (e : Expr) : Prop :=
  ∀ n, ∃ e' n', Prints s names text.toList (.upTo e'.looseness e') n n' ∧
    e'.isBinary = e.isBinary ∧ Restates good stepNames run e e'

/-! ## Literals -/

section
variable (hrun : run.token = none)
include hrun

/-- A text that is read as an operand with a value restates the literal of the value. -/
theorem Writes.reprints {text : String} {v : Value} (h : Writes s names text.toList v) :
    Reprints s names good stepNames run text (.literal v) := by
  intro n
  obtain ⟨e', n', hprints, hbinary, hconstant⟩ := h n
  exact ⟨e', n', hprints.loosen (Nat.zero_le _), hbinary, .of_constant hrun hconstant⟩

/-- What a trace prints for a literal. -/
theorem reprints_literal (hs : s.Clear) (hbuiltins : NamesBuiltins s names) {v : Value}
    (h : v.Retraces) :
    Reprints s names good stepNames run (v.writeLiteral Trace.style "") (.literal v) := by
  cases v with
  | text content =>
    refine Writes.reprints hrun (.of_prints fun n => ?_)
    have hprints := @prints_text s names Trace.style '\'' hs rfl (.inr rfl) content n
    rwa [requoted_eq_self fun hmem => absurd hmem h, String.ofList_toList] at hprints
  | number x =>
    rw [writeLiteral_number]
    exact Writes.reprints hrun (.number hs h.1 h.2)
  | boolean b =>
    have htext : (Value.boolean b).writeLiteral Trace.style "" = boolText b := by
      simp [Value.writeLiteral, Value.toText, Value.write]
    rw [htext]
    exact Writes.reprints hrun (.boolean hbuiltins b)
  | empty | decimal | dateTime | array | object => exact h.elim

end

/-! ## Paths -/

/-- The text of a path is read as the path that it was before it was folded. -/
theorem reprints_path (hgood : HandleContract good) (hrun : run.token = none)
    (hroot : ∀ root, run.scope.context = some root → good root) {source : List Char} {u : Expr}
    (hu : parseSource names s source = .ok u) (hcalls : u.CallsOnlyBuiltins)
    (hnamed : u.StepsNamed stepNames) {id : Nat} {steps₀ steps : List (Step Expr)} {text : String}
    (hmem : .path id steps₀ text ∈ u.nodes)
    (hkeeps : Expr.KeepsMeaning (.path id steps₀ text) (.path id steps text)) :
    Reprints s names good stepNames run text (.path id steps text) := by
  intro n
  obtain ⟨n₀, hprints⟩ := prints_path hu hmem
  -- The numbers are moved so that they count from those that come before.
  let f : Nat → Nat := fun k => k - id + n
  have hmoved : Prints s names text.toList
      (.upTo 0 (.path (f id) (Expr.renumberSteps f steps₀) text)) (f id) (f n₀) :=
    hprints.renumber fun k hk => by simp only [f]; omega
  have hfirst : f id = n := by simp only [f]; omega
  rw [hfirst] at hmoved
  have hmatches :
      (Expr.path id steps₀ text).Matches (.path n (Expr.renumberSteps f steps₀) text) := by
    have hrenumbered := Expr.Matches.renumber f (.path id steps₀ text)
    rwa [Expr.renumber, hfirst] at hrenumbered
  refine ⟨.path n (Expr.renumberSteps f steps₀) text, f n₀, hmoved, rfl, ?_⟩
  exact .of_keepsMeaning hrun hkeeps (hcalls.part hmem)
    (.of_matches hgood hroot hmatches (hcalls.part hmem) (hnamed.part hmem))

/-! ## Nodes -/

namespace Reprints

variable {text text' : String} {e l r : Expr}

/-- The text of an operand is in brackets if it needs them. -/
theorem operand (hs : s.Clear) (h : Reprints s names good stepNames run text e) (n : Nat) :
    ∃ e' n', Prints s names (e.bracketed text).toList (.upTo 0 e') n n' ∧
      Restates good stepNames run e e' := by
  obtain ⟨e', n', hprints, hbinary, hrestates⟩ := h n
  have hbracketed : e'.bracketed text = e.bracketed text := by
    rw [Expr.bracketed, Expr.bracketed, hbinary]
  have hoperand := hprints.bracketed hs
  rw [hbracketed] at hoperand
  exact ⟨e', n', hoperand, hrestates⟩

/-- A sign is printed before its operand, which is in brackets if it is joined more loosely. -/
theorem unary (hs : s.Clear) {op : UnaryOp} (h : Reprints s names good stepNames run text e) :
    Reprints s names good stepNames run (op.symbol ++ e.bracketed text) (.unary op e) := by
  intro n
  obtain ⟨e', n', hprints, hrestates⟩ := h.operand hs n
  refine ⟨.unary op e', n', ?_, rfl, hrestates.unary⟩
  rw [String.toList_append]
  exact .unary hs hprints

/-- The operands of an operator are printed in brackets if they are operators themselves. -/
theorem binary (hs : s.Clear) {op : BinaryOp} (hl : Reprints s names good stepNames run text l)
    (hr : Reprints s names good stepNames run text' r) :
    Reprints s names good stepNames run
      (l.bracketed text ++ " " ++ op.symbol ++ " " ++ r.bracketed text') (.binary op l r) := by
  intro n
  obtain ⟨l', m, hprints, hrestates⟩ := hl.operand hs n
  obtain ⟨r', n', hprints', hrestates'⟩ := hr.operand hs m
  have htext : (l.bracketed text ++ " " ++ op.symbol ++ " " ++ r.bracketed text').toList =
      (l.bracketed text).toList ++
        ' ' :: (op.symbol.toList ++ ' ' :: (r.bracketed text').toList) := by
    simp
  refine ⟨.binary op l' r', n', ?_, rfl, hrestates.binary hrestates'⟩
  rw [htext]
  exact .binary hs hprints hprints'

/-- What a trace prints for a list. -/
theorem list (hs : s.Clear) {es : List Expr}
    (h : ∀ e ∈ es, Reprints s names good stepNames run (annotated [] e) e) (n : Nat) :
    ∃ es' n', PrintsList s names (annotatedList [] es).toList es' n n' ∧
      List.Forall₂ (Restates good stepNames run) es es' := by
  induction es generalizing n with
  | nil => exact ⟨[], n, ⟨rfl, rfl⟩, .nil⟩
  | cons e es ih =>
    obtain ⟨he, hes⟩ := List.forall_mem_cons.mp h
    obtain ⟨e', m, hprints, -, hrestates⟩ := he n
    cases es with
    | nil => exact ⟨[e'], m, hprints.lastItem, .cons hrestates .nil⟩
    | cons e₁ es =>
      obtain ⟨es', n', hprints', hrestates'⟩ := ih hes m
      cases hrestates' with
      | @cons _ e₁' _ es' hhead htail =>
        have htext : (annotatedList [] (e :: e₁ :: es)).toList =
            (annotated [] e).toList ++ ',' :: ' ' :: (annotatedList [] (e₁ :: es)).toList := by
          simp [annotatedList]
        refine ⟨e' :: e₁' :: es', n', ?_, .cons hrestates (.cons hhead htail)⟩
        rw [htext]
        exact .item hs hprints hprints'

end Reprints

/-- Whether what a trace prints for a node is read as such a node. -/
def ReadsAgain (s : Spelling) (names : Names) (good : Value → Prop)
    (stepNames : Nat → Nat → String) (run : Run) : Expr → Prop
  | .literal v => v.Retraces
  | .call _ f args => s.Reads f.name ∧ names.function? f.name = some f ∧
      f.arity.accepts args.length = true ∧ ∃ b : Builtin, f = b.definition
  | .var _ name _ => s.Reads name ∧ names.function? name = none ∧ names.isVariable name = true
  | .path id steps text => Reprints s names good stepNames run text (.path id steps text)
  | _ => True

/-- What a trace prints for an expression is read as an expression that restates it. -/
theorem reprints_annotated (hs : s.Clear) (hrun : run.token = none)
    (hbuiltins : NamesBuiltins s names) {e : Expr}
    (h : ∀ node ∈ e.shown, ReadsAgain s names good stepNames run node) :
    Reprints s names good stepNames run (annotated [] e) e := by
  induction e with
  | literal v => exact reprints_literal hrun hs hbuiltins (h _ List.mem_cons_self)
  | unary op e ih => exact .unary hs (ih fun node hmem => h node (Expr.mem_shown_operand hmem))
  | binary op l r ihl ihr =>
    exact .binary hs (ihl fun node hmem => h node (Expr.mem_shown_left hmem))
      (ihr fun node hmem => h node (Expr.mem_shown_right hmem))
  | call id f args ih =>
    intro n
    obtain ⟨hname, hf, harity, b, rfl⟩ := h _ List.mem_cons_self
    obtain ⟨args', n', hprints, hrestates⟩ := Reprints.list hs (fun a ha =>
      ih a ha fun node hmem => h node (Expr.mem_shown_argument ha hmem)) (n + 1)
    have htext : (annotated [] (.call id b.definition args)).toList =
        b.definition.name.toList ++ '(' :: ((annotatedList [] args).toList ++ [')']) := by
      simp [annotated, annotationOf]
    rw [hrestates.length_eq] at harity
    refine ⟨.call n b.definition args', n', ?_, rfl, .call hrestates⟩
    rw [htext]
    exact .call hs hname hf harity hprints
  | var id name index ih =>
    intro n
    obtain ⟨hname, hf, hvar⟩ := h _ List.mem_cons_self
    obtain ⟨index', n', hprints, hrestates⟩ := Reprints.list hs (fun a ha =>
      ih a ha fun node hmem => h node (Expr.mem_shown_index ha hmem)) (n + 1)
    cases index with
    | nil =>
      have htext : (annotated [] (.var id name [])).toList = name.toList := by
        simp [annotated, annotationOf]
      refine ⟨.var n name [], n + 1, ?_, rfl, .var .nil⟩
      rw [htext]
      exact .var hname hf hvar
    | cons e es =>
      have htext : (annotated [] (.var id name (e :: es))).toList =
          name.toList ++ '[' :: ((annotatedList [] (e :: es)).toList ++ [']']) := by
        simp [annotated, annotationOf]
      refine ⟨.var n name index', n', ?_, rfl, .var hrestates⟩
      rw [htext]
      exact .varWithIndex hs hname hf hvar hprints
  | path id steps text =>
    have htext : annotated [] (.path id steps text) = text := by simp [annotated, annotationOf]
    rw [htext]
    exact h _ List.mem_cons_self

end Parse

end Formula
