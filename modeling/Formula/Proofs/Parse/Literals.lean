import Formula.Proofs.Expr.Constant
import Formula.Proofs.Expr.Printed
import Formula.Proofs.Number.ReadBack
import Formula.Proofs.Value.Written

/-!
# Literals as formulas

What is written for a value is read, wherever it stands, as an operand that gives what is shown of
the value (`exists_writes_literalText`).  A sign is read as an operator, and truth values and arrays
are read as calls of functions.
-/

namespace Formula

open Eval (Constant)

/-! ## Calls that are constant -/

/-- A plan that asks for some arguments one after another goes on with their values. -/
theorem Plan.constant_valuesFrom {next : List Value → Plan Value} {args : List Argument}
    {r : Outcome Value} {i : Nat} {vs before : List Value}
    (hargs : ∀ j v, vs[j]? = some v → Constant (Argument.get args (i + j)) (.ok v))
    (hnext : Constant ((next (before.reverse ++ vs)).run args) r) :
    Constant ((valuesFrom next vs.length i before).run args) r := by
  induction vs generalizing i before with
  | nil =>
    rw [List.append_nil] at hnext
    exact hnext
  | cons v vs ih =>
    refine Constant.bind (hargs 0 v rfl) (ih (fun j w hw => ?_) ?_)
    · have hget := hargs (j + 1) w hw
      rwa [Nat.add_comm j 1, ← Nat.add_assoc] at hget
    · rw [List.reverse_cons, List.append_assoc]
      exact hnext

namespace Expr

theorem constant_negate (y : Float) :
    Constant (unary .negate (literal (.number y))).evaluate (.ok (.number (-y))) :=
  Constant.poll.bind ((constant_literal _).bind (.pure _))

theorem constant_constant (id : Nat) (b : Bool) :
    Constant (call id (Builtin.constant b).definition []).evaluate (.ok (.boolean b)) :=
  have hrecord := Constant.bind (.record id _) (.pure (Value.boolean b))
  Constant.poll.bind (Constant.bind (.pure _) hrecord)

/-- A call of the function that makes an array of constants is constant: its value is their
array. -/
theorem constant_array (id : Nat) {es : List Expr} {vs : List Value}
    (h : List.Forall₂ (fun e v => Constant e.evaluate (.ok v)) es vs) :
    Constant (call id Builtin.array.definition es).evaluate (.ok (.array vs)) := by
  have hget : ∀ j v, vs[j]? = some v → Constant (Argument.get (arguments es) (0 + j)) (.ok v) := by
    intro j v hv
    obtain ⟨hj, rfl⟩ := List.getElem?_eq_some_iff.mp hv
    have hj' : j < es.length := h.length_eq ▸ hj
    have harg : (arguments es)[j]? = some ⟨es[j].evaluate, fun _ => es[j].text⟩ := by
      rw [arguments_eq_map, List.getElem?_map, List.getElem?_eq_getElem hj']
      rfl
    rw [Nat.zero_add, Argument.get, harg]
    exact h.get hj' hj
  have hplan : Constant ((Builtin.array.definition.implementation.plan es.length).run
      (arguments es)) (.ok (.array vs)) := by
    show Constant ((Plan.array es.length).run (arguments es)) _
    rw [h.length_eq]
    exact Plan.constant_valuesFrom hget (.pure _)
  rw [evaluate]
  refine Constant.poll.bind (hplan.bind ?_)
  exact Constant.bind (.record id _) (.pure _)

end Expr

namespace Parse

variable {s : Spelling} {names : Names}

/-- Whether a text is read, wherever it stands, as an operand that gives some value. -/
def Writes (s : Spelling) (names : Names) (text : List Char) (v : Value) : Prop :=
  ∀ n, ∃ e n', Prints s names text (.upTo 0 e) n n' ∧ e.isBinary = false ∧
    Constant e.evaluate (.ok v)

/-- Whether the built-in functions go by their names. -/
def NamesBuiltins (s : Spelling) (names : Names) : Prop :=
  ∀ b ∈ Builtin.all, s.Reads b.name ∧ names.function? b.name = some b.definition

/-- A text that is cut into one literal. -/
theorem Prints.of_scans {text : List Char} {v : Value} {n : Nat}
    (h : ∀ {position w}, EndsToken s w → ∃ t, t.lexeme = .literal v ∧
      Scans s false position text w [t] true) :
    Prints s names text (.upTo 0 (.literal v)) n n := by
  intro source x w _ hw
  obtain ⟨t, ht, hscans⟩ := h hw
  exact ⟨[t], true, hscans, .unsigned (.literal ht)⟩

/-- What is written for a text is read with double quotes for quotes like those around it. -/
theorem prints_text {style : LiteralStyle} {quote : Char} (hs : s.Clear)
    (hstyle : style.quote = quote) (hquote : quote = '"' ∨ quote = '\'') (content : String)
    (n : Nat) : Prints s names ((Value.text content).writeLiteral style "").toList
      (.upTo 0 (.literal (.text (String.ofList (requoted quote content.toList))))) n n := by
  rw [writeLiteral_text, hstyle]
  exact .of_scans fun hw => Scans.quoted hs.culture hw hquote content.toList

/-- What is written for a truth value is read as a call of the function that gives it. -/
theorem prints_boolean (hbuiltins : NamesBuiltins s names) (b : Bool) (n : Nat) :
    Prints s names (boolText b).toList (.upTo 0 (.call n (Builtin.constant b).definition [])) n
      (n + 1) := by
  have hname : boolText b = (Builtin.constant b).name := by cases b <;> rfl
  obtain ⟨hreads, hf⟩ := hbuiltins (.constant b) (by cases b <;> simp [Builtin.all])
  have hnone : Prints s names [] (.listIf (· = .round) false []) (n + 1) (n + 1) :=
    fun _ _ _ _ _ => ⟨[], false, .nil, .noList⟩
  have hprints : Prints s names ((Builtin.constant b).name.toList ++ [])
      (.upTo 0 (.call n (Builtin.constant b).definition [])) n (n + 1) :=
    hnone.named hreads (fun _ hv => hv) fun ht hlist => .unsigned (.call ht hf hlist rfl)
  rw [hname]
  rwa [List.append_nil] at hprints

namespace Writes

variable {u : List Char} {v : Value}

theorem of_prints (h : ∀ n, Prints s names u (.upTo 0 (.literal v)) n n) :
    Writes s names u v :=
  fun n => ⟨.literal v, n, h n, rfl, Expr.constant_literal v⟩

/-- A text is written in quotes, in which those of its own are doubled. -/
theorem text (hs : s.Clear) (content : String) :
    Writes s names (Value.text content).literalText.toList (.text content) := by
  refine of_prints fun n => ?_
  have hprints := @prints_text s names .source '"' hs rfl (.inl rfl) content n
  rwa [requoted_eq_self fun _ => rfl, String.ofList_toList] at hprints

/-- A number is read without its sign, which is read as an operator. -/
theorem number (hs : s.Clear) {x y : Float} (hfinite : x.isFinite = true)
    (hread : Number.read? (Number.display x).toList = some y) :
    Writes s names (Number.display x).toList (.number y) := by
  rcases Number.display_cases hfinite with hplain | ⟨digits, hplain, htext⟩
  · exact .of_prints fun n => .of_scans fun hw => Scans.number hs.culture hw hplain hread
  · rw [htext] at hread ⊢
    obtain ⟨z, hz, rfl⟩ := Option.map_eq_some_iff.mp hread
    rw [← Number.read?_of_plainDecimal hplain] at hz
    intro n
    have hprints : Prints s names digits (.upTo 0 (.literal (.number z))) n n :=
      .of_scans fun hw => Scans.number hs.culture hw hplain hz
    have hsigned : Prints s names ('-' :: digits)
        (.upTo 0 (.unary .negate (.literal (.number z)))) n n :=
      @Prints.unary names n n s _ digits hs .negate hprints
    exact ⟨.unary .negate (.literal (.number z)), n, hsigned, rfl, Expr.constant_negate z⟩

theorem boolean (hbuiltins : NamesBuiltins s names) (b : Bool) :
    Writes s names (boolText b).toList (.boolean b) :=
  fun n => ⟨_, n + 1, prints_boolean hbuiltins b n, rfl, Expr.constant_constant n b⟩

/-- The written items of an array are read as expressions that give them. -/
theorem items (hs : s.Clear) {vs ws : List Value}
    (h : List.Forall₂ (fun v w => Writes s names v.literalText.toList w) vs ws) (n : Nat) :
    ∃ es n', PrintsList s names (Value.itemsText vs) es n n' ∧
      List.Forall₂ (fun e w => Constant e.evaluate (.ok w)) es ws := by
  induction h generalizing n with
  | nil => exact ⟨[], n, ⟨rfl, rfl⟩, .nil⟩
  | @cons v w vs ws hv hvs ih =>
    obtain ⟨e, m, hprints, -, hconstant⟩ := hv n
    have hitem := hprints.loosen (Nat.zero_le e.looseness)
    cases hvs with
    | nil => exact ⟨[e], m, hitem.lastItem, .cons hconstant .nil⟩
    | @cons v' w' vs ws hv' hvs =>
      obtain ⟨es, n', hprints', hconstants⟩ := ih m
      cases hconstants with
      | @cons e' _ es _ hconstant' hconstants =>
        refine ⟨e :: e' :: es, n', ?_, .cons hconstant (.cons hconstant' hconstants)⟩
        rw [Value.itemsText_cons_cons]
        exact .item hs hitem hprints'

/-- An array is written as a call with its items as arguments. -/
theorem array (hs : s.Clear) (hbuiltins : NamesBuiltins s names) {vs ws : List Value}
    (h : List.Forall₂ (fun v w => Writes s names v.literalText.toList w) vs ws) :
    Writes s names (Value.array vs).literalText.toList (.array ws) := by
  intro n
  obtain ⟨hreads, hf⟩ := hbuiltins .array (by simp [Builtin.all])
  obtain ⟨es, n', hprints, hconstants⟩ := items hs h (n + 1)
  have harity : Builtin.array.definition.arity.accepts es.length = true :=
    Bool.and_eq_true_iff.mpr ⟨decide_eq_true (Nat.zero_le _), rfl⟩
  have hcall : Prints s names (Builtin.array.name.toList ++ '(' :: (Value.itemsText vs ++ [')']))
      (.upTo 0 (.call n Builtin.array.definition es)) n n' :=
    .call (f := Builtin.array.definition) hs hreads hf harity hprints
  rw [Value.literalText_array]
  exact ⟨_, n', hcall, rfl, Expr.constant_array n hconstants⟩

end Writes

/-- If each item can be written, so can the list, and what is shown of it is what is shown of the
items. -/
theorem exists_writes_items {vs : List Value} (h : ∀ v ∈ vs, ∃ w,
    Writes s names v.literalText.toList w ∧ w.same v.shown = true) :
    ∃ ws, List.Forall₂ (fun v w => Writes s names v.literalText.toList w) vs ws ∧
      Value.sameItems ws (Value.shownItems vs) = true := by
  induction vs with
  | nil => exact ⟨[], .nil, rfl⟩
  | cons v vs ih =>
    obtain ⟨⟨w, hw, hsame⟩, hvs⟩ := List.forall_mem_cons.mp h
    obtain ⟨ws, hws, hsames⟩ := ih hvs
    refine ⟨w :: ws, .cons hw hws, ?_⟩
    rw [Value.shownItems, Value.sameItems, hsame, hsames, Bool.and_true]

/-- What is written for a value is read as an operand that gives what is shown of the value. -/
theorem exists_writes_literalText (hs : s.Clear) (hbuiltins : NamesBuiltins s names) {v : Value}
    (hv : v.HasLiteral) :
    ∃ w, Writes s names v.literalText.toList w ∧ w.same v.shown = true := by
  induction hv with
  | @number x hfinite =>
    obtain ⟨y, hread, hsame⟩ := Number.read?_display hfinite
    rw [Value.literalText, writeLiteral_number]
    exact ⟨.number y, .number hs hfinite hread, hsame⟩
  | text content => exact ⟨.text content, .text hs content, beq_self_eq_true content⟩
  | boolean b =>
    rw [Value.literalText_boolean]
    exact ⟨.boolean b, .boolean hbuiltins b, beq_self_eq_true b⟩
  | dateTime d =>
    exact ⟨.dateTime d.shown, .of_prints fun n => .of_scans fun _ =>
      Scans.date hs.culture d.parseDate?_text, beq_self_eq_true d.shown⟩
  | array _ ih =>
    obtain ⟨ws, hwrites, hsame⟩ := exists_writes_items ih
    exact ⟨.array ws, .array hs hbuiltins hwrites, hsame⟩

end Parse

end Formula
