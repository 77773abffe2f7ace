import Formula.Proofs.Evaluation.Exec

/-!
# The kinds of results

The operators of arithmetic have results of four kinds, and which one it is is told by the operands
before anything is computed (`Value.resultKind`).  So arithmetic on decimals stays with decimals,
whatever the formula, as long as it takes no powers (`Expr.givesDecimal_evaluate`).
-/

namespace Formula

/-- Whether what an operation results in, if in anything, is of some kind. -/
def Outcome.HasKind (kind : Kind) (r : Outcome Value) : Prop := ∀ v, r = .ok v → v.kind = kind

namespace Outcome.HasKind

variable {kind : Kind}

theorem ok {v : Value} (h : v.kind = kind) : HasKind kind (.ok v) := by
  rintro _ ⟨⟩
  exact h

theorem error {e : CalcError} : HasKind kind (.error e) := nofun

/-- What goes on with a result has the kind of what it goes on to. -/
theorem bind {α : Type} {r : Outcome α} {f : α → Outcome Value} (h : ∀ a, HasKind kind (f a)) :
    HasKind kind (r >>= f) := by
  cases r with
  | ok a => exact h a
  | error e => exact error

end Outcome.HasKind

namespace Value

open Outcome (HasKind)

/-! ## Kinds and values -/

theorem isText_iff {v : Value} : v.kind = .text ↔ ∃ s, v = text s := by cases v <;> simp [kind]

theorem isDateTime_iff {v : Value} : v.kind = .dateTime ↔ ∃ d, v = dateTime d := by
  cases v <;> simp [kind]

theorem isDecimal_iff {v : Value} : v.kind = .decimal ↔ ∃ d, v = decimal d := by
  cases v <;> simp [kind]

/-! ## The kind that a result has -/

/-- Whether `+` joins two values as texts: both are texts, or just one of them is and they do not
both read as numbers. -/
def Joined (l r : Value) : Prop :=
  (l.kind = .text ∧ r.kind = .text) ∨
    ((l.kind = .text ↔ r.kind ≠ .text) ∧ (l.toNumber? = none ∨ r.toNumber? = none))

instance (l r : Value) : Decidable (l.Joined r) := inferInstanceAs (Decidable (_ ∨ _))

/-- Whether an operator shifts a date: `+` with a date on either side, or `-` with one on the left
only. -/
def Shifted (op : ArithmeticOp) (l r : Value) : Prop :=
  (op = .add ∧ (l.kind = .dateTime ∨ r.kind = .dateTime)) ∨
    (op = .subtract ∧ l.kind = .dateTime ∧ r.kind ≠ .dateTime)

instance (op : ArithmeticOp) (l r : Value) : Decidable (Shifted op l r) :=
  inferInstanceAs (Decidable (_ ∨ _))

/-- The kind of the result of an operator, if there is a result. -/
def resultKind (op : ArithmeticOp) (l r : Value) : Kind :=
  if op = .add ∧ l.Joined r then .text
  else if Shifted op l r then .dateTime
  else if l.kind = .decimal ∧ r.kind = .decimal ∧ op ≠ .power then .decimal
  else .number

/-- Whether values are joined as texts can be told from their kinds and from whether they read as
numbers. -/
theorem joins_iff (l r : Value) : l.joins r = true ↔ l.Joined r := by
  by_cases hl : l.kind = .text
  · obtain ⟨s, rfl⟩ := isText_iff.mp hl
    cases r <;> simp [joins, Joined, kind]
  · by_cases hr : r.kind = .text
    · obtain ⟨s, rfl⟩ := isText_iff.mp hr
      cases l <;> simp [joins, Joined, kind] at hl ⊢
    · cases l <;> cases r <;> simp [joins, Joined, kind] at hl hr ⊢

/-! ## Operators -/

/-- A date and a number of days give a date, if the date exists. -/
theorem hasKind_shiftDate (d : DateTime) (days : Float) :
    HasKind .dateTime (shiftDate d days) := by
  unfold shiftDate
  dsimp only
  split
  · exact .ok rfl
  · exact .error

/-- Operators between decimals give decimals, where they give anything. -/
theorem hasKind_decimalArithmetic (op : ArithmeticOp) (a b : Decimal) :
    HasKind .decimal (decimalArithmetic op a b) := by
  unfold decimalArithmetic
  split
  · exact .error
  dsimp only
  split
  · exact .ok rfl
  · exact .error

theorem hasKind_arithmeticAsNumbers (op : ArithmeticOp) (l r : Value) :
    HasKind .number (arithmeticAsNumbers op l r) :=
  .bind fun _ => .bind fun _ => .bind fun _ => .ok rfl

theorem applyArithmetic_of_joined {l r : Value} (h : l.Joined r) :
    applyArithmetic .add l r = .ok (text (l.toText ++ r.toText)) :=
  if_pos ⟨rfl, (joins_iff l r).mpr h⟩

/-- The result of an operator has the kind that is told by its operands. -/
theorem hasKind_applyArithmetic (op : ArithmeticOp) (l r : Value) :
    HasKind (resultKind op l r) (applyArithmetic op l r) := by
  by_cases hjoined : op = .add ∧ l.Joined r
  · obtain ⟨rfl, hjoined⟩ := hjoined
    rw [resultKind, if_pos ⟨rfl, hjoined⟩, applyArithmetic_of_joined hjoined]
    exact .ok rfl
  have hkind : resultKind op l r = if Shifted op l r then .dateTime
      else if l.kind = .decimal ∧ r.kind = .decimal ∧ op ≠ .power then .decimal else .number :=
    if_neg hjoined
  rw [← joins_iff] at hjoined
  unfold applyArithmetic
  rw [if_neg hjoined]
  -- The cases are those of the definition, so each but the first excludes the ones before it.
  split
  · rw [hkind]
    exact .ok rfl
  · rw [hkind, if_pos (.inl ⟨rfl, .inl rfl⟩)]
    exact .bind (hasKind_shiftDate _)
  · rw [hkind, if_pos (.inl ⟨rfl, .inr rfl⟩)]
    exact .bind (hasKind_shiftDate _)
  · next date hright =>
    have hshifted : Shifted .subtract (dateTime date) r := by
      refine .inr ⟨rfl, rfl, fun h => ?_⟩
      obtain ⟨d, hd⟩ := isDateTime_iff.mp h
      exact hright d hd
    rw [hkind, if_pos hshifted]
    exact .bind fun x => hasKind_shiftDate _ (-x)
  · rw [hkind, if_neg (by simp [Shifted]), if_neg fun h => h.2.2 rfl]
    exact hasKind_arithmeticAsNumbers .power l r
  · next a b hpower =>
    rw [hkind, if_neg (by simp [Shifted, kind]), if_pos ⟨rfl, rfl, hpower⟩]
    exact hasKind_decimalArithmetic op a b
  · next haddLeft hsubtract haddRight hdecimals _ =>
    have hshifted : ¬Shifted op l r := by
      rintro (⟨hop, hl | hr⟩ | ⟨hop, hl, -⟩)
      · obtain ⟨d, hd⟩ := isDateTime_iff.mp hl
        exact haddLeft d hop hd
      · obtain ⟨d, hd⟩ := isDateTime_iff.mp hr
        exact haddRight d hop hd
      · obtain ⟨d, hd⟩ := isDateTime_iff.mp hl
        exact hsubtract d hop hd
    have hfixed : ¬(l.kind = .decimal ∧ r.kind = .decimal ∧ op ≠ .power) := by
      rintro ⟨hl, hr, -⟩
      obtain ⟨a, rfl⟩ := isDecimal_iff.mp hl
      obtain ⟨b, rfl⟩ := isDecimal_iff.mp hr
      exact hdecimals a b rfl rfl
    rw [hkind, if_neg hshifted, if_neg hfixed]
    exact hasKind_arithmeticAsNumbers op l r

end Value

/-! ## Arithmetic on decimals -/

/-- What becomes of arithmetic on decimals: it gives a decimal, or it is stopped, divides by zero or
goes beyond the range of decimals. -/
inductive Outcome.StaysDecimal : Outcome Value → Prop where
  | ok (d : Decimal) : StaysDecimal (.ok (.decimal d))
  | cancelled : StaysDecimal (.error .cancelled)
  | divisionByZero : StaysDecimal (.error (.evaluation .divisionByZero))
  | overflow : StaysDecimal (.error (.evaluation .decimalOverflow))

open Outcome (StaysDecimal)

/-- An operator of decimals gives a decimal, divides by zero or goes beyond the range of
decimals. -/
theorem Value.staysDecimal_decimalArithmetic (op : ArithmeticOp) (a b : Decimal) :
    StaysDecimal (decimalArithmetic op a b) := by
  unfold decimalArithmetic
  split
  · exact .divisionByZero
  dsimp only
  split
  · exact .ok _
  · exact .overflow

/-- Between decimals every operator but the power is that of decimals. -/
theorem Value.applyArithmetic_decimal {op : ArithmeticOp} (hop : op ≠ .power) (a b : Decimal) :
    applyArithmetic op (decimal a) (decimal b) = decimalArithmetic op a b := by
  cases op with
  | power => exact absurd rfl hop
  | _ => rfl

namespace Expr

/-- Whether an expression is put together from variables that are decimals, and from decimals
themselves, by signs and the operators `+`, `-`, `*`, `/` and `\`. -/
inductive IsDecimal (vars : NameMap Value) : Expr → Prop where
  | literal (d : Decimal) : IsDecimal vars (.literal (.decimal d))
  | var {id : Nat} {name : String} {index : List Expr} {d : Decimal} :
      vars.get? name = some (.decimal d) → IsDecimal vars (.var id name index)
  | unary {op : UnaryOp} {e : Expr} : IsDecimal vars e → IsDecimal vars (.unary op e)
  | binary {op : ArithmeticOp} {l r : Expr} : op ≠ .power → IsDecimal vars l → IsDecimal vars r →
      IsDecimal vars (.binary (.arithmetic op) l r)

/-- Whether a computation gives a decimal or fails as arithmetic on decimals does. -/
def GivesDecimal (run : Run) (x : Eval Value) : Prop := ∀ s, StaysDecimal (x.exec run s).1

namespace GivesDecimal

variable {run : Run} {x : Eval Value}

/-- What goes on from a decimal to decimals gives decimals. -/
theorem bind {f : Value → Eval Value} (h : GivesDecimal run x)
    (hf : ∀ d, GivesDecimal run (f (.decimal d))) : GivesDecimal run (x >>= f) := by
  intro s
  have hx := h s
  rw [Eval.exec_bind]
  generalize x.exec run s = after at hx ⊢
  obtain ⟨r, t⟩ := after
  cases hx with
  | ok d => exact hf d t
  | cancelled => exact .cancelled
  | divisionByZero => exact .divisionByZero
  | overflow => exact .overflow

/-- A poll before it changes nothing of the kind of a value. -/
theorem polled (h : GivesDecimal run x) : GivesDecimal run (Eval.poll >>= fun _ => x) := by
  intro s
  rw [Eval.exec_bind, Eval.exec_poll]
  cases (run.poll s).1 with
  | true => exact .cancelled
  | false => exact h _

/-- A result that stays decimal is given as such. -/
theorem ofOutcome {r : Outcome Value} (h : StaysDecimal r) :
    GivesDecimal run (Eval.ofOutcome r) := by
  intro s
  rw [Eval.exec_ofOutcome]
  exact h

/-- Polling before a value and recording it are not seen in its kind. -/
theorem recorded (id : Nat) (h : GivesDecimal run x) : GivesDecimal run (do
    Eval.poll
    let v ← x
    Eval.record id v
    return v) := by
  intro s
  have hx := h.polled s
  rw [Eval.exec_recorded]
  generalize (Eval.poll >>= fun _ => x).exec run s = after at hx ⊢
  obtain ⟨r, t⟩ := after
  cases hx <;> constructor

end GivesDecimal

/-- Arithmetic on decimals gives decimals, whatever is computed. -/
theorem givesDecimal_evaluate {e : Expr} {run : Run} (h : e.IsDecimal run.scope.vars) :
    GivesDecimal run e.evaluate := by
  induction h with
  | literal d => exact .polled fun s => .ok d
  | @var id name index d hvar =>
    refine .recorded id fun s => ?_
    unfold variableValue
    rw [Eval.exec_bind, Eval.exec_read]
    dsimp only
    rw [hvar]
    exact .ok d
  | @unary op e _ ih =>
    refine .polled (ih.bind fun d => .ofOutcome ?_)
    cases op <;> exact .ok _
  | @binary op l r hop _ _ ihl ihr =>
    refine .polled (ihl.bind fun a => ihr.bind fun b => .ofOutcome ?_)
    rw [Value.applyBinary, Value.applyArithmetic_decimal hop]
    exact Value.staysDecimal_decimalArithmetic op a b

end Expr

/-! ## All results -/

/-- The kind of what arithmetic results in is told by its operands: for all operators and values, a
result is a text just when the operator is `+` and joins the values, which it always can; otherwise
a date just when it shifts one; otherwise a decimal just when both values are decimals and it is no
power; otherwise a number.  So no formula that is put together from decimals by signs and operators
other than the power has anything but a decimal as its value, whatever it is evaluated in. -/
theorem arithmetic_kinds :
    (∀ op l r v, Value.applyBinary (.arithmetic op) l r = .ok v →
      v.kind = Value.resultKind op l r) ∧
    (∀ l r : Value, l.Joined r →
      Value.applyBinary (.arithmetic .add) l r = .ok (.text (l.toText ++ r.toText))) ∧
    ∀ (e : Expr) (run : Run) (s : EvalState), e.IsDecimal run.scope.vars →
      (e.evaluate.exec run s).1.StaysDecimal :=
  ⟨Value.hasKind_applyArithmetic, fun _ _ => Value.applyArithmetic_of_joined,
    fun _ _ s h => Expr.givesDecimal_evaluate h s⟩

/-- The decimal `9.90`. -/
def price : Decimal := ⟨false, 990, 2, by decide, by decide⟩

/-- A run with a price as a variable. -/
def pricedRun : Run := { scope := { vars := ⟨[("price", .decimal price)]⟩ } }

/-- The formula `-price * (price - price \ price)`. -/
def pricedFormula : Expr :=
  .binary (.arithmetic .multiply) (.unary .negate (.var 0 "Price" []))
    (.binary (.arithmetic .subtract) (.var 1 "price" [])
      (.binary (.arithmetic .divideWhole) (.var 2 "price" []) (.var 3 "PRICE" [])))

/-- A price with a numeric text is a number and with another text a text; a formula of prices is a
decimal. -/
theorem arithmetic_kinds_price :
    (∃ v, Value.applyBinary (.arithmetic .add) (.decimal price) (.text "0.1") = .ok v ∧
      v.kind = .number) ∧
    (Value.decimal price).Joined (.text " EUR") ∧
    Value.applyBinary (.arithmetic .add) (.decimal price) (.text " EUR") =
      .ok (.text ((Value.decimal price).toText ++ " EUR")) ∧
    pricedFormula.IsDecimal pricedRun.scope.vars ∧
    (pricedFormula.evaluate.exec pricedRun {}).1 =
      .ok (.decimal ⟨true, 881100, 4, by decide, by decide⟩) ∧
    (pricedFormula.evaluate.exec pricedRun {}).1.StaysDecimal := by
  obtain ⟨hkind, hjoined, hdecimal⟩ := arithmetic_kinds
  have hnumeric : Value.resultKind .add (.decimal price) (.text "0.1") = .number := by
    decide +kernel
  have hjoins : (Value.decimal price).Joined (.text " EUR") := by decide +kernel
  have hformula : pricedFormula.IsDecimal pricedRun.scope.vars :=
    .binary nofun (.unary (.var rfl))
      (.binary nofun (.var rfl) (.binary nofun (.var rfl) (.var rfl)))
  exact ⟨⟨_, rfl, (hkind .add (.decimal price) (.text "0.1") _ rfl).trans hnumeric⟩, hjoins,
    hjoined _ _ hjoins, hformula, rfl, hdecimal _ _ _ hformula⟩

end Formula
