import Formula.Proofs.Function.Confined

/-!
# The plans of the built-in functions

Every built-in function has a confined plan (`Confined.ofBuiltin`).  For each plan it is said which
arguments it asks for; the rest follows from the plans that it is made of.
-/

namespace Formula

/-- A number of arguments that is accepted is not below the least. -/
theorem Arity.min_le_of_accepts {a : Arity} {count : Nat} (h : a.accepts count = true) :
    a.min ≤ count := by
  unfold accepts at h
  rw [Bool.and_eq_true] at h
  exact of_decide_eq_true h.1

end Formula

namespace Formula.Plan.Confined

variable {asks : Nat → Prop} {sees recovers : Prop} {count i : Nat}

/-! ## Truth values and choices -/

/-- A chain of truth values asks for the arguments from the first on, up to the one that decides. -/
theorem truthUntil {stop : Bool} (hi : ∀ j, i ≤ j → j < i + count → asks j) :
    Confined asks sees recovers (Plan.truthUntil stop count i) := by
  induction count generalizing i with
  | zero => exact .done _
  | succ count ih =>
    refine .argument (hi i (Nat.le_refl i) (by omega)) fun v => ?_
    have hrest : Confined asks sees recovers (Plan.truthUntil stop count (i + 1)) :=
      ih fun j hj hlt => hi j (by omega) (by omega)
    cases h : v.asBool with
    | ok b => exact .ite (.done _) hrest
    | error e => exact .fail (v.operational_asBool e h)

theorem negation (h₀ : asks 0) : Confined asks sees recovers Plan.negation :=
  (boolean h₀).bind fun _ => .done _

theorem choice (h₀ : asks 0) (h₁ : asks 1) (h₂ : 2 < count → asks 2) :
    Confined asks sees recovers (Plan.choice count) :=
  (boolean h₀).bind fun _ => .ite (value h₁) ((value? h₂).bind fun _ => .done _)

theorem valueOr (hr : recovers) (h₀ : asks 0) (h₁ : 1 < count → asks 1) :
    Confined asks sees recovers (Plan.valueOr count) :=
  .argumentOrEmpty hr h₀ fun _ => .ite ((value? h₁).bind fun _ => .done _) (.done _)

/-! ## Numbers -/

theorem real {f : Float → Float} (h₀ : asks 0) : Confined asks sees recovers (Plan.real f) :=
  (number h₀).bind fun _ => finite _

theorem absolute (h₀ : asks 0) : Confined asks sees recovers Plan.absolute := by
  refine .argument h₀ fun v => ?_
  split
  · exact .done _
  · exact (ofOutcome (Value.operational_asNumber _)).bind fun _ => finite _

theorem ceiling (h₀ : asks 0) (h₁ : 1 < count → asks 1) :
    Confined asks sees recovers (Plan.ceiling count) :=
  (number h₀).bind fun _ => (numberOr h₁).bind fun _ => .ite (.done _) (finite _)

theorem floor (h₀ : asks 0) (h₁ : 1 < count → asks 1) :
    Confined asks sees recovers (Plan.floor count) :=
  (number h₀).bind fun _ => (numberOr h₁).bind fun _ => .ite (.fail rfl) (finite _)

theorem toPlaces {rule : Number.Rounding} (h₀ : asks 0) (h₁ : 1 < count → asks 1) :
    Confined asks sees recovers (Plan.toPlaces rule count) :=
  (number h₀).bind fun _ => (numberOr h₁).bind fun _ => finite _

theorem sign (h₀ : asks 0) :
    Confined asks sees recovers Plan.sign := (number h₀).bind fun _ => .done _

theorem squareRoot (h₀ : asks 0) : Confined asks sees recovers Plan.squareRoot :=
  (number h₀).bind fun _ => .ite (.fail rfl) (finite _)

theorem power (h₀ : asks 0) (h₁ : asks 1) : Confined asks sees recovers Plan.power :=
  (number h₀).bind fun _ => (number h₁).bind fun _ => finite _

theorem positive {function : String} (h₀ : asks 0) :
    Confined asks sees recovers (Plan.positive function) :=
  (number h₀).bind fun _ => .ite (.fail rfl) (.done _)

theorem naturalLogarithm (h₀ : asks 0) : Confined asks sees recovers Plan.naturalLogarithm :=
  (positive h₀).bind fun _ => finite _

theorem logarithm (h₀ : asks 0) (h₁ : 1 < count → asks 1) :
    Confined asks sees recovers (Plan.logarithm count) :=
  (positive h₀).bind fun _ => (numberOr h₁).bind fun _ => .ite (.fail rfl) (finite _)

theorem decimalLogarithm (h₀ : asks 0) : Confined asks sees recovers Plan.decimalLogarithm :=
  (positive h₀).bind fun _ => finite _

theorem unitInterval {function : String} (h₀ : asks 0) :
    Confined asks sees recovers (Plan.unitInterval function) :=
  (number h₀).bind fun _ => .ite (.done _) (.fail rfl)

theorem arcSine (h₀ : asks 0) : Confined asks sees recovers Plan.arcSine :=
  (unitInterval h₀).bind fun _ => finite _

theorem arcCosine (h₀ : asks 0) : Confined asks sees recovers Plan.arcCosine :=
  (unitInterval h₀).bind fun _ => finite _

theorem angle (h₀ : asks 0) (h₁ : asks 1) : Confined asks sees recovers Plan.angle :=
  (number h₀).bind fun _ => (number h₁).bind fun _ => finite _

/-! ## Aggregates -/

theorem sum (h : ∀ j < count, asks j) : Confined asks sees recovers (Plan.sum count) :=
  (items h).bind fun _ => finite _

theorem maximum (h : ∀ j < count, asks j) : Confined asks sees recovers (Plan.maximum count) :=
  (items h).bind fun _ => .done _

theorem minimum (h : ∀ j < count, asks j) : Confined asks sees recovers (Plan.minimum count) :=
  (items h).bind fun _ => .done _

theorem average (h : ∀ j < count, asks j) : Confined asks sees recovers (Plan.average count) := by
  refine (items h).bind fun vs => ?_
  split
  · exact .fail rfl
  · exact .done _

theorem averageAll (h : ∀ j < count, asks j) :
    Confined asks sees recovers (Plan.averageAll count) := by
  refine (items h).bind fun vs => ?_
  split
  · exact .fail rfl
  · exact .done _

theorem countNumbers (h : ∀ j < count, asks j) :
    Confined asks sees recovers (Plan.countNumbers count) :=
  (items h).bind fun _ => .done _

theorem countAll (h : ∀ j < count, asks j) : Confined asks sees recovers (Plan.countAll count) :=
  (items h).bind fun _ => .done _

theorem distinct (h : ∀ j < count, asks j) : Confined asks sees recovers (Plan.distinct count) :=
  (items h).bind fun _ => .done _

/-! ## Arrays -/

theorem array (h : ∀ j < count, asks j) : Confined asks sees recovers (Plan.array count) :=
  valuesFrom (fun j _ hj => h j (by omega)) fun _ => .done _

/-- The items of a range are computed from the first one and the step. -/
theorem stepsFrom {first step : Float} {before : List Value} :
    Confined asks sees recovers (Plan.stepsFrom first step count i before) := by
  induction count generalizing i before with
  | zero => exact .done _
  | succ count ih => exact .poll fun _ => ih

theorem range (h₀ : asks 0) (h₁ : asks 1) (h₂ : 2 < count → asks 2) :
    Confined asks sees recovers (Plan.range count) :=
  (number h₀).bind fun _ => (number h₁).bind fun _ => (numberOr h₂).bind fun _ =>
    .ite (refuse rfl) (.ite (.done _) (.ite (refuse rfl) stepsFrom))

theorem filter {op : OrderOp} (h₀ : asks 0) (h₁ : asks 1) :
    Confined asks sees recovers (Plan.filter op) :=
  (value h₀).bind fun _ => (value h₁).bind fun _ => .done _

/-- Looking up a value asks for the value and both arrays, and for a default only if it is not
found. -/
theorem lookUp (h₀ : asks 0) (h₁ : asks 1) (h₂ : asks 2) (h₃ : 3 < count → asks 3) :
    Confined asks sees recovers (Plan.lookUp count) := by
  refine (value h₀).bind fun key => (value h₁).bind fun keys => (value h₂).bind fun results => ?_
  refine .ite (refuse rfl) ?_
  split
  · exact .done _
  · exact (value? h₃).bind fun _ => .done _

theorem contains (h₀ : asks 0) (h₁ : asks 1) (hs : sees) :
    Confined asks sees recovers Plan.contains :=
  .askScope hs fun _ => (value h₀).bind fun _ => (value h₁).bind fun _ => .done _

/-! ## Texts -/

theorem countOr {default : Float} {function : String} (hi : i < count → asks i) :
    Confined asks sees recovers (Plan.countOr count i default function) :=
  (numberOr hi).bind fun _ => .ite (refuse rfl) (.done _)

theorem textLength (h₀ : asks 0) : Confined asks sees recovers Plan.textLength :=
  (text h₀).bind fun _ => .done _

theorem left (h₀ : asks 0) (h₁ : 1 < count → asks 1) :
    Confined asks sees recovers (Plan.left count) :=
  (text h₀).bind fun _ => (countOr h₁).bind fun _ => ofText _

theorem right (h₀ : asks 0) (h₁ : 1 < count → asks 1) :
    Confined asks sees recovers (Plan.right count) :=
  (text h₀).bind fun _ => (countOr h₁).bind fun _ => ofText _

theorem middle (h₀ : asks 0) (h₁ : asks 1) (h₂ : 2 < count → asks 2) :
    Confined asks sees recovers (Plan.middle count) :=
  (text h₀).bind fun _ => (number h₁).bind fun _ =>
    .ite (refuse rfl) ((countOr h₂).bind fun _ => ofText _)

theorem mapText {f : List Char → List Char} (h₀ : asks 0) :
    Confined asks sees recovers (Plan.mapText f) :=
  (text h₀).bind fun _ => ofText _

theorem concatenate (h : ∀ j < count, asks j) :
    Confined asks sees recovers (Plan.concatenate count) :=
  (values h).bind fun _ => .done _

theorem startOr (hi : i < count → asks i) : Confined asks sees recovers (Plan.startOr count i) :=
  (numberOr hi).bind fun _ => .ite (refuse rfl) (.done _)

theorem find (h₀ : asks 0) (h₁ : asks 1) (h₂ : 2 < count → asks 2) :
    Confined asks sees recovers (Plan.find count) :=
  (text h₀).bind fun _ => (text h₁).bind fun _ => (startOr h₂).bind fun _ => .done _

/-- A search asks for the pattern, the text and a start position, if there is one. -/
theorem search (h₀ : asks 0) (h₁ : asks 1) (h₂ : 2 < count → asks 2) :
    Confined asks sees recovers (Plan.search count) := by
  refine (text h₀).bind fun pattern => (text h₁).bind fun s => (startOr h₂).bind fun skip => ?_
  split
  · exact .done _
  · exact refuse rfl

/-- A substitution asks for the number of an occurrence only if there is something to replace. -/
theorem substitute (h₀ : asks 0) (h₁ : asks 1) (h₂ : asks 2) (h₃ : 3 < count → asks 3) :
    Confined asks sees recovers (Plan.substitute count) := by
  refine (text h₀).bind fun s => (text h₁).bind fun old => (text h₂).bind fun new => ?_
  refine .ite (ofText _) ((value? h₃).bind fun n => ?_)
  cases n with
  | none => exact ofText _
  | some v => exact (ofOutcome v.operational_asNumber).bind fun _ => .ite (refuse rfl) (ofText _)

theorem repetition (h₀ : asks 0) (h₁ : 1 < count → asks 1) :
    Confined asks sees recovers (Plan.repetition count) :=
  (text h₀).bind fun _ => (countOr h₁).bind fun _ => .ite (refuse rfl) (ofText _)

theorem pad {function : String} {join : List Char → List Char → List Char} (h₀ : asks 0)
    (h₁ : 1 < count → asks 1) (h₂ : 2 < count → asks 2) :
    Confined asks sees recovers (Plan.pad count function join) :=
  (text h₀).bind fun _ => (countOr h₁).bind fun _ =>
    .ite (refuse rfl) ((value? h₂).bind fun _ => ofText _)

theorem character (h₀ : asks 0) : Confined asks sees recovers Plan.character := by
  refine (number h₀).bind fun code => ?_
  split
  · exact ofText _
  · exact refuse rfl

theorem numericValue (h₀ : asks 0) : Confined asks sees recovers Plan.numericValue := by
  refine .argument h₀ fun v => ?_
  split
  · exact .done _
  · exact .done _
  · exact (ofOutcome (Value.operational_asNumber _)).bind fun _ => .done _

/-! ## All built-in functions -/

/-- A built-in function works on the values of its arguments.  With a right number of arguments it
asks for none that is missing, only contextual functions see the scope, and only `ValueOr` goes on
without an argument. -/
theorem ofBuiltin (b : Builtin) (count : Nat) :
    Confined (fun i => b.arity.accepts count = true → i < count) (b.isContextual = true)
      (b = .valueOr) (b.plan count) := by
  have needed : ∀ i, i < b.arity.min → b.arity.accepts count = true → i < count :=
    fun i hi h => Nat.lt_of_lt_of_le hi (Arity.min_le_of_accepts h)
  have given : ∀ i, i < count → b.arity.accepts count = true → i < count := fun i hi _ => hi
  cases b with
  | and => exact truthUntil fun j _ hj => given j (by omega)
  | or => exact truthUntil fun j _ hj => given j (by omega)
  | not => exact negation (needed 0 (by decide))
  | choice => exact choice (needed 0 (by decide)) (needed 1 (by decide)) (given 2)
  | constant b => exact .done _
  | valueOr => exact valueOr rfl (needed 0 (by decide)) (given 1)
  | abs => exact absolute (needed 0 (by decide))
  | ceiling => exact ceiling (needed 0 (by decide)) (given 1)
  | floor => exact floor (needed 0 (by decide)) (given 1)
  | int => exact real (needed 0 (by decide))
  | round => exact toPlaces (needed 0 (by decide)) (given 1)
  | trunc => exact toPlaces (needed 0 (by decide)) (given 1)
  | sign => exact sign (needed 0 (by decide))
  | sqrt => exact squareRoot (needed 0 (by decide))
  | power => exact power (needed 0 (by decide)) (needed 1 (by decide))
  | exp => exact real (needed 0 (by decide))
  | ln => exact naturalLogarithm (needed 0 (by decide))
  | log => exact logarithm (needed 0 (by decide)) (given 1)
  | log10 => exact decimalLogarithm (needed 0 (by decide))
  | pi => exact .done _
  | sin => exact real (needed 0 (by decide))
  | cos => exact real (needed 0 (by decide))
  | tan => exact real (needed 0 (by decide))
  | asin => exact arcSine (needed 0 (by decide))
  | acos => exact arcCosine (needed 0 (by decide))
  | atan => exact real (needed 0 (by decide))
  | atan2 => exact angle (needed 0 (by decide)) (needed 1 (by decide))
  | sum => exact sum given
  | max => exact maximum given
  | min => exact minimum given
  | average => exact average given
  | averageAll => exact averageAll given
  | count => exact countNumbers given
  | countAll => exact countAll given
  | distinct => exact distinct given
  | length => exact textLength (needed 0 (by decide))
  | left => exact left (needed 0 (by decide)) (given 1)
  | right => exact right (needed 0 (by decide)) (given 1)
  | middle => exact middle (needed 0 (by decide)) (needed 1 (by decide)) (given 2)
  | upper => exact mapText (needed 0 (by decide))
  | lower => exact mapText (needed 0 (by decide))
  | trim => exact mapText (needed 0 (by decide))
  | concatenate => exact concatenate given
  | find => exact find (needed 0 (by decide)) (needed 1 (by decide)) (given 2)
  | search => exact search (needed 0 (by decide)) (needed 1 (by decide)) (given 2)
  | substitute =>
    exact substitute (needed 0 (by decide)) (needed 1 (by decide)) (needed 2 (by decide)) (given 3)
  | repetition => exact repetition (needed 0 (by decide)) (given 1)
  | character => exact character (needed 0 (by decide))
  | value => exact numericValue (needed 0 (by decide))
  | padLeft => exact pad (needed 0 (by decide)) (given 1) (given 2)
  | padRight =>
    unfold Builtin.plan
    exact pad (needed 0 (by decide)) (given 1) (given 2)
  | array => exact array given
  | range => exact range (needed 0 (by decide)) (needed 1 (by decide)) (given 2)
  | lookUp =>
    exact lookUp (needed 0 (by decide)) (needed 1 (by decide)) (needed 2 (by decide)) (given 3)
  | contains =>
    exact contains (needed 0 (by decide)) (needed 1 (by decide)) (decide_eq_true rfl)
  | filter op short => exact filter (needed 0 Nat.zero_lt_two) (needed 1 Nat.one_lt_two)

end Formula.Plan.Confined
