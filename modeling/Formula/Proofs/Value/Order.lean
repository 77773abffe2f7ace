import Formula.Proofs.Number.Order
import Formula.Value.Operator

/-!
# Order and equality of values

Exchanged values compare the other way round (`compare?_swap`), and so the six operators that
compare two values agree with each other (`comparison_coherent`).  The equality of the language
holds of all values that are structurally the same; it does not depend on the order of the two, and
all but what is not a number is equal to itself (`equal_extends_same`).
-/

namespace Formula

theorem Decimal.compare_swap (a b : Decimal) : b.compare a = (a.compare b).swap := by
  unfold compare
  rw [Nat.max_comm, Int.compare_swap]

theorem Decimal.compare_self (a : Decimal) : a.compare a = .eq := Std.compare_self

theorem DateTime.compare_swap (a b : DateTime) : b.compare a = (a.compare b).swap := by
  unfold compare
  rw [Ordering.swap_then, Ordering.swap_then, Int.compare_swap, Nat.compare_swap, Nat.compare_swap]

/-- A date compares as equal with itself. -/
theorem DateTime.compare_self (a : DateTime) : a.compare a = .eq := by
  unfold compare
  rw [Std.compare_self, Std.compare_self, Std.compare_self]
  rfl

namespace Value

/-! ## Order -/

/-- Comparing numbers the other way gives the opposite order. -/
theorem compareNumbers_swap (a b : Value) :
    compareNumbers b a = (compareNumbers a b).map Ordering.swap := by
  unfold compareNumbers
  cases a.toNumber? with
  | none => cases b.toNumber? <;> rfl
  | some x =>
    cases b.toNumber? with
    | none => rfl
    | some y => exact Number.compare?_swap x y

/-- Comparing with text gives an order that may be turned round twice. -/
theorem swap_compareTextWith (s : String) (v : Value) :
    compareTextWith s v = ((compareTextWith s v).map Ordering.swap).map Ordering.swap := by
  cases compareTextWith s v with
  | none => rfl
  | some o => exact congrArg some o.swap_swap.symm

/-- Values compare the other way round when they are exchanged. -/
theorem compare?_swap (a b : Value) : compare? b a = (compare? a b).map Ordering.swap := by
  have htext : ∀ s t : String, compare t s = (compare s t).swap :=
    fun s t => Std.OrientedOrd.eq_swap
  have hnumbers := compareNumbers_swap a b
  cases a with
  | array | object => cases b <;> rfl
  | dateTime d =>
    cases b with
    | dateTime d' => exact congrArg some (d.compare_swap d')
    | _ => rfl
  | text s =>
    cases b with
    | text t => exact congrArg some (htext s t)
    | empty => exact congrArg some (htext s "")
    | boolean => exact hnumbers
    | _ => rfl
  | empty =>
    cases b with
    | text t => exact congrArg some (htext "" t)
    | number | decimal | boolean => exact hnumbers
    | _ => rfl
  | boolean p =>
    cases b with
    | boolean q => exact congrArg some Std.OrientedOrd.eq_swap
    | empty | number | decimal | text => exact hnumbers
    | _ => rfl
  | number x =>
    cases b with
    | text t => exact swap_compareTextWith t (number x)
    | empty | number | decimal | boolean => exact hnumbers
    | _ => rfl
  | decimal d =>
    cases b with
    | decimal d' => exact congrArg some (d.compare_swap d')
    | text t => exact swap_compareTextWith t (decimal d)
    | empty | number | boolean => exact hnumbers
    | _ => rfl

/-- Two values are compared for equality by their order, unless both are arrays or objects. -/
theorem equal_cases (a b : Value) :
    equal a b = (compare? a b == some .eq) ∨ (∃ as bs, a = array as ∧ b = array bs) ∨
      ∃ o o', a = object o ∧ b = object o' := by
  cases a with
  | array as =>
    cases b with
    | array bs => exact .inr (.inl ⟨as, bs, rfl, rfl⟩)
    | _ => exact .inl rfl
  | object o =>
    cases b with
    | object o' => exact .inr (.inr ⟨o, o', rfl, rfl⟩)
    | _ => exact .inl rfl
  | _ => exact .inl rfl

/-- Two values that compare are equal if they compare as equal. -/
theorem equal_of_compare? {a b : Value} {o : Ordering} (h : compare? a b = some o) :
    equal a b = (o == .eq) := by
  rcases equal_cases a b with hequal | ⟨as, bs, rfl, rfl⟩ | ⟨o, o', rfl, rfl⟩
  · rw [hequal, h]
    cases o <;> rfl
  · cases h
  · cases h

theorem applyOrder_of_compare? (op : OrderOp) {a b : Value} {o : Ordering}
    (h : compare? a b = some o) : applyBinary (.order op) a b = .ok (boolean (op.holds o)) := by
  show applyOrder op a b = _
  rw [applyOrder, h]

theorem applyOrder_of_compare?_none (op : OrderOp) {a b : Value} (h : compare? a b = none) :
    applyBinary (.order op) a b = .error (.evaluation (.notComparable a.kind b.kind)) := by
  show applyOrder op a b = _
  rw [applyOrder, h]

/-- What the operators say of two values that compare: exactly one of less than, equal to and
greater than holds, and the other three operators are made up of these. -/
structure Compares (a b : Value) (less equal greater : Bool) : Prop where
  less_eq : applyBinary (.order .less) a b = .ok (boolean less)
  equal_eq : applyBinary .equal a b = .ok (boolean equal)
  greater_eq : applyBinary (.order .greater) a b = .ok (boolean greater)
  exactly_one : [less, equal, greater].count true = 1
  lessEqual_eq : applyBinary (.order .lessEqual) a b = .ok (boolean (less || equal))
  greaterEqual_eq : applyBinary (.order .greaterEqual) a b = .ok (boolean (greater || equal))
  notEqual_eq : applyBinary .notEqual a b = .ok (boolean (!equal))

/-- What the operators say of two values that do not compare: those that order them fail in both
directions, and only two arrays or one object can be equal. -/
structure Incomparable (a b : Value) : Prop where
  order_eq : ∀ op : OrderOp,
    applyBinary (.order op) a b = .error (.evaluation (.notComparable a.kind b.kind)) ∧
    applyBinary (.order op) b a = .error (.evaluation (.notComparable b.kind a.kind))
  equal_eq : (∃ as bs, a = array as ∧ b = array bs) ∨
    (∃ o o', a = object o ∧ b = object o' ∧ o.id = o'.id) ∨
    applyBinary .equal a b = .ok (boolean false)

/-- All operators agree with the order of two values that compare. -/
theorem compares_of_compare? {a b : Value} {o : Ordering} (h : compare? a b = some o) :
    Compares a b (o == .lt) (o == .eq) (o == .gt) := by
  have hequal := equal_of_compare? h
  refine ⟨applyOrder_of_compare? .less h, ?_, applyOrder_of_compare? .greater h, ?_, ?_, ?_, ?_⟩
  · exact congrArg (fun e => Except.ok (boolean e)) hequal
  · cases o <;> rfl
  · rw [applyOrder_of_compare? .lessEqual h]
    cases o <;> rfl
  · rw [applyOrder_of_compare? .greaterEqual h]
    cases o <;> rfl
  · exact congrArg (fun e => Except.ok (boolean (!e))) hequal

/-- Values that do not compare do so in neither direction. -/
theorem incomparable_of_compare? {a b : Value} (h : compare? a b = none) : Incomparable a b := by
  have hswap : compare? b a = none := by
    rw [compare?_swap, h]
    rfl
  refine ⟨fun op => ⟨applyOrder_of_compare?_none op h, applyOrder_of_compare?_none op hswap⟩, ?_⟩
  rcases equal_cases a b with hequal | harrays | ⟨o, o', rfl, rfl⟩
  · rw [h] at hequal
    exact .inr (.inr (congrArg (fun e => Except.ok (boolean e)) hequal))
  · exact .inl harrays
  · -- Objects are compared by their identity.
    by_cases hid : o.id = o'.id
    · exact .inr (.inl ⟨o, o', rfl, rfl, hid⟩)
    · exact .inr (.inr (congrArg (fun e => Except.ok (boolean e)) (beq_false_of_ne hid)))

/-- The six operators that compare two values are one order: exchanged values compare the other way
round, and the operators agree with each other both where two values compare and where they do
not. -/
theorem comparison_coherent (a b : Value) :
    compare? b a = (compare? a b).map Ordering.swap ∧
    (compare? a b ≠ none → ∃ less equal greater, Compares a b less equal greater) ∧
    (compare? a b = none → Incomparable a b) := by
  refine ⟨compare?_swap a b, fun h => ?_, incomparable_of_compare?⟩
  obtain ⟨o, ho⟩ := Option.ne_none_iff_exists'.mp h
  exact ⟨_, _, _, compares_of_compare? ho⟩

/-- Text that reads as a number compares with one, and other text does not compare with a truth
value. -/
theorem comparison_coherent_ten :
    (compare? (text "10") (number 9) ≠ none ∧
      ∃ less equal greater, Compares (text "10") (number 9) less equal greater) ∧
    compare? (text "ten") (boolean true) = none ∧ Incomparable (text "ten") (boolean true) := by
  have hten : compare? (text "10") (number 9) ≠ none := by decide +kernel
  have hword : compare? (text "ten") (boolean true) = none := by decide +kernel
  exact ⟨⟨hten, (comparison_coherent _ _).2.1 hten⟩, hword, (comparison_coherent _ _).2.2 hword⟩

/-! ## Equality -/

mutual

/-- What holds of all values but arrays, and of an array if it holds of its items, holds of all
values. -/
theorem induct {motive : Value → Prop} (atom : ∀ v : Value, v.kind ≠ .array → motive v)
    (array : ∀ items, (∀ v ∈ items, motive v) → motive (array items)) : ∀ v : Value, motive v
  | .array items => array items (induct_items atom array items)
  | .empty | .number _ | .decimal _ | .text _ | .boolean _ | .dateTime _ | .object _ => by
    refine atom _ fun h => ?_
    cases h

theorem induct_items {motive : Value → Prop} (atom : ∀ v : Value, v.kind ≠ .array → motive v)
    (array : ∀ items, (∀ v ∈ items, motive v) → motive (.array items)) :
    ∀ items : List Value, ∀ v ∈ items, motive v
  | [] => List.forall_mem_nil _
  | item :: items =>
    List.forall_mem_cons.mpr ⟨induct atom array item, induct_items atom array items⟩

end

/-- Lists are equal in either order if their items are. -/
theorem equalItems_comm {as : List Value} (h : ∀ a ∈ as, ∀ b, equal a b = equal b a)
    (bs : List Value) : equalItems as bs = equalItems bs as := by
  induction as generalizing bs with
  | nil => cases bs <;> rfl
  | cons a as ih =>
    cases bs with
    | nil => rfl
    | cons b bs =>
      obtain ⟨ha, has⟩ := List.forall_mem_cons.mp h
      unfold equalItems
      rw [ha b, ih has bs]

/-- Equality does not depend on the order of the two values. -/
theorem equal_comm (a b : Value) : equal a b = equal b a := by
  induction a using induct generalizing b with
  | atom a ha =>
    rcases equal_cases a b with hab | ⟨as, bs, rfl, rfl⟩ | ⟨o, o', rfl, rfl⟩
    · rcases equal_cases b a with hba | ⟨as, bs, rfl, rfl⟩ | ⟨o, o', rfl, rfl⟩
      · rw [hab, hba, compare?_swap a b]
        cases compare? a b with
        | none => rfl
        | some o => cases o <;> rfl
      · exact absurd rfl ha
      · exact Bool.beq_comm
    · exact absurd rfl ha
    · exact Bool.beq_comm
  | array as ih =>
    cases b with
    | array bs => exact equalItems_comm ih bs
    | _ => rfl

mutual

/-- Whether something that is not a number stands in a value, or in an array in it. -/
def hasNaN : Value → Bool
  | number x => x.isNaN
  | array items => anyHasNaN items
  | _ => false

/-- Whether something that is not a number stands in one of some values. -/
def anyHasNaN : List Value → Bool
  | [] => false
  | v :: vs => hasNaN v || anyHasNaN vs

end

/-- A list is equal to itself unless NaN is in it. -/
theorem equalItems_self {vs : List Value} (h : ∀ v ∈ vs, equal v v = !hasNaN v) :
    equalItems vs vs = !anyHasNaN vs := by
  induction vs with
  | nil => rfl
  | cons v vs ih =>
    obtain ⟨hv, hvs⟩ := List.forall_mem_cons.mp h
    unfold equalItems anyHasNaN
    rw [hv, ih hvs, Bool.not_or]

/-- A value is equal to itself, unless something that is not a number stands in it. -/
theorem equal_self (v : Value) : equal v v = !hasNaN v := by
  induction v using induct with
  | array items ih => exact equalItems_self ih
  | atom v hv =>
    cases v with
    | array => exact absurd rfl hv
    | object o => exact beq_self_eq_true o.id
    | empty => rfl
    | number x =>
      show (Number.compare? x x == some .eq) = !x.isNaN
      rw [Number.compare?_self]
      cases x.isNaN <;> rfl
    | decimal d =>
      show (some (d.compare d) == some .eq) = true
      rw [d.compare_self]
      rfl
    | text s =>
      show (some (compare s s) == some .eq) = true
      rw [Std.compare_self]
      rfl
    | boolean b => cases b <;> rfl
    | dateTime d =>
      show (some (d.compare d) == some .eq) = true
      rw [d.compare_self]
      rfl

/-- Lists of the same items are equal if values that are the same are equal. -/
theorem equalItems_of_sameItems {as bs : List Value}
    (h : ∀ a ∈ as, ∀ {b}, same a b = true → equal a b = true) (hsame : sameItems as bs = true) :
    equalItems as bs = true := by
  induction as generalizing bs with
  | nil =>
    cases bs with
    | nil => rfl
    | cons => cases hsame
  | cons a as ih =>
    cases bs with
    | nil => cases hsame
    | cons b bs =>
      obtain ⟨ha, has⟩ := List.forall_mem_cons.mp h
      unfold sameItems at hsame
      unfold equalItems
      rw [Bool.and_eq_true] at hsame ⊢
      exact ⟨ha hsame.1, ih has hsame.2⟩

/-- Values that are the same are equal. -/
theorem equal_of_same {a b : Value} (h : same a b = true) : equal a b = true := by
  induction a using induct generalizing b with
  | array as ih =>
    cases b with
    | array bs => exact equalItems_of_sameItems ih h
    | _ => cases h
  | atom a ha =>
    cases a with
    | array => exact absurd rfl ha
    | empty =>
      cases b with
      | empty => rfl
      | _ => cases h
    | number x =>
      cases b with
      | number y => exact beq_iff_eq.mpr (Number.compare?_eq_some_eq_iff.mpr h)
      | _ => cases h
    | decimal d =>
      cases b with
      | decimal d' => exact beq_iff_eq.mpr (congrArg some (beq_iff_eq.mp h))
      | _ => cases h
    | text s =>
      cases b with
      | text t =>
        obtain rfl : s = t := beq_iff_eq.mp h
        exact equal_self (text s)
      | _ => cases h
    | boolean p =>
      cases b with
      | boolean q =>
        obtain rfl : p = q := beq_iff_eq.mp h
        exact equal_self (boolean p)
      | _ => cases h
    | dateTime d =>
      cases b with
      | dateTime d' =>
        obtain rfl : d = d' := beq_iff_eq.mp h
        exact equal_self (dateTime d)
      | _ => cases h
    | object o =>
      cases b with
      | object o' => exact h
      | _ => cases h

/-- The equality of the language holds of values that are structurally the same, does not depend on
the order of the two, and holds of a value and itself if everything in it is a number that is meant
to be one. -/
theorem equal_extends_same (a b : Value) :
    (same a b = true → equal a b = true) ∧ equal a b = equal b a ∧
      (hasNaN a = false → equal a a = true) := by
  refine ⟨equal_of_same, equal_comm a b, fun h => ?_⟩
  rw [equal_self, h]
  rfl

/-- Nested arrays that are the same, with a decimal written with another scale and a zero of the
other sign. -/
theorem equal_extends_same_nested :
    let a := array [decimal .one, text "1", array [number 0, empty]]
    let one : Decimal := ⟨false, 10, 1, by decide, by decide⟩
    let b := array [decimal one, text "1", array [number (-0), empty]]
    same a b = true ∧ hasNaN a = false ∧
      equal a b = true ∧ equal b a = true ∧ equal a a = true := by
  intro a one b
  have hsame : same a b = true := by decide +kernel
  have hnumbers : hasNaN a = false := by decide +kernel
  obtain ⟨hequal, hcomm, hself⟩ := equal_extends_same a b
  exact ⟨hsame, hnumbers, hequal hsame, hcomm ▸ hequal hsame, hself hnumbers⟩

end Value

end Formula
