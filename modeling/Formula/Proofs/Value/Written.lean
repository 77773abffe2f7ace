import Formula.Expr.Text
import Formula.Proofs.Calendar.Written
import Formula.Value.Order

/-!
# Values written as literals

Finite numbers, texts, truth values, dates and arrays of such values can be written as literals
(`Value.HasLiteral`).  What is written for a value shows it all but for fractions of a second
(`Value.shown`).
-/

namespace Formula.Value

/-- Whether a value can be written as a literal. -/
inductive HasLiteral : Value → Prop where
  | number {x : Float} : x.isFinite = true → HasLiteral (.number x)
  | text (s : String) : HasLiteral (.text s)
  | boolean (b : Bool) : HasLiteral (.boolean b)
  | dateTime (d : DateTime) : HasLiteral (.dateTime d)
  | array {items : List Value} : (∀ v ∈ items, HasLiteral v) → HasLiteral (.array items)

/-! ## What is shown -/

mutual

/-- The value that is shown by what is written for a value. -/
def shown : Value → Value
  | dateTime d => dateTime d.shown
  | array items => array (shownItems items)
  | v => v

/-- The items that are shown by what is written for an array. -/
def shownItems : List Value → List Value
  | [] => []
  | v :: vs => shown v :: shownItems vs

end

/-- If a list is the same both as some items and as what is shown of them, nothing is left out in
any. -/
theorem shownItems_eq_of_same {vs ws : List Value}
    (hvs : ∀ v ∈ vs, ∀ {w : Value}, w.same v.shown = true → w.same v = true → v.shown = v)
    (h : sameItems ws (shownItems vs) = true) (h' : sameItems ws vs = true) :
    shownItems vs = vs := by
  induction vs generalizing ws with
  | nil => rfl
  | cons v vs ih =>
    obtain ⟨hv, hvs⟩ := List.forall_mem_cons.mp hvs
    cases ws with
    | nil => cases h
    | cons w ws =>
      rw [shownItems] at h ⊢
      rw [sameItems, Bool.and_eq_true] at h h'
      rw [hv h.1 h'.1, ih hvs h.2 h'.2]

/-- Where something is the same both as a value and as what is shown of it, nothing is left out. -/
theorem shown_eq_of_same {v w : Value} (hv : v.HasLiteral) (h : w.same v.shown = true)
    (h' : w.same v = true) : v.shown = v := by
  induction hv generalizing w with
  | number | text | boolean => rfl
  | dateTime d =>
    rw [shown] at h ⊢
    cases w with
    | dateTime d' =>
      rw [same, beq_iff_eq] at h h'
      rw [← h, h']
    | _ => cases h
  | array _ ih =>
    rw [shown] at h ⊢
    cases w with
    | array ws =>
      rw [same] at h h'
      rw [shownItems_eq_of_same ih h h']
    | _ => cases h

/-! ## What is written -/

section
variable (style : LiteralStyle)

mutual

/-- What was written before stays in front of a literal. -/
theorem writeLiteral_append (before before' : String) : (v : Value) →
    writeLiteral style (before ++ before') v = before ++ writeLiteral style before' v
  | text _ | dateTime _ | empty | number _ | decimal _ | boolean _ | object _ => by
    simp only [writeLiteral, String.append_assoc]
  | array items => by
    simp only [writeLiteral, String.append_assoc]
    rw [writeLiterals_append, String.append_assoc]

/-- So it does in front of the items of an array. -/
theorem writeLiterals_append (before before' : String) : (items : List Value) →
    writeLiterals style (before ++ before') items = before ++ writeLiterals style before' items
  | [] => rfl
  | [item] => by rw [writeLiterals, writeLiterals, writeLiteral_append]
  | item :: item' :: rest => by
    simp only [writeLiterals]
    rw [writeLiteral_append, String.append_assoc, writeLiterals_append]

end

end

/-- The items of an array as they are written. -/
def itemsText (items : List Value) : List Char := (writeLiterals .source "" items).toList

/-- The items are written one after another, with a comma and a blank between them. -/
theorem itemsText_cons_cons (v v' : Value) (vs : List Value) :
    itemsText (v :: v' :: vs) = v.literalText.toList ++ ',' :: ' ' :: itemsText (v' :: vs) := by
  have hwritten : writeLiterals .source "" (v :: v' :: vs) =
      v.literalText ++ ", " ++ writeLiterals .source "" (v' :: vs) := by
    rw [writeLiterals, ← writeLiterals_append, String.append_empty]
    · rfl
    · exact nofun
  rw [itemsText, hwritten]
  simp [itemsText]

/-- An array is written as a call of the function that makes one. -/
theorem literalText_array (items : List Value) : (array items).literalText.toList =
    "Array".toList ++ '(' :: (itemsText items ++ [')']) := by
  have hwritten : (array items).literalText =
      "Array(" ++ writeLiterals .source "" items ++ ")" := by
    rw [literalText, writeLiteral, ← writeLiterals_append, String.append_empty, String.empty_append]
    rfl
  rw [hwritten]
  simp [itemsText]

theorem literalText_boolean (b : Bool) : (boolean b).literalText = boolText b := by
  simp [literalText, writeLiteral, toText, write]

end Formula.Value
