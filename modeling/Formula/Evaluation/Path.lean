import Formula.Evaluation.Eval
import Formula.Expr.Basic

/-!
# Paths into the data

A path is resolved step by step from the data context: each step reads a member, and an item of it
if keys are given.  A member of an array is the array of that member of its items.  What cannot be
resolved is an error in strict mode, an absent value in lenient mode, and in validation it is
replaced by placeholders where the data have them.
-/

namespace Formula

/-- What the steps of a path need to know about it. -/
structure PathSite where
  /-- The number of the path. -/
  id : Nat
  /-- The path as written. -/
  text : String
  /-- The steps as printed. -/
  labels : Unit → List String

namespace PathSite

variable {α : Type}

/-- Fails at a step. -/
def fail (p : PathSite) (i : Nat) (problem : BindingProblem) : Eval α :=
  throw (.binding ⟨problem, p.text, p.labels (), i⟩)

/-! ## Members -/

/-- The handle of a member: the one that the step remembers for the type of the object, or else the
one that the object finds, which is remembered. -/
def handle (p : PathSite) (i : Nat) (name : String) (c : Contents Value) : Eval Handle := do
  match (← get).memo.get? (p.id, i) c.typeName with
  | some handle => return handle
  | none =>
    match c.findMember? name with
    | some handle =>
      modify fun s => { s with memo := s.memo.remember (p.id, i) c.typeName handle }
      return handle
    | none => p.fail i (.unknownMember name c.typeName)

/-- A member of an object. -/
def objectMember (p : PathSite) (i : Nat) (name : String) (c : Contents Value) : Eval Value := do
  match c.member? (← p.handle i name c) with
  | some v => return v
  | none => p.fail i (.unknownMember name c.typeName)

/-- Whether a name is one of those that stand for the length of an array. -/
def isLengthName (name : String) : Bool :=
  Text.equalIgnoringAsciiCase name "count" || Text.equalIgnoringAsciiCase name "length"

mutual

/-- The member that a step reads from a value. -/
def member (p : PathSite) (i : Nat) (name : String) : Value → Eval Value
  | .object o => p.objectMember i name o.contents
  | .text s =>
    if Text.equalIgnoringAsciiCase name "length" then return .ofNat s.length
    else p.fail i (.unknownMember name Kind.text.name)
  | .array items =>
    if isLengthName name then return .ofNat items.length
    else do
      let vs ← members p i name [] items
      return .array vs
  | v => p.fail i (.unknownMember name v.kind.name)

/-- The members that a step reads from the items of an array; absent items stay absent.  `before`
are the members of the items before them, last first. -/
def members (p : PathSite) (i : Nat) (name : String) (before : List Value) :
    List Value → Eval (List Value)
  | [] => return before.reverse
  | .empty :: items => members p i name (.empty :: before) items
  | item :: items => do
    let v ← member p i name item
    members p i name (v :: before) items

end

/-- What stands in for a member of a value that is absent. -/
def memberPlaceholder? (name : String) : Value → Option Value
  | .object o => (o.contents.findMember? name).bind o.contents.memberPlaceholder?
  | _ => none

/-! ## Items -/

/-- Keys as text. -/
def keysText (keys : List Value) : String := "; ".intercalate (keys.map Value.toText)

/-- The item of an array at a position. -/
def arrayItem (p : PathSite) (i : Nat) (name : String) (items keys : List Value) : Eval Value := do
  match keys with
  | [key] =>
    let x ← Eval.ofOutcome key.asNumber
    let found := if 0 ≤ x && Number.isWhole x then items[Number.toCount x]? else none
    match found with
    | some v => return v
    | none => p.fail i (.noPosition name (Number.plain x) items.length)
  | _ => p.fail i (.notIndexable name "Array")

/-- Keys converted to the kind that an object wants. -/
def coerceKeys (c : Contents Value) (keys : List Value) : Except ConversionError (List Value) :=
  match c.keyKind? with
  | some kind => keys.mapM (·.coerce kind)
  | none => .ok keys

/-- The item of an object under some keys. -/
def objectItem (p : PathSite) (i : Nat) (name : String) (c : Contents Value) (keys : List Value) :
    Eval Value := do
  match coerceKeys c keys with
  | .error e => throw (.argument (.conversion e))
  | .ok keys =>
    match c.indexed? keys with
    | some v => return v
    | none =>
      match c.shape with
      | .plain => p.fail i (.notIndexable name c.typeName)
      | .sequence => p.fail i (.noItem name c.describe (keysText keys))
      | .dictionary =>
        match c.elementPlaceholder?, (← read).mode.throws with
        | some placeholder, false => return placeholder
        | _, _ => p.fail i (.missingKey name c.describe (keysText keys))

/-- What stands in for the items of a value. -/
def elementPlaceholder : Value → Value
  | .object o => o.contents.elementPlaceholder?.getD .empty
  | _ => .empty

/-- The item that a step takes from the value of its member. -/
def item (p : PathSite) (i : Nat) (name : String) (v : Value) (keys : List Value) : Eval Value := do
  if (← read).mode = .validation then return elementPlaceholder v
  else
    match v with
    | .array items => p.arrayItem i name items keys
    | .object o => p.objectItem i name o.contents keys
    | .empty => p.fail i .nullValue
    | v => p.fail i (.notIndexable name v.kind.name)

/-! ## Whole paths -/

/-- The value that one step leads to from a value that is not absent. -/
def step (p : PathSite) (i : Nat) (s : Step (Eval Value)) (v : Value) : Eval Value := do
  let m ← p.member i s.name v
  let m :=
    if m.isEmpty && (← read).mode == .validation then (memberPlaceholder? s.name v).getD m else m
  match s.keys with
  | [] => return m
  | keys =>
    let keys ← Eval.all keys
    p.item i s.name m keys

/-- The value that some steps lead to, the first of which is number `i`. -/
def walk (p : PathSite) (i : Nat) (v : Value) : List (Step (Eval Value)) → Eval Value
  | [] => return v
  | s :: steps => do
    if v.isEmpty then
      if (← read).mode = .validation then return .empty else p.fail i .nullValue
    else
      let v ← p.step i s v
      p.walk (i + 1) v steps

/-- Whether a mode puts up with a problem, so that the path gives an absent value. -/
def isTolerated (mode : Mode) (kind : BindingKind) : Bool :=
  match mode with
  | .strict => false
  | .lenient => true
  | .validation => kind != .unknownMember

/-- The value of a path. -/
def resolve (p : PathSite) (steps : List (Step (Eval Value))) : Eval Value := do
  let run ← read
  tryCatch
    (match run.scope.context with
    | some root => p.walk 0 root steps
    | none => p.fail 0 .noDataContext)
    fun
      | .binding e => if isTolerated run.mode e.kind then return .empty else throw (.binding e)
      | e => throw e

end PathSite

end Formula
