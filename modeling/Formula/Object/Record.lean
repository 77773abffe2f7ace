import Formula.Text.Case
import Formula.Value.Basic

/-!
# Records

The members of a record stand in the order in which their names were first written.  Two names are
the same when their lower-case forms are, and a member keeps its first spelling.
-/

namespace Formula.Record

variable {α : Type}

/-- Whether a member has a name, given in lower case. -/
def hasName (lower : String) (m : Member α) : Bool := Text.lowercase m.name == lower

/-- The member with a name. -/
def find? (r : Record α) (name : String) : Option (Member α) :=
  r.members.find? (hasName (Text.lowercase name))

/-- The value of the member with a name. -/
def get? (r : Record α) (name : String) : Option α := (r.find? name).map (·.value)

/-- Changes the first member that passes a test; none if no member passes it. -/
def modify? (test : Member α → Bool) (f : Member α → Member α) :
    List (Member α) → Option (List (Member α))
  | [] => none
  | m :: ms => if test m then some (f m :: ms) else (modify? test f ms).map (m :: ·)

/-- Sets a member.  One that is there already keeps its spelling and its placeholder. -/
def set (r : Record α) (name : String) (value : α) : Record α :=
  match modify? (hasName (Text.lowercase name)) (fun m => { m with value }) r.members with
  | some members => { r with members }
  | none => { r with members := r.members ++ [{ name, value }] }

/-- Sets a member together with its placeholder. -/
def setWithPlaceholder (r : Record α) (name : String) (value placeholder : α) : Record α :=
  let r := r.set name value
  match modify? (hasName (Text.lowercase name))
      (fun m => { m with placeholder := some placeholder }) r.members with
  | some members => { r with members }
  | none => r

/-- The names of the members, in order. -/
def names (r : Record α) : List String := r.members.map (·.name)

end Formula.Record
