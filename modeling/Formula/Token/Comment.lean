/-!
# Comments

A comment starts with a slash and an asterisk and ends with the first asterisk and slash after them.
What has no end is no comment.
-/

namespace Formula

/-- What follows the first end of a comment. -/
def afterCommentEnd? : List Char → Option (List Char)
  | [] => none
  | '*' :: '/' :: rest => some rest
  | _ :: rest => afterCommentEnd? rest

theorem length_lt_of_afterCommentEnd? {text rest : List Char}
    (h : afterCommentEnd? text = some rest) : rest.length < text.length := by
  fun_induction afterCommentEnd? text with
  | case1 => simp at h
  | case2 body =>
    cases h
    simp only [List.length_cons]
    omega
  | case3 c body _ ih =>
    have := ih h
    simp only [List.length_cons]
    omega

/-- The text without its comments. -/
def stripComments (text : List Char) : List Char :=
  match text with
  | [] => []
  | '/' :: '*' :: body =>
    match _h : afterCommentEnd? body with
    | some rest => stripComments rest
    | none => text
  | c :: rest => c :: stripComments rest
termination_by text.length
decreasing_by
  · have := length_lt_of_afterCommentEnd? _h
    simp only [List.length_cons]
    omega
  · simp

end Formula
