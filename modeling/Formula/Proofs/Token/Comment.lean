import Formula.Token.Comment

/-!
# Comments that were put in

`Commented` is the other direction of leaving out comments: one text is another with comments put
in.  Leaving them out gives back the other text, unless that holds the start of a comment of its own
(`stripComments_of_commented`).  A text is left as it is only if it has no comment
(`stripComments_eq_self_iff`), and else its first comment is cut out (`stripComments_append`).
-/

namespace Formula

/-- Whether one text is another with comments put in, none of which ends before its end. -/
inductive Commented : List Char → List Char → Prop where
  | nil : Commented [] []
  | cons {u w : List Char} (c : Char) : Commented u w → Commented (c :: u) (c :: w)
  | comment {body u w : List Char} : ¬ ['*', '/'] <:+: body → Commented u w →
      Commented ('/' :: '*' :: (body ++ '*' :: '/' :: u)) w

namespace Commented

variable {u u' w w' body : List Char}

theorem refl (w : List Char) : Commented w w := by
  induction w with
  | nil => exact .nil
  | cons c w ih => exact .cons c ih

/-- Comments may be put into both parts of a text. -/
theorem append (h : Commented u w) (h' : Commented u' w') : Commented (u ++ u') (w ++ w') := by
  induction h with
  | nil => exact h'
  | cons c _ ih => exact .cons c ih
  | comment hbody _ ih =>
    rw [List.cons_append, List.cons_append, List.append_assoc]
    exact .comment hbody ih

/-- A comment put behind a text. -/
theorem behind (h : Commented u w) (hbody : ¬ ['*', '/'] <:+: body) :
    Commented (u ++ '/' :: '*' :: (body ++ ['*', '/'])) w := by
  have hall := h.append (.comment hbody .nil)
  rwa [List.append_nil] at hall

/-- What starts with an asterisk has it from the text without comments. -/
theorem head?_eq (h : Commented u w) (hu : u.head? = some '*') : w.head? = some '*' := by
  cases h with
  | nil => cases hu
  | cons => exact hu
  | comment => cases hu

end Commented

/-! ## Leaving them out -/

/-- A comment ends at its first closing mark. -/
theorem afterCommentEnd?_append {body : List Char} (h : ¬ ['*', '/'] <:+: body) (rest : List Char) :
    afterCommentEnd? (body ++ '*' :: '/' :: rest) = some rest := by
  induction body with
  | nil => rfl
  | cons c body ih =>
    have hbody : ¬ ['*', '/'] <:+: body := fun hneedle => h (List.infix_cons hneedle)
    -- An asterisk in the comment has no slash behind it, not even from the end of the comment.
    have hend : ∀ rest', c :: (body ++ '*' :: '/' :: rest) ≠ '*' :: '/' :: rest' := by
      intro rest' heq
      obtain ⟨rfl, htail⟩ := List.cons.inj heq
      cases body with
      | nil => cases htail
      | cons d body =>
        obtain ⟨rfl, -⟩ := List.cons.inj htail
        exact h ⟨[], body, rfl⟩
    rw [List.cons_append, afterCommentEnd?, ih hbody]
    exact fun rest' hc htail => hend rest' (by rw [hc, htail])

/-- A comment at the start of a text is left out. -/
theorem stripComments_comment {body : List Char} (h : ¬ ['*', '/'] <:+: body) (rest : List Char) :
    stripComments ('/' :: '*' :: (body ++ '*' :: '/' :: rest)) = stripComments rest := by
  rw [stripComments]
  split
  · next rest' hend =>
    rw [afterCommentEnd?_append h] at hend
    cases hend
    rfl
  · next hend =>
    rw [afterCommentEnd?_append h] at hend
    cases hend

/-- A character that starts no comment stays. -/
theorem stripComments_cons {c : Char} {rest : List Char} (h : c = '/' → rest.head? ≠ some '*') :
    stripComments (c :: rest) = c :: stripComments rest := by
  rw [stripComments]
  rintro body rfl rfl
  exact h rfl rfl

/-- Leaving out the comments that were put into a text gives the text back, unless it holds what
starts a comment itself. -/
theorem stripComments_of_commented {u w : List Char} (h : Commented u w)
    (hw : ¬ ['/', '*'] <:+: w) : stripComments u = w := by
  induction h with
  | nil => rw [stripComments]
  | @cons u w c h ih =>
    have hstart : c = '/' → u.head? ≠ some '*' := by
      rintro rfl hu
      obtain ⟨rest, rfl⟩ : ∃ rest, w = '*' :: rest := List.head?_eq_some_iff.mp (h.head?_eq hu)
      exact hw ⟨[], rest, rfl⟩
    rw [stripComments_cons hstart, ih fun hneedle => hw (List.infix_cons hneedle)]
  | comment hbody _ ih => rw [stripComments_comment hbody, ih hw]

/-! ## What is left -/

/-- A comment has no end if its closing mark is not in what follows. -/
theorem afterCommentEnd?_eq_none_iff {text : List Char} :
    afterCommentEnd? text = none ↔ ¬ ['*', '/'] <:+: text := by
  fun_induction afterCommentEnd? text with
  | case1 => simp
  | case2 rest => simpa using ⟨[], rest, rfl⟩
  | case3 c rest hend ih =>
    have hprefix : ¬ ['*', '/'] <+: c :: rest := by
      rintro ⟨rest', heq⟩
      cases heq
      exact hend rest' rfl rfl
    rw [ih, List.infix_cons_iff, or_iff_right hprefix]

/-- Whether a text has a comment: the start of one, and somewhere behind that the end of one. -/
def HasComment (text : List Char) : Prop :=
  ∃ before body rest, text = before ++ '/' :: '*' :: (body ++ '*' :: '/' :: rest)

theorem not_hasComment {text : List Char} (h : ¬ ['/', '*'] <:+: text) : ¬ HasComment text := by
  rintro ⟨before, body, rest, rfl⟩
  exact h ⟨before, body ++ '*' :: '/' :: rest, by simp⟩

/-- A text that starts like a comment has one if the closing mark is in what follows. -/
theorem hasComment_start_iff {body : List Char} :
    HasComment ('/' :: '*' :: body) ↔ ['*', '/'] <:+: body := by
  constructor
  · rintro ⟨_ | ⟨_, _ | ⟨_, before⟩⟩, body', rest, heq⟩
    · cases heq
      exact ⟨body', rest, by simp⟩
    · cases heq
    · cases heq
      exact ⟨before ++ '/' :: '*' :: body', rest, by simp⟩
  · rintro ⟨body', rest, rfl⟩
    exact ⟨[], body', rest, by simp⟩

/-- A character that starts no comment has no part in one at the start. -/
theorem hasComment_cons_iff {c : Char} {rest : List Char}
    (h : ∀ body, c = '/' → rest = '*' :: body → False) :
    HasComment (c :: rest) ↔ HasComment rest := by
  constructor
  · rintro ⟨_ | ⟨_, before⟩, body, rest', heq⟩
    · cases heq
      exact (h _ rfl rfl).elim
    · cases heq
      exact ⟨before, body, rest', rfl⟩
  · rintro ⟨before, body, rest', rfl⟩
    exact ⟨c :: before, body, rest', rfl⟩

/-- Leaving out comments makes a text no longer. -/
theorem length_stripComments_le (text : List Char) :
    (stripComments text).length ≤ text.length := by
  fun_induction stripComments text with
  | case1 | case3 => exact Nat.le_refl _
  | case2 body rest hend ih =>
    have := length_lt_of_afterCommentEnd? hend
    simp only [List.length_cons]
    omega
  | case4 c rest _ ih => exact Nat.succ_le_succ ih

/-- Leaving out comments changes a text if and only if it has one. -/
theorem stripComments_eq_self_iff {text : List Char} :
    stripComments text = text ↔ ¬ HasComment text := by
  fun_induction stripComments text with
  | case1 => simp [HasComment]
  | case2 body rest hend _ =>
    -- What is behind the comment is shorter than the text.
    have hshorter : stripComments rest ≠ '/' :: '*' :: body := by
      intro heq
      have hle := length_stripComments_le rest
      have hlt := length_lt_of_afterCommentEnd? hend
      rw [heq, List.length_cons, List.length_cons] at hle
      omega
    have hneedle : ['*', '/'] <:+: body := by
      refine Decidable.byContradiction fun hnone => ?_
      rw [afterCommentEnd?_eq_none_iff.mpr hnone] at hend
      cases hend
    exact iff_of_false hshorter (not_not_intro (hasComment_start_iff.mpr hneedle))
  | case3 body hend =>
    rw [hasComment_start_iff]
    exact iff_of_true rfl (afterCommentEnd?_eq_none_iff.mp hend)
  | case4 c rest hstart ih => rw [hasComment_cons_iff hstart, ← ih, List.cons_inj_right]

/-- The first comment of a text is cut out, and the rest is left to be searched. -/
theorem stripComments_append {before body : List Char} (hbefore : ¬ ['/', '*'] <:+: before)
    (hbody : ¬ ['*', '/'] <:+: body) (rest : List Char) :
    stripComments (before ++ '/' :: '*' :: (body ++ '*' :: '/' :: rest)) =
      before ++ stripComments rest := by
  induction before with
  | nil => exact stripComments_comment hbody rest
  | cons c before ih =>
    -- Not even with the slash of the comment does a character start a comment.
    have hstart : c = '/' →
        (before ++ '/' :: '*' :: (body ++ '*' :: '/' :: rest)).head? ≠ some '*' := by
      rintro rfl hhead
      cases before with
      | nil => cases hhead
      | cons d before =>
        cases hhead
        exact hbefore ⟨[], before, rfl⟩
    rw [List.cons_append, stripComments_cons hstart,
      ih fun hneedle => hbefore (List.infix_cons hneedle), List.cons_append]

end Formula
