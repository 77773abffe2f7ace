import Formula.Engine.Evaluate
import Formula.Proofs.Token.Comment

/-!
# Comments in formulas

An engine reads a formula as if its comments were not there, and nothing else is left out
(`comments_unseen`).
-/

namespace Formula.Engine

/-- A formula is read by what is left of it without its comments. -/
theorem parse_congr {text text' : String}
    (h : stripComments text.toList = stripComments text'.toList) : parse text = parse text' := by
  simp only [parse, h]

/-- Exactly the comments are left out.  A text without a comment stays as it is, and is the only
one that does; where a text has a start of a comment, the first, and an end, the first behind that,
both go with what is between them, and what follows is searched again.  So a comment put into a
formula anywhere does not change what is read, provided that it does not end early and the formula
has no start of a comment that would swallow it. -/
theorem comments_unseen :
    (∀ text, stripComments text = text ↔ ¬ HasComment text) ∧
    (∀ before body rest, ¬ ['/', '*'] <:+: before → ¬ ['*', '/'] <:+: body →
      stripComments (before ++ '/' :: '*' :: (body ++ '*' :: '/' :: rest)) =
        before ++ stripComments rest) ∧
    ∀ before body rest : String,
      ¬ ['/', '*'] <:+: (before ++ rest).toList → ¬ ['*', '/'] <:+: body.toList →
      parse (before ++ "/*" ++ body ++ "*/" ++ rest) = parse (before ++ rest) := by
  refine ⟨fun _ => stripComments_eq_self_iff,
    fun _ _ rest hbefore hbody => stripComments_append hbefore hbody rest,
    fun before body rest hplain hbody => parse_congr ?_⟩
  rw [String.toList_append] at hplain
  have hbefore : ¬ ['/', '*'] <:+: before.toList := fun hneedle =>
    hplain (hneedle.trans (List.prefix_append ..).isInfix)
  have hrest : ¬ ['/', '*'] <:+: rest.toList := fun hneedle =>
    hplain (hneedle.trans (List.suffix_append ..).isInfix)
  have htext : (before ++ "/*" ++ body ++ "*/" ++ rest).toList =
      before.toList ++ '/' :: '*' :: (body.toList ++ '*' :: '/' :: rest.toList) := by
    simp [String.toList_append]
  rw [htext, stripComments_append hbefore hbody, String.toList_append,
    stripComments_eq_self_iff.mpr (not_hasComment hrest),
    stripComments_eq_self_iff.mpr (not_hasComment hplain)]

/-- The comment in `1//***/2` is read as none although a slash stands before its start and an
asterisk before its end. -/
theorem comments_unseen_asterisk : ¬ ['/', '*'] <:+: ("1/" ++ "2").toList ∧
    ¬ ['*', '/'] <:+: "*".toList ∧
    parse ("1/" ++ "/*" ++ "*" ++ "*/" ++ "2") = parse ("1/" ++ "2") ∧
    ¬ ['/', '*'] <:+: ['/'] ∧ ¬ ['*', '/'] <:+: ['/'] ∧
    stripComments ['/', '/', '*', '/', '*', '/', '/', '*', '/'] =
      '/' :: stripComments ['/', '*', '/'] ∧
    ¬ HasComment ['/', '*', '/'] ∧ stripComments ['/', '*', '/'] = ['/', '*', '/'] := by
  obtain ⟨hself, hfirst, hparse⟩ := comments_unseen
  have hnone : ¬ HasComment ['/', '*', '/'] := by
    rw [hasComment_start_iff]
    decide
  exact ⟨by decide, by decide, hparse "1/" "*" "2" (by decide) (by decide), by decide, by decide,
    hfirst ['/'] ['/'] ['/', '*', '/'] (by decide) (by decide), hnone, (hself _).mpr hnone⟩

end Formula.Engine
