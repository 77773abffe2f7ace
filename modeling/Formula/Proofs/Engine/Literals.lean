import Formula.Proofs.Engine.Retraced

/-!
# Literals as formulas

What is printed for a literal is evaluated to the value of the literal as it is shown, without
fractions of a second, unless something in it is taken for a comment (`evaluate_literalText`).
-/

namespace Formula

/-! ## Comments in texts -/

/-- The text of a literal starts with its first character, or with the closing quote if it has
none. -/
theorem head?_doubled (s : List Char) :
    (s.flatMap (doubled '"') ++ ['"']).head? = some (s.head?.getD '"') := by
  cases s with
  | nil => rfl
  | cons c s =>
    rw [List.flatMap_cons, doubled]
    split
    · next hc => rw [hc]; rfl
    · rfl

/-- A comment ends in a written text where it ends in the text. -/
theorem afterCommentEnd?_doubled (s : List Char) :
    afterCommentEnd? (s.flatMap (doubled '"') ++ ['"']) =
      (afterCommentEnd? s).map fun rest => rest.flatMap (doubled '"') ++ ['"'] := by
  fun_induction afterCommentEnd? s with
  | case1 => rfl
  | case2 rest => rfl
  | case3 c s hend ih =>
    rw [List.flatMap_cons, List.append_assoc, doubled]
    split
    · next hc =>
      rw [← ih, hc]
      rfl
    · rw [← ih]
      have hhead := head?_doubled s
      generalize s.flatMap (doubled '"') ++ ['"'] = w at hhead
      rw [List.singleton_append, afterCommentEnd?]
      rintro rest rfl rfl
      cases s with
      | nil => cases hhead
      | cons d s =>
        cases hhead
        exact hend s rfl rfl

/-- The comments in a written text are those in the text. -/
theorem stripComments_doubled (s : List Char) :
    stripComments (s.flatMap (doubled '"') ++ ['"']) =
      (stripComments s).flatMap (doubled '"') ++ ['"'] := by
  fun_induction stripComments s with
  | case1 =>
    rw [List.flatMap_nil, List.nil_append, stripComments_cons fun h => absurd h (by decide),
      stripComments]
  | case2 body rest hend ih =>
    have hend' := afterCommentEnd?_doubled body
    rw [hend, Option.map_some] at hend'
    show stripComments ('/' :: '*' :: (body.flatMap (doubled '"') ++ ['"'])) = _
    rw [← ih, stripComments]
    split
    · next h =>
      rw [hend'] at h
      cases h
      rfl
    · next h =>
      rw [hend'] at h
      cases h
  | case3 body hend =>
    have hend' := afterCommentEnd?_doubled body
    rw [hend, Option.map_none] at hend'
    show stripComments ('/' :: '*' :: (body.flatMap (doubled '"') ++ ['"'])) = _
    rw [stripComments]
    split
    · next h =>
      rw [hend'] at h
      cases h
    · rfl
  | case4 c rest hstart ih =>
    have hhead := head?_doubled rest
    rw [List.flatMap_cons, List.flatMap_cons, List.append_assoc, List.append_assoc, ← ih, doubled]
    split
    · next hc =>
      subst hc
      have hquote : ∀ w, stripComments ('"' :: w) = '"' :: stripComments w := fun _ =>
        stripComments_cons fun h => absurd h (by decide)
      show stripComments ('"' :: '"' :: (rest.flatMap (doubled '"') ++ ['"'])) = _
      rw [hquote, hquote]
      rfl
    · rw [List.singleton_append, List.singleton_append]
      refine stripComments_cons fun hc hstar => ?_
      rw [hhead, Option.some_inj] at hstar
      cases rest with
      | nil => exact absurd hstar (by decide)
      | cons d rest =>
        cases hstar
        exact hstart rest hc rfl

/-- Without comments, a written text is the text without comments as it is written. -/
theorem stripComments_text (s : String) : stripComments (Value.text s).literalText.toList =
    (Value.text (String.ofList (stripComments s.toList))).literalText.toList := by
  have hwritten : ∀ s : String, (Value.text s).literalText.toList =
      '"' :: (s.toList.flatMap (doubled '"') ++ ['"']) := writeLiteral_text .source
  rw [hwritten, hwritten, stripComments_cons fun h => absurd h (by decide), stripComments_doubled,
    String.toList_ofList]

namespace Engine

variable {e : Engine}

/-! ## Evaluating literals -/

/-- A text is evaluated to the value that is written without its comments. -/
theorem evaluate_of_writes (hclear : e.spelling.Clear) (hfunctions : e.functions = .builtin)
    {text : String} {v : Value}
    (h : Parse.Writes e.spelling e.names (stripComments text.toList) v) :
    ((evaluate text).run.run e).1 = .ok v := by
  have hbuilt := exists_builtin_of_eq hfunctions
  obtain ⟨u, n, hprints, -, hconstant⟩ := h 0
  have hparsed : e.parsed text = .ok u :=
    Parse.parseSource_of_prints hclear.culture hprints (Nat.zero_le 5)
  obtain ⟨t, hreads, hkeeps⟩ := exists_reads hparsed
  have hcalls := callsOnlyBuiltins_of_resolvedBy hbuilt (resolvedBy_of_parsed hparsed)
  rw [evaluate_of_reads (hasSteadyFunctions_of_builtins hbuilt) hreads rfl rfl rfl,
    hkeeps.exec_eq_ok_iff hcalls rfl]
  obtain ⟨recorded, hexec⟩ := hconstant ⟨e.scope, .strict, true, none⟩ ⟨[], [], e.host⟩ rfl
  rw [hexec]

/-- The literal of a value is evaluated to what is shown of the value, if nothing in its text is
taken for a comment; that is the value if no fraction of a second is left out.  A text loses the
comments in it. -/
theorem evaluate_literalText (e : Engine) (hclear : e.spelling.Clear)
    (hfunctions : e.functions = .builtin) :
    (∀ v : Value, v.HasLiteral →
      stripComments (Expr.literal v).text.toList = (Expr.literal v).text.toList →
      ∃ w, ((evaluate (Expr.literal v).text).run.run e).1 = .ok w ∧ w.same v.shown = true ∧
        (w.same v = true ↔ v.shown = v)) ∧
    ∀ s : String, ((evaluate (Expr.literal (.text s)).text).run.run e).1 =
      .ok (.text (String.ofList (stripComments s.toList))) := by
  have hbuiltins := namesBuiltins hclear hfunctions
  have htext : ∀ v : Value, (Expr.literal v).text = v.literalText := fun _ => by rw [Expr.text]
  refine ⟨fun v hv hcomments => ?_, fun s => ?_⟩
  · obtain ⟨w, hwrites, hsame⟩ := Parse.exists_writes_literalText hclear hbuiltins hv
    rw [htext] at hcomments ⊢
    rw [← hcomments] at hwrites
    refine ⟨w, evaluate_of_writes hclear hfunctions hwrites, hsame, ?_, fun heq => ?_⟩
    · exact Value.shown_eq_of_same hv hsame
    · rwa [heq] at hsame
  · rw [htext]
    refine evaluate_of_writes hclear hfunctions ?_
    rw [stripComments_text]
    exact Parse.Writes.text hclear _

/-- A quotation, a number below zero, a truth value, a midnight and nothing. -/
def mixture : Value :=
  .array [.text "say \"hi\"", .number (-2.5), .boolean true, .dateTime .start, .array []]

/-- The literal of an array is evaluated to the array, but a text with a comment is lost. -/
theorem evaluate_literalText_mixture :
    (∃ w, ((evaluate ("Array(\"say \"\"hi\"\"\", -2.5, TRUE, " ++
        "#1970-01-01 00:00:00#, Array())")).run.run {}).1 = .ok w ∧ w.same mixture = true) ∧
      ((evaluate "\"/*x*/\"").run.run {}).1 = .ok (.text "") := by
  have hclear : ({} : Engine).spelling.Clear := Spelling.clear_plain
  have hliteral : mixture.HasLiteral := by
    refine .array (List.forall_mem_cons.mpr ⟨.text _, List.forall_mem_cons.mpr ⟨.number ?_,
      List.forall_mem_cons.mpr ⟨.boolean _, List.forall_mem_cons.mpr ⟨.dateTime _,
        List.forall_mem_singleton.mpr (.array nofun)⟩⟩⟩⟩)
    decide +kernel
  have htext : (Expr.literal mixture).text =
      "Array(\"say \"\"hi\"\"\", -2.5, TRUE, " ++ "#1970-01-01 00:00:00#, Array())" := by
    decide +kernel
  have hcomments : stripComments (Expr.literal mixture).text.toList =
      (Expr.literal mixture).text.toList := by
    rw [htext]
    exact stripComments_of_commented (.refl _) (by decide +kernel)
  obtain ⟨hvalues, htexts⟩ := evaluate_literalText {} hclear rfl
  refine ⟨?_, ?_⟩
  · obtain ⟨w, hw, -, hsame⟩ := hvalues mixture hliteral hcomments
    rw [htext] at hw
    exact ⟨w, hw, hsame.mpr rfl⟩
  · have hlost := htexts "/*x*/"
    have hcomment : stripComments "/*x*/".toList = [] := by
      show stripComments ('/' :: '*' :: (['x'] ++ '*' :: '/' :: [])) = []
      rw [stripComments_comment (by decide), stripComments]
    have hwritten : (Expr.literal (.text "/*x*/")).text = "\"/*x*/\"" := by decide +kernel
    rw [hcomment, hwritten] at hlost
    exact hlost

end Engine

end Formula
