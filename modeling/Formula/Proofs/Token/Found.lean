import Formula.Proofs.Number.Sign
import Formula.Token.Scan
import Mathlib.Data.List.TakeWhile

/-!
# Tokens that are written in a source

The names that are found in a source are names, its literals are texts, dates and numbers without a
sign, and its end is not among what is found.
-/

namespace Formula

open Text (isDigit)

/-- Whether a value can be that of a literal in a source. -/
def Value.IsWritten : Value → Prop
  | .text _ | .dateTime _ => True
  | .number x => Number.SignClear x
  | _ => False

/-- Whether a text is a name: a character that names start with, and others that go on with them. -/
def Spelling.IsName (s : Spelling) (name : String) : Prop :=
  ∃ c rest, name.toList = c :: rest ∧ s.startsName c = true ∧ ∀ d ∈ rest, s.continuesName d = true

/-- Whether a token is written in a source, as all are but its end. -/
def Lexeme.IsWritten (s : Spelling) : Lexeme → Prop
  | name n => s.IsName n
  | literal v => v.IsWritten
  | finish => False
  | _ => True

variable {s : Spelling} {culture : Culture} {c : Char} {rest : List Char} {found : Found Lexeme}

/-- The text of a numeral does not start with a minus. -/
theorem head?_numeral (h : Numeral.startsWith culture c rest = true) :
    (Numeral.start culture (c :: rest)).text.head? ≠ some '-' := by
  rw [Numeral.startsWith, Bool.or_eq_true, Bool.and_eq_true, beq_iff_eq] at h
  rw [Numeral.start, Numeral.text]
  by_cases hc : isDigit c = true
  · simp only [List.takeWhile_cons, hc, if_true, List.cons_append, List.head?_cons]
    rintro ⟨rfl⟩
    exact absurd hc (by decide)
  · obtain ⟨rfl, -⟩ := h.resolve_left hc
    simp [hc]

/-- A number that is found has no sign of its own. -/
theorem isWritten_numberFrom (hstarts : Numeral.startsWith culture c rest = true)
    (h : numberFrom culture (c :: rest) = .ok found) : found.item.IsWritten s := by
  rw [numberFrom] at h
  split at h
  · next x hx =>
    cases h
    obtain ⟨y, hy, rfl⟩ := Option.map_eq_some_iff.mp hx
    have hsign := Number.signClear_of_read? hy (head?_numeral hstarts)
    show Number.SignClear _
    split
    · exact hsign.div Number.signClear_hundred
    · exact hsign
  · cases h

/-- What is found behind a quote is a text. -/
theorem text_of_textFrom {quote : Char} {done text : List Char} {length : Nat}
    (h : textFrom quote done length text = .ok found) : ∃ s, found.item = .literal (.text s) := by
  fun_induction textFrom quote done length text with
  | case1 | case3 => cases h
  | case2 | case5 => cases h; exact ⟨_, rfl⟩
  | case4 _ _ _ ih | case6 _ _ _ _ _ _ ih => exact ih h

/-- A text that is found is one that a token may hold, whatever is in it. -/
theorem isWritten_textFrom {quote : Char} {done text : List Char} {length : Nat}
    (h : textFrom quote done length text = .ok found) : found.item.IsWritten s := by
  obtain ⟨s, hs⟩ := text_of_textFrom h
  rw [hs]
  trivial

/-- No sign that is found is the end of the source. -/
theorem isWritten_signAt? (h : signAt? c rest = some found) : found.item.IsWritten s := by
  rw [signAt?] at h
  split at h
  · cases h
    trivial
  · obtain ⟨l, hsign, rfl⟩ := Option.map_eq_some_iff.mp h
    rw [sign?.eq_def] at hsign
    split at hsign <;> cases hsign <;> trivial

/-- The token at a character is one that is written in a source. -/
theorem isWritten_lexemeFrom (h : lexemeFrom s c rest = .ok found) : found.item.IsWritten s := by
  rw [lexemeFrom] at h
  split at h
  · next hstarts => exact isWritten_numberFrom hstarts h
  split at h
  · cases h
    trivial
  split at h
  · next hsign =>
    cases h
    exact isWritten_signAt? hsign
  split at h
  · exact isWritten_textFrom h
  split at h
  · rw [dateFrom] at h
    split at h
    · cases h
    split at h
    · cases h
      trivial
    · cases h
  · rw [nameFrom] at h
    split at h
    · next hc =>
      cases h
      exact ⟨c, _, String.toList_ofList, hc, fun d hd => List.mem_takeWhile_imp hd⟩
    · cases h

/-- A name that was found is all that goes on with its first character. -/
theorem name_of_lexemeFrom {name : String} {length : Nat}
    (h : lexemeFrom s c rest = .ok ⟨.name name, length⟩) :
    name.toList = c :: rest.takeWhile s.continuesName ∧ length = name.length := by
  rw [lexemeFrom] at h
  split at h
  · rw [numberFrom] at h
    split at h <;> cases h
  split at h
  · cases h
  split at h
  · next hsign =>
    cases h
    rw [signAt?] at hsign
    split at hsign
    · cases hsign
    · obtain ⟨l, hsign, hl⟩ := Option.map_eq_some_iff.mp hsign
      cases hl
      rw [sign?.eq_def] at hsign
      split at hsign <;> cases hsign
  split at h
  · obtain ⟨t, ht⟩ := text_of_textFrom h
    cases ht
  split at h
  · rw [dateFrom] at h
    split at h
    · cases h
    split at h <;> cases h
  · rw [nameFrom] at h
    split at h
    · cases h
      exact ⟨String.toList_ofList, String.length_ofList.symm⟩
    · cases h

end Formula
