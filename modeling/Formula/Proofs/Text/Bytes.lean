import Formula.Token.Basic
import Mathlib.Data.List.Infix
import Mathlib.Order.Bounds.Basic

/-!
# Occurrences among the bytes of a text

A text is stored as the bytes of its characters, between one and four for each (UTF-8).  The first
byte of a character is never one of the other bytes of a character, so the bytes of a text that is
not empty occur among those of another one only where its characters do (`bytes_prefix_drop_iff`).
A search of the bytes finds the place that a search of the characters finds (`isLeast_byte`).
-/

namespace Formula.Text

/-- The bytes of a text. -/
def bytes (text : List Char) : List UInt8 := text.flatMap String.utf8EncodeChar

section
variable (c : Char) (text text' : List Char)

theorem bytes_cons : bytes (c :: text) = String.utf8EncodeChar c ++ bytes text :=
  List.flatMap_cons

theorem bytes_append : bytes (text ++ text') = bytes text ++ bytes text' :=
  List.flatMap_append

theorem length_bytes_cons : (bytes (c :: text)).length = c.utf8Size + (bytes text).length := by
  rw [bytes_cons, List.length_append, String.length_utf8EncodeChar]

end

theorem bytes_ne_nil {text : List Char} (h : text ≠ []) : bytes text ≠ [] := by
  obtain ⟨c, text, rfl⟩ := List.exists_cons_of_ne_nil h
  have hpos := c.utf8Size_pos
  rw [← List.length_pos_iff, length_bytes_cons]
  omega

/-! ## Offsets -/

section
variable (text : List Char)

/-- The bytes before a character are those of the characters before it. -/
theorem byteOffset_eq (n : Nat) : byteOffset text n = (bytes (text.take n)).length := by
  have hsum (before : Nat) (chars : List Char) :
      chars.foldl (fun bytes c => bytes + c.utf8Size) before = before + (bytes chars).length := by
    induction chars generalizing before with
    | nil => rfl
    | cons c chars ih => rw [List.foldl_cons, ih, length_bytes_cons, Nat.add_assoc]
  rw [byteOffset, hsum, Nat.zero_add]

/-- Behind them there are the bytes of the characters from it on. -/
theorem drop_bytes (n : Nat) : (bytes text).drop (byteOffset text n) = bytes (text.drop n) := by
  have hsplit : bytes text = bytes (text.take n) ++ bytes (text.drop n) := by
    rw [← bytes_append, List.take_append_drop]
  rw [byteOffset_eq, hsplit, List.drop_left]

theorem byteOffset_cons (c : Char) (n : Nat) :
    byteOffset (c :: text) (n + 1) = c.utf8Size + byteOffset text n := by
  rw [byteOffset_eq, byteOffset_eq, List.take_succ_cons, length_bytes_cons]

variable {text} {m n : Nat}

theorem byteOffset_mono (h : m ≤ n) : byteOffset text m ≤ byteOffset text n := by
  obtain ⟨more, hmore⟩ := List.take_prefix_take_left (l := text) h
  rw [byteOffset_eq, byteOffset_eq, ← hmore, bytes_append, List.length_append]
  exact Nat.le_add_right _ _

/-- Later characters begin at later bytes. -/
theorem byteOffset_lt (h : m < n) (hm : m < text.length) :
    byteOffset text m < byteOffset text n := by
  obtain ⟨more, hmore⟩ := List.take_prefix_take_left (l := text) h.le
  have hne : more ≠ [] := by
    rintro rfl
    have hlength := congrArg List.length hmore
    rw [List.append_nil, List.length_take, List.length_take] at hlength
    omega
  rw [byteOffset_eq, byteOffset_eq, ← hmore, bytes_append, List.length_append]
  exact Nat.lt_add_of_pos_right (List.length_pos_of_ne_nil (bytes_ne_nil hne))

end

/-! ## Where a text begins -/

/-- The bytes of a character are not the beginning of those of another one. -/
theorem eq_of_encoded_append {c d : Char} {more rest : List UInt8}
    (h : String.utf8EncodeChar c ++ more = String.utf8EncodeChar d ++ rest) : c = d := by
  have hc := @ByteArray.utf8DecodeChar?_utf8EncodeChar_append more.toByteArray c
  have hd := @ByteArray.utf8DecodeChar?_utf8EncodeChar_append rest.toByteArray d
  rw [← List.toByteArray_append] at hc hd
  rw [h, hd] at hc
  exact (Option.some.inj hc).symm

/-- The bytes of a text begin with those of another one only if its characters do. -/
theorem bytes_prefix_iff {needle text : List Char} :
    bytes needle <+: bytes text ↔ needle <+: text := by
  constructor
  · intro h
    induction needle generalizing text with
    | nil => exact List.nil_prefix
    | cons c needle ih =>
      cases text with
      | nil => exact absurd (List.prefix_nil.mp h) (bytes_ne_nil (List.cons_ne_nil c needle))
      | cons d text =>
        obtain ⟨rest, hrest⟩ := h
        rw [bytes_cons, bytes_cons, List.append_assoc] at hrest
        obtain rfl := eq_of_encoded_append hrest
        exact List.cons_prefix_cons.mpr ⟨rfl, ih ⟨rest, List.append_cancel_left hrest⟩⟩
  · rintro ⟨rest, rfl⟩
    rw [bytes_append]
    exact List.prefix_append _ _

/-- No text begins at another byte of a character than its first one. -/
theorem not_prefix_within {needle : List Char} (hneedle : needle ≠ []) {c : Char} {i : Nat}
    (hpos : 0 < i) (hi : i < c.utf8Size) (rest : List UInt8) :
    ¬bytes needle <+: (String.utf8EncodeChar c ++ rest).drop i := by
  obtain ⟨d, needle, rfl⟩ := List.exists_cons_of_ne_nil hneedle
  rintro ⟨more, hmore⟩
  have hi' : i < (String.utf8EncodeChar c).length := by rwa [String.length_utf8EncodeChar]
  have hd : 0 < (String.utf8EncodeChar d).length := by
    rw [String.length_utf8EncodeChar]
    exact d.utf8Size_pos
  have hbyte : (String.utf8EncodeChar d)[0] = (String.utf8EncodeChar c)[i] := by
    have hfirst := congrArg (·[0]?) hmore
    rw [bytes_cons, List.append_assoc, List.getElem?_drop, Nat.add_zero,
      List.getElem?_append_left hd, List.getElem?_append_left hi', List.getElem?_eq_getElem hd,
      List.getElem?_eq_getElem hi'] at hfirst
    exact Option.some.inj hfirst
  have hstarts : (String.utf8EncodeChar d)[0].IsUTF8FirstByte :=
    UInt8.isUTF8FirstByte_getElem_utf8EncodeChar.mpr rfl
  rw [hbyte, UInt8.isUTF8FirstByte_getElem_utf8EncodeChar] at hstarts
  omega

/-- The bytes of a text that is not empty occur only where a character begins, and its characters
occur from there on. -/
theorem bytes_prefix_drop_iff {needle : List Char} (hneedle : needle ≠ []) {text : List Char}
    {b : Nat} : bytes needle <+: (bytes text).drop b ↔
      ∃ i, b = byteOffset text i ∧ needle <+: text.drop i := by
  constructor
  · intro h
    induction text generalizing b with
    | nil =>
      have hnil : bytes [] = [] := rfl
      rw [hnil, List.drop_nil] at h
      exact absurd (List.prefix_nil.mp h) (bytes_ne_nil hneedle)
    | cons c text ih =>
      rcases Nat.eq_zero_or_pos b with rfl | hpos
      · exact ⟨0, rfl, bytes_prefix_iff.mp h⟩
      · rw [bytes_cons] at h
        have hlarge : c.utf8Size ≤ b :=
          Nat.not_lt.mp fun hlt => not_prefix_within hneedle hpos hlt _ h
        obtain ⟨b, rfl⟩ := Nat.exists_eq_add_of_le hlarge
        rw [← String.length_utf8EncodeChar, List.drop_length_add_append] at h
        obtain ⟨i, rfl, hi⟩ := ih h
        exact ⟨i + 1, (byteOffset_cons text c i).symm, hi⟩
  · rintro ⟨i, rfl, hi⟩
    rw [drop_bytes]
    exact bytes_prefix_iff.mpr hi

/-! ## Searching -/

section
variable {needle text : List Char} {k : Nat}

/-- From some character on the bytes of a text occur where its characters do. -/
theorem occurs_from_byte_iff (hneedle : needle ≠ []) {b : Nat} :
    byteOffset text k ≤ b ∧ bytes needle <+: (bytes text).drop b ↔
      ∃ i, k ≤ i ∧ b = byteOffset text i ∧ needle <+: text.drop i := by
  rw [bytes_prefix_drop_iff hneedle]
  constructor
  · rintro ⟨hle, i, rfl, hi⟩
    have hlength : i < text.length := by
      have hpos := List.length_pos_of_ne_nil hneedle
      have hfits := hi.length_le
      rw [List.length_drop] at hfits
      omega
    exact ⟨i, Nat.not_lt.mp fun hlt => (byteOffset_lt hlt hlength).not_ge hle, rfl, hi⟩
  · rintro ⟨i, hle, rfl, hi⟩
    exact ⟨byteOffset_mono hle, i, rfl, hi⟩

/-- The first character from which a text occurs begins at the first byte from which its bytes
do. -/
theorem isLeast_byte {i : Nat} (h : IsLeast {i | k ≤ i ∧ needle <+: text.drop i} i) :
    IsLeast {b | byteOffset text k ≤ b ∧ bytes needle <+: (bytes text).drop b}
      (byteOffset text i) := by
  obtain ⟨⟨hk, hi⟩, hleast⟩ := h
  have hprefix : bytes needle <+: (bytes text).drop (byteOffset text i) := by
    rw [drop_bytes]
    exact bytes_prefix_iff.mpr hi
  refine ⟨⟨byteOffset_mono hk, hprefix⟩, fun b hb => ?_⟩
  by_cases hneedle : needle = []
  · -- The empty text is found at once.
    have hle : i ≤ k := hleast ⟨Nat.le_refl k, hneedle ▸ List.nil_prefix⟩
    exact (byteOffset_mono hle).trans hb.1
  · obtain ⟨j, hkj, rfl, hj⟩ := (occurs_from_byte_iff hneedle).mp hb
    exact byteOffset_mono (hleast ⟨hkj, hj⟩)

/-- If the characters of a text do not occur, its bytes do not. -/
theorem not_occurs_byte (h : ∀ i, ¬(k ≤ i ∧ needle <+: text.drop i)) (b : Nat) :
    ¬(byteOffset text k ≤ b ∧ bytes needle <+: (bytes text).drop b) := by
  have hneedle : needle ≠ [] := by
    rintro rfl
    exact h k ⟨Nat.le_refl k, List.nil_prefix⟩
  rw [occurs_from_byte_iff hneedle]
  rintro ⟨i, hk, -, hi⟩
  exact h i ⟨hk, hi⟩

end

end Formula.Text
