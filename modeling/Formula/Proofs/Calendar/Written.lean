import Formula.Culture
import Formula.Proofs.Calendar.Civil
import Formula.Proofs.Number.Digits
import Formula.Proofs.Token.Literals

/-!
# Dates read back from their text

The text of a moment is read as the moment that it shows (`parseDate?_text`): to the second, and
with a leap second only at the end of a minute.
-/

namespace Formula

open Text (isDigit isBlank)

/-- The moment that the text of a moment shows.  Fractions of a second are not shown; a leap second
is shown as the second after the one it is counted in, and as number 60 at the end of a minute. -/
def DateTime.shown (d : DateTime) : DateTime :=
  if d.nano < 1000000000 then
    ⟨d.day, d.second, start.nano, d.day_ge, d.day_le, d.second_lt, start.nano_lt⟩
  else if h : d.second % 60 = 59 then
    ⟨d.day, d.second, 1000000000, d.day_ge, d.day_le, d.second_lt, by decide⟩
  else
    ⟨d.day, d.second + 1, start.nano, d.day_ge, d.day_le, by have := d.second_lt; omega,
      start.nano_lt⟩

namespace Calendar

/-! ## Digits -/

section
variable (width n : Nat)

theorem padded_toList : (DateTime.padded width n).toList =
    List.replicate (width - Number.digitCount n) '0' ++ Number.decimalDigits n := by
  rw [DateTime.padded, String.toList_ofList]
  rfl

/-- A padded number consists of digits. -/
theorem isDigit_of_mem_padded {c : Char} (hc : c ∈ (DateTime.padded width n).toList) :
    isDigit c = true := by
  rw [padded_toList] at hc
  exact (List.mem_append.mp hc).elim Number.isDigit_of_mem_replicate
    Number.isDigit_of_mem_decimalDigits

theorem digitsValue_padded : Number.digitsValue 0 (DateTime.padded width n).toList = n := by
  rw [padded_toList, Number.digitsValue_append, Number.digitsValue_zeros, Nat.mul_zero,
    Number.digitsValue_decimalDigits]

/-- It has as many characters as the width says, or as the number has digits. -/
theorem length_padded :
    (DateTime.padded width n).toList.length = max width (Number.digitCount n) := by
  have hlength : (Number.decimalDigits n).length = Number.digitCount n := rfl
  rw [padded_toList, List.length_append, List.length_replicate, hlength]
  omega

theorem padded_ne_nil : (DateTime.padded width n).toList ≠ [] := by
  rw [padded_toList]
  exact List.append_ne_nil_of_right_ne_nil _ (Number.decimalDigits_ne_nil n)

end

/-- A number of few digits is padded to the width. -/
theorem length_padded_of_lt {width n : Nat} (hwidth : 0 < width) (h : n < 10 ^ width) :
    (DateTime.padded width n).toList.length = width := by
  rw [length_padded, Nat.max_eq_left ((Number.digitCount_le_iff hwidth).mpr h)]

/-- A run of digits that is not too long is read as its value. -/
theorem readDigits?_append {most : Nat} {digits rest : List Char} (hne : digits ≠ [])
    (hdigits : ∀ c ∈ digits, isDigit c = true) (hle : digits.length ≤ most)
    (hrest : ∀ c ∈ rest.head?, isDigit c = false) :
    readDigits? most (digits ++ rest) = some ((Number.digitsValue 0 digits : Int), rest) := by
  obtain ⟨htake, -⟩ := run_printed hdigits hrest
  rw [readDigits?, htake, List.take_of_length_le hle, List.drop_left, digitsValue?, if_neg hne]
  rfl

/-- Digits are no blanks. -/
theorem isBlank_of_isDigit {c : Char} (hc : isDigit c = true) : isBlank c = false := by
  have hrange : ∀ n < 58, 48 ≤ n → isBlank (.ofNat n) = false := by decide
  rw [isDigit, Bool.and_eq_true, decide_eq_true_eq, decide_eq_true_eq] at hc
  have hself := hrange c.toNat (Nat.lt_succ_of_le hc.2) hc.1
  rwa [Char.ofNat_toNat] at hself

/-- Text that does not start with a blank has nothing to be trimmed. -/
theorem trimStart_eq_self {text : List Char} (h : ∀ c ∈ text.head?, isBlank c = false) :
    Text.trimStart text = text := by
  cases text with
  | nil => rfl
  | cons c rest =>
    have hc := h c rfl
    rw [Text.trimStart, List.dropWhile_cons, if_neg (by rw [hc]; decide)]

/-! ## Fields -/

/-- What holds of all digits holds of the first character of the text that they start. -/
theorem head?_append_of_ne_nil {digits : List Char} (hne : digits ≠ []) (rest : List Char)
    {p : Char → Prop} (h : ∀ c ∈ digits, p c) : ∀ c ∈ (digits ++ rest).head?, p c := by
  obtain ⟨d, ds, rfl⟩ := List.exists_cons_of_ne_nil hne
  rintro c ⟨⟩
  exact h _ List.mem_cons_self

/-- A field of two digits is read with its value. -/
theorem read?_padded (field : Field) (n : Nat) (hfield : field ≠ .year) (hn : n < 100)
    {rest : List Char} (hrest : ∀ c ∈ rest.head?, isDigit c = false) :
    field.read? ((DateTime.padded 2 n).toList ++ rest) = some ((n : Int), rest) := by
  have hdigits : ∀ c ∈ (DateTime.padded 2 n).toList, isDigit c = true :=
    fun _ => isDigit_of_mem_padded 2 n
  have hread : field.read? ((DateTime.padded 2 n).toList ++ rest) =
      readDigits? 2 (Text.trimStart ((DateTime.padded 2 n).toList ++ rest)) := by
    cases field with
    | year => exact absurd rfl hfield
    | _ => rfl
  have hhead := head?_append_of_ne_nil (padded_ne_nil 2 n) rest
    fun c hc => isBlank_of_isDigit (hdigits c hc)
  rw [hread, trimStart_eq_self hhead, readDigits?_append (padded_ne_nil 2 n) hdigits
    (length_padded_of_lt (by decide) hn).le hrest, digitsValue_padded]

theorem read?_minus (text : List Char) : Field.read? .year ('-' :: text) =
    (readDigits? text.length text).map fun (n, rest) => (-n, rest) := rfl

theorem read?_plus (text : List Char) :
    Field.read? .year ('+' :: text) = readDigits? text.length text := rfl

/-- A year without a sign is read from at most four digits. -/
theorem read?_digits {text : List Char} (h : ∀ c ∈ text.head?, isDigit c = true) :
    Field.read? .year text = readDigits? 4 text := by
  have htrim : Text.trimStart text = text :=
    trimStart_eq_self fun c hc => isBlank_of_isDigit (h c hc)
  rw [Field.read?.eq_def, htrim]
  split
  · exact absurd (h '-' rfl) (by decide)
  · exact absurd (h '+' rfl) (by decide)
  · rfl
  · next hyear _ _ => exact (hyear rfl).elim

/-- A year is read with its value, and with its sign if it has one. -/
theorem read?_yearText (year : Int) {rest : List Char}
    (hrest : ∀ c ∈ rest.head?, isDigit c = false) :
    Field.read? .year ((DateTime.yearText year).toList ++ rest) = some (year, rest) := by
  have hdigits : ∀ c ∈ (DateTime.padded 4 year.natAbs).toList, isDigit c = true :=
    fun _ => isDigit_of_mem_padded 4 _
  have hread : ∀ most, (DateTime.padded 4 year.natAbs).toList.length ≤ most →
      readDigits? most ((DateTime.padded 4 year.natAbs).toList ++ rest) =
        some ((year.natAbs : Int), rest) := by
    intro most hle
    rw [readDigits?_append (padded_ne_nil 4 _) hdigits hle hrest, digitsValue_padded]
  have hlength : (DateTime.padded 4 year.natAbs).toList.length ≤
      ((DateTime.padded 4 year.natAbs).toList ++ rest).length := by
    rw [List.length_append]
    exact Nat.le_add_right _ _
  rw [DateTime.yearText]
  split
  · have htext : ("-" ++ DateTime.padded 4 year.natAbs).toList ++ rest =
        '-' :: ((DateTime.padded 4 year.natAbs).toList ++ rest) := by simp
    rw [htext, read?_minus, hread _ hlength]
    show some (-(year.natAbs : Int), rest) = _
    rw [Int.ofNat_natAbs_of_nonpos (by omega), Int.neg_neg]
  split
  · have htext : ("+" ++ DateTime.padded 4 year.natAbs).toList ++ rest =
        '+' :: ((DateTime.padded 4 year.natAbs).toList ++ rest) := by simp
    rw [htext, read?_plus, hread _ hlength, Int.natAbs_of_nonneg (by omega)]
  · -- Without a sign there are four digits.
    have hfour := @length_padded_of_lt 4 year.natAbs (by decide) (by omega)
    have hhead := head?_append_of_ne_nil (padded_ne_nil 4 year.natAbs) rest hdigits
    rw [String.empty_append, read?_digits hhead, hread 4 hfour.le, Int.natAbs_of_nonneg (by omega)]

/-! ## Patterns -/

section
variable {pattern : Pattern} {fields : Fields} {field : Field} {text rest : List Char} {value : Int}

/-- A field that is read with a value in its range, and was not read before, is added. -/
theorem read?_field (hread : field.read? text = some (value, rest))
    (hmem : field.range.1 ≤ value ∧ value ≤ field.range.2) (hnew : fields.lookup field = none) :
    Pattern.read? (.field field :: pattern) fields text =
      Pattern.read? pattern ((field, value) :: fields) rest := by
  have hadd : fields.add? field value = some ((field, value) :: fields) := by
    rw [Fields.add?]
    dsimp only
    rw [if_pos hmem, hnew]
  rw [Pattern.read?, hread]
  dsimp only
  rw [hadd]
  rfl

theorem read?_letter (a : Char) :
    Pattern.read? (.letter a :: pattern) fields (a :: rest) =
      Pattern.read? pattern fields rest := by
  rw [Pattern.read?, if_pos rfl]

/-- Blanks of a pattern pass those of the text up to the next digit. -/
theorem read?_blanks (h : ∀ c ∈ rest.head?, isDigit c = true) :
    Pattern.read? (.blanks :: pattern) fields (' ' :: rest) =
      Pattern.read? pattern fields rest := by
  have htrim : Text.trimStart (' ' :: rest) = rest := by
    rw [Text.trimStart, List.dropWhile_cons, if_pos (by decide)]
    exact trimStart_eq_self fun c hc => isBlank_of_isDigit (h c hc)
  rw [Pattern.read?, htrim]

/-- Where three digits stand there is no month with a slash behind it. -/
theorem read?_month_digits {c₁ c₂ c₃ : Char} (h₁ : isDigit c₁ = true) (h₂ : isDigit c₂ = true)
    (h₃ : isDigit c₃ = true) :
    Pattern.read? (.field .month :: .letter '/' :: pattern) fields (c₁ :: c₂ :: c₃ :: rest) =
      none := by
  have hread : ∃ value, Field.read? .month (c₁ :: c₂ :: c₃ :: rest) = some (value, c₃ :: rest) := by
    have htrim : Text.trimStart (c₁ :: c₂ :: c₃ :: rest) = c₁ :: c₂ :: c₃ :: rest :=
      trimStart_eq_self (by rintro _ ⟨⟩; exact isBlank_of_isDigit h₁)
    have hmonth : Field.read? .month (c₁ :: c₂ :: c₃ :: rest) =
        readDigits? 2 (Text.trimStart (c₁ :: c₂ :: c₃ :: rest)) := rfl
    have htake : (List.takeWhile isDigit (c₁ :: c₂ :: c₃ :: rest)).take 2 = [c₁, c₂] := by
      simp [h₁, h₂, h₃]
    rw [hmonth, htrim, readDigits?, htake]
    exact ⟨_, rfl⟩
  obtain ⟨value, hread⟩ := hread
  rw [Pattern.read?, hread]
  dsimp only
  cases Fields.add? fields .month value with
  | none => rfl
  | some fields' =>
    rw [Option.bind_some, Pattern.read?, if_neg]
    rintro rfl
    exact absurd h₃ (by decide)

/-- A year is no month with a slash behind it. -/
theorem read?_month_yearText (year : Int) :
    Pattern.read? (.field .month :: .letter '/' :: pattern) fields
      ((DateTime.yearText year).toList ++ rest) = none := by
  have hsign : ∀ {sign : Char} {digits : List Char}, sign = '-' ∨ sign = '+' →
      Pattern.read? (.field .month :: .letter '/' :: pattern) fields (sign :: digits) = none := by
    rintro sign digits (rfl | rfl) <;> rfl
  have hlength := length_padded 4 year.natAbs
  have hdigits : ∀ c ∈ (DateTime.padded 4 year.natAbs).toList, isDigit c = true :=
    fun _ => isDigit_of_mem_padded 4 _
  have htext : ∀ sign : String, (sign ++ DateTime.padded 4 year.natAbs).toList ++ rest =
      sign.toList ++ ((DateTime.padded 4 year.natAbs).toList ++ rest) := by simp
  rw [DateTime.yearText, htext]
  split
  · exact hsign (.inl rfl)
  split
  · exact hsign (.inr rfl)
  · generalize (DateTime.padded 4 year.natAbs).toList = digits at hlength hdigits
    have hfour : 4 ≤ digits.length := by omega
    rcases digits with _ | ⟨c₁, _ | ⟨c₂, _ | ⟨c₃, digits⟩⟩⟩
    case cons.cons.cons =>
      exact read?_month_digits (hdigits c₁ (by simp)) (hdigits c₂ (by simp)) (hdigits c₃ (by simp))
    all_goals simp at hfour

end

end Calendar

/-! ## Moments -/

namespace DateTime

open Calendar

/-- The number of the second as it is shown. -/
def shownSecond (d : DateTime) : Nat := d.second % 60 + if 1000000000 ≤ d.nano then 1 else 0

theorem shownSecond_le (d : DateTime) : d.shownSecond ≤ 60 := by
  rw [shownSecond]
  split <;> omega

theorem text_toList (d : DateTime) : d.text.toList =
    (yearText (civil d.day).year).toList ++ '-' :: ((padded 2 (civil d.day).month).toList ++
      '-' :: ((padded 2 (civil d.day).day).toList ++ ' ' :: ((padded 2 (d.second / 3600)).toList ++
      ':' :: ((padded 2 (d.second / 60 % 60)).toList ++
      ':' :: (padded 2 d.shownSecond).toList)))) := by
  simp [text, dateText, clockText, shownSecond]

/-- The fields of a moment, last field first. -/
def fields (d : DateTime) : Fields :=
  [(.second, (d.shownSecond : Nat)),
    (.minute, (d.second / 60 % 60 : Nat)), (.hour, (d.second / 3600 : Nat)),
    (.day, ((civil d.day).day : Nat)), (.month, ((civil d.day).month : Nat)),
    (.year, (civil d.day).year)]

/-- The text of a moment is read as its fields. -/
theorem read?_text (d : DateTime) :
    (Pattern.ofText "%Y-%m-%d %H:%M:%S".toList).read? [] d.text.toList = some d.fields := by
  have hpattern : Pattern.ofText "%Y-%m-%d %H:%M:%S".toList =
      [.field .year, .letter '-', .field .month, .letter '-', .field .day, .blanks, .field .hour,
        .letter ':', .field .minute, .letter ':', .field .second] := by rfl
  have hmark : ∀ {mark : Char} {rest : List Char}, isDigit mark = false →
      ∀ c ∈ (mark :: rest).head?, isDigit c = false := by
    rintro mark rest hmark c ⟨⟩
    exact hmark
  have hdigits : ∀ {n : Nat} {rest : List Char},
      ∀ c ∈ ((padded 2 n).toList ++ rest).head?, isDigit c = true :=
    head?_append_of_ne_nil (padded_ne_nil 2 _) _ fun _ => isDigit_of_mem_padded 2 _
  have hsecond := d.second_lt
  have hyear := year_civil_mem d.day_ge d.day_le
  obtain ⟨hmonth, hday⟩ := mem_of_dayNumber? (dayNumber?_civil d.day)
  have hshown := d.shownSecond_le
  have hlast : Field.read? .second (padded 2 d.shownSecond).toList =
      some ((d.shownSecond : Int), []) := by
    have hread := @read?_padded .second d.shownSecond (by decide) (by omega) [] nofun
    rwa [List.append_nil] at hread
  rw [hpattern, text_toList,
    read?_field (read?_yearText _ (hmark (by decide))) hyear rfl, read?_letter,
    read?_field (read?_padded .month _ (by decide) (by omega) (hmark (by decide))) ?_ rfl,
    read?_letter,
    read?_field (read?_padded .day _ (by decide) (by omega) (hmark (by decide))) ?_ rfl,
    read?_blanks hdigits,
    read?_field (read?_padded .hour _ (by decide) (by omega) (hmark (by decide))) ?_ rfl,
    read?_letter,
    read?_field (read?_padded .minute _ (by decide) (by omega) (hmark (by decide))) ?_ rfl,
    read?_letter, read?_field hlast ?_ rfl]
  · rfl
  all_goals
    dsimp only [Field.range]
    omega

theorem ofParts?_eq {day : Int} {second nano : Nat} {d : DateTime} (hday : day = d.day)
    (hsecond : second = d.second) (hnano : nano = d.nano) : ofParts? day second nano = some d := by
  subst hday hsecond hnano
  exact dif_pos ⟨d.day_ge, d.day_le, d.second_lt, d.nano_lt⟩

/-- The fields of a moment are those of the moment that they show. -/
theorem dateTime?_fields (d : DateTime) : d.fields.dateTime? = some d.shown := by
  have hday : d.fields.day? = some d.day := dayNumber?_civil d.day
  have hlt := d.second_lt
  rw [Fields.dateTime?, hday]
  show (if d.shownSecond = 60 then
    ofParts? d.day (d.second / 3600 * 3600 + d.second / 60 % 60 * 60 + 59) 1000000000
    else ofParts? d.day (d.second / 3600 * 3600 + d.second / 60 % 60 * 60 + d.shownSecond) 0) = _
  rw [shown, shownSecond]
  by_cases hnano : d.nano < 1000000000
  · rw [if_pos hnano, if_neg (Nat.not_le.mpr hnano), if_neg (by omega)]
    exact ofParts?_eq rfl (by dsimp only; omega) rfl
  rw [if_neg hnano, if_pos (Nat.not_lt.mp hnano)]
  by_cases hlast : d.second % 60 = 59
  · rw [dif_pos hlast, if_pos (by omega)]
    exact ofParts?_eq rfl (by dsimp only; omega) rfl
  · rw [dif_neg hlast, if_neg (by omega)]
    exact ofParts?_eq rfl (by dsimp only; omega) rfl

/-- Signs and digits are no blanks, so there is none in the text of a year. -/
theorem isBlank_of_mem_yearText {year : Int} {c : Char} (hc : c ∈ (yearText year).toList) :
    isBlank c = false := by
  rw [yearText, String.toList_append, List.mem_append] at hc
  rcases hc with hc | hc
  · have hminus : ∀ c ∈ ['-'], isBlank c = false := List.forall_mem_singleton.mpr rfl
    have hplus : ∀ c ∈ ['+'], isBlank c = false := List.forall_mem_singleton.mpr rfl
    split at hc
    · exact hminus c hc
    split at hc
    · exact hplus c hc
    · exact absurd hc List.not_mem_nil
  · exact isBlank_of_isDigit (isDigit_of_mem_padded 4 _ hc)

/-- The text of a moment starts with a digit or a sign. -/
theorem exists_text_eq_cons (d : DateTime) :
    ∃ first rest, d.text.toList = first :: rest ∧ isBlank first = false := by
  have hyear : (yearText (civil d.day).year).toList ≠ [] := by
    rw [yearText, String.toList_append]
    exact List.append_ne_nil_of_right_ne_nil _ (padded_ne_nil 4 _)
  obtain ⟨first, rest, hfirst⟩ := List.exists_cons_of_ne_nil hyear
  have hmem : first ∈ (yearText (civil d.day).year).toList := by simp [hfirst]
  rw [text_toList, hfirst, List.cons_append]
  exact ⟨first, _, rfl, isBlank_of_mem_yearText hmem⟩

/-- The text of a moment ends with a digit. -/
theorem exists_text_eq_concat (d : DateTime) :
    ∃ before last, d.text.toList = before ++ [last] ∧ isBlank last = false := by
  have hsecond := padded_ne_nil 2 d.shownSecond
  have hlast := List.dropLast_concat_getLast hsecond
  rw [text_toList, ← hlast]
  simp only [← List.append_assoc, ← List.cons_append]
  exact ⟨_, _, rfl, isBlank_of_isDigit (isDigit_of_mem_padded 2 _ (List.getLast_mem hsecond))⟩

/-- The text of a moment has no blanks at its ends. -/
theorem trim_text (d : DateTime) : Text.trim d.text.toList = d.text.toList := by
  obtain ⟨first, rest, hfirst, hblank⟩ := d.exists_text_eq_cons
  obtain ⟨before, last, hlast, hblank'⟩ := d.exists_text_eq_concat
  have hstart : Text.trimStart d.text.toList = d.text.toList :=
    trimStart_eq_self (by rw [hfirst]; rintro c ⟨⟩; exact hblank)
  rw [Text.trim, hstart, Text.trimEnd, hlast, List.reverse_concat, List.dropWhile_cons_of_neg,
    ← List.reverse_concat, List.reverse_reverse]
  rw [hblank']
  decide

/-- The text of a moment is read as the moment that it shows. -/
theorem parseDate?_text (d : DateTime) :
    ({} : Culture).parseDate? d.text.toList = some d.shown := by
  have hmonth : ∀ pattern, Pattern.read? (.field .month :: .letter '/' :: pattern) []
      d.text.toList = none := by
    intro pattern
    rw [text_toList]
    exact read?_month_yearText _
  have hpatterns : ∃ pattern₁ pattern₂ others,
      (({} : Culture).dateFormats.map fun format => Pattern.ofText format.toList) =
        (.field .month :: .letter '/' :: pattern₁) :: (.field .month :: .letter '/' :: pattern₂) ::
          Pattern.ofText "%Y-%m-%d %H:%M:%S".toList :: others := ⟨_, _, _, rfl⟩
  obtain ⟨pattern₁, pattern₂, others, hpatterns⟩ := hpatterns
  rw [Culture.parseDate?, trim_text, readAny?, hpatterns]
  simp only [List.findSome?_cons, hmonth, read?_text, Option.bind_none, Option.bind_some,
    dateTime?_fields, Option.some_or]

end DateTime

end Formula
