import Formula.Proofs.Token.Coverage
import Formula.Proofs.Token.LongestNumeral
import Mathlib.Data.String.Basic

/-!
# Where a scan stops for a flaw

A scan stands at a place of the source, with the rest of the source ahead, and what it finds lies
between the place where it stood and the one where it stands then.  A flaw runs from the first
character of the token that is missed to the last one that was passed in search of it
(`Flaw.MissedIn`).
-/

namespace Formula

/-! ## Stretches of a source -/

/-- Some characters of a source, from one place to another; both are places between the bytes of
the source where a character ends. -/
structure IsStretch (source : List Char) (start stop : Nat) : Prop where
  le : start ≤ stop
  le_length : stop ≤ source.length
  start_isValid : String.Pos.Raw.IsValid (String.ofList source) ⟨byteOffset source start⟩
  stop_isValid : String.Pos.Raw.IsValid (String.ofList source) ⟨byteOffset source stop⟩

/-- The first characters of a source take the bytes before the place behind them. -/
theorem utf8ByteSize_take (source : List Char) (n : Nat) :
    (String.ofList (source.take n)).utf8ByteSize = byteOffset source n := by
  have hbytes : ∀ (text : List Char) (bytes : Nat),
      text.foldl (fun bytes c => bytes + c.utf8Size) bytes =
        bytes + (String.ofList text).utf8ByteSize := by
    intro text
    induction text with
    | nil => exact fun _ => rfl
    | cons c text ih =>
      intro bytes
      rw [List.foldl_cons, ih, String.utf8ByteSize_ofList, String.utf8ByteSize_ofList,
        String.utf8Len_cons]
      omega
  rw [byteOffset, hbytes, Nat.zero_add]

/-- The place of a character is one at which a text can be cut. -/
theorem isValid_byteOffset (source : List Char) (n : Nat) :
    String.Pos.Raw.IsValid (String.ofList source) ⟨byteOffset source n⟩ := by
  refine String.Pos.Raw.isValid_iff_exists_append.mpr
    ⟨String.ofList (source.take n), String.ofList (source.drop n), ?_, ?_⟩
  · rw [← String.ofList_append, List.take_append_drop]
  · rw [← utf8ByteSize_take]
    rfl

theorem IsStretch.of_le {source : List Char} {start stop : Nat} (hle : start ≤ stop)
    (hstop : stop ≤ source.length) : IsStretch source start stop :=
  ⟨hle, hstop, isValid_byteOffset .., isValid_byteOffset ..⟩

/-- A text is a source in which a stretch stands in brackets. -/
structure Marks (source : List Char) (start stop : Nat) (context : String) : Prop extends
    IsStretch source start stop where
  context_eq : context = String.ofList (source.take start) ++ "[" ++
    String.ofList ((source.take stop).drop start) ++ "]" ++ String.ofList (source.drop stop)

/-- A stretch of a source is what its marks show. -/
theorem IsStretch.marks {source : List Char} {start stop : Nat} (h : IsStretch source start stop) :
    Marks source start stop (markedSource source start stop) where
  toIsStretch := h
  context_eq := by
    apply String.toList_injective
    simp [markedSource]

/-! ## Tokens that are missed -/

/-- Whether a text that is opened by a quote has no end: every such quote in it is written twice. -/
inductive Unclosed (quote : Char) : List Char → Prop
  | nil : Unclosed quote []
  | other {c : Char} {rest : List Char} :
      c ≠ quote → Unclosed quote rest → Unclosed quote (c :: rest)
  | twice {rest : List Char} : Unclosed quote rest → Unclosed quote (quote :: quote :: rest)

/-- What is missed where a character and others behind it start no token, and how many characters
are passed in search of it. -/
inductive Misses (s : Spelling) (c : Char) (rest : List Char) : Found SyntaxProblem → Prop
  /-- A text has no end, so that the source is passed to its end. -/
  | quote : c = '"' ∨ c = '\'' → Unclosed c rest → Misses s c rest ⟨.unclosedText, rest.length + 1⟩
  /-- A date has no end, so that the source is passed to its end. -/
  | mark : c = '#' → '#' ∉ rest → Misses s c rest ⟨.unclosedDate, rest.length + 1⟩
  /-- What stands between two marks is no date. -/
  | date {body behind : List Char} : c = '#' → rest = body ++ '#' :: behind → '#' ∉ body →
      s.culture.parseDate? body = none → Misses s c rest ⟨.invalidDate, body.length + 2⟩
  /-- A character that starts nothing else starts no name. -/
  | name : s.startsName c = false → Misses s c rest ⟨.identifierExpected, 1⟩

section
variable {s : Spelling} {c : Char} {rest : List Char} {found : Found SyntaxProblem}

/-- Only the closing quote can be missed in a text, and it is missed up to the end of the source. -/
theorem textFrom_error {quote : Char} {done text : List Char} {length : Nat}
    (h : textFrom quote done length text = .error found) :
    found = ⟨.unclosedText, length + text.length⟩ ∧ Unclosed quote text := by
  fun_induction textFrom quote done length text with
  | case1 =>
    cases h
    exact ⟨rfl, .nil⟩
  | case3 _ _ _ hc =>
    cases h
    exact ⟨rfl, .other hc .nil⟩
  | case2 | case5 => cases h
  | case4 _ _ _ ih =>
    obtain ⟨rfl, hunclosed⟩ := ih h
    exact ⟨by simp [Nat.add_comm, Nat.add_left_comm], .twice hunclosed⟩
  | case6 _ _ _ _ _ hc ih =>
    obtain ⟨rfl, hunclosed⟩ := ih h
    exact ⟨by simp [Nat.add_comm, Nat.add_left_comm], .other hc hunclosed⟩

/-- In a date the closing mark is missed, or a date that can be read. -/
theorem misses_dateFrom (h : dateFrom s.culture rest = .error found) : Misses s '#' rest found := by
  have hbody : ∀ d ∈ rest.takeWhile (· != '#'), d ≠ '#' := by
    intro d hd
    simpa using List.mem_takeWhile_imp hd
  have hsplit := List.takeWhile_append_dropWhile (p := (· != '#')) (l := rest)
  rw [dateFrom] at h
  split at h
  · next hlength =>
    cases h
    have hwhole := (List.takeWhile_prefix (· != '#')).eq_of_length hlength
    rw [hwhole] at hbody
    exact .mark rfl fun hmem => hbody '#' hmem rfl
  next hlength =>
  split at h
  · cases h
  next hdate =>
  cases h
  cases hbehind : rest.dropWhile (· != '#') with
  | nil =>
    rw [hbehind, List.append_nil] at hsplit
    exact absurd (congrArg List.length hsplit) hlength
  | cons d behind =>
    have hd := List.head?_dropWhile_not (· != '#') rest
    rw [hbehind] at hd hsplit
    obtain rfl : d = '#' := by simpa using hd
    exact .date rfl hsplit.symm (fun hmem => hbody '#' hmem rfl) hdate

/-- What is missed is decided by the first character: each kind of token misses what belongs to
it. -/
theorem misses_lexemeFrom (h : lexemeFrom s c rest = .error found) : Misses s c rest found := by
  rw [lexemeFrom] at h
  split at h
  · next hstarts =>
    -- Where a number starts there is one.
    obtain ⟨x, -, hnumber⟩ := exists_numberFrom hstarts
    rw [hnumber] at h
    cases h
  split at h
  · cases h
  split at h
  · cases h
  split at h
  · next hquote =>
    obtain ⟨rfl, hunclosed⟩ := textFrom_error h
    rw [Nat.add_comm]
    exact .quote hquote hunclosed
  split at h
  · next hmark => exact hmark ▸ misses_dateFrom h
  · rw [nameFrom] at h
    split at h
    · cases h
    · next hc =>
      cases h
      exact .name (Bool.eq_false_iff.mpr hc)

/-- What was passed in search of a token starts with its first character and lies in the source. -/
theorem Misses.length_le (h : Misses s c rest found) :
    1 ≤ found.length ∧ found.length ≤ rest.length + 1 := by
  cases h with
  | quote | mark | name => simp
  | date _ hrest _ _ => simp [hrest]

end

/-- A flaw of a source: where it starts no token is found, and it runs over the characters that are
passed in search of one. -/
inductive Flaw.MissedIn (s : Spelling) (source : List Char) : Flaw → Prop
  | intro {start : Nat} {c : Char} {rest : List Char} {found : Found SyntaxProblem} :
      source.drop start = c :: rest → isSkipped c = false → lexemeFrom s c rest = .error found →
      Misses s c rest found → MissedIn s source ⟨found.item, start, start + found.length⟩

/-- The characters of a flaw are a stretch of the source. -/
theorem Flaw.MissedIn.isStretch {s : Spelling} {source : List Char} {flaw : Flaw}
    (h : flaw.MissedIn s source) : IsStretch source flaw.start flaw.stop := by
  cases h with
  | @intro start c rest found hdrop _ _ hmisses =>
    have hlength := congrArg List.length hdrop
    have := hmisses.length_le
    rw [List.length_drop, List.length_cons] at hlength
    exact .of_le (Nat.le_add_right ..) (show start + found.length ≤ _ by omega)

/-! ## Places of a scan -/

namespace Scanner

/-- A scan stands at a place of a source: what is ahead is the source from there on. -/
structure StandsIn (source : List Char) (scanner : Scanner) : Prop where
  le_length : scanner.position ≤ source.length
  ahead_eq : scanner.ahead = source.drop scanner.position

/-- A scan comes from one place to another, token by token. -/
inductive Comes (s : Spelling) : Scanner → Scanner → Prop
  | here {scanner : Scanner} : Comes s scanner scanner
  | next {scanner between behind : Scanner} {t : Token} :
      scanner.next s = .ok (t, between) → Comes s between behind → Comes s scanner behind

variable {s : Spelling} {source : List Char} {scanner behind : Scanner} {t : Token}

theorem standsIn_start (source : List Char) : (start source).StandsIn source := by
  obtain ⟨hlength, hdrop, -⟩ := length_start source
  exact ⟨by omega, hdrop.symm⟩

/-- A scanner that passes some of what lies ahead stands in the same source, so far behind. -/
theorem StandsIn.pass (h : scanner.StandsIn source) {passed text : List Char}
    (hahead : scanner.ahead = passed ++ text) (afterLiteral : Bool) :
    StandsIn source ⟨scanner.position + passed.length, text, afterLiteral⟩ where
  le_length := by
    have hlength := congrArg List.length (h.ahead_eq.symm.trans hahead)
    have hle := h.le_length
    rw [List.length_drop, List.length_append] at hlength
    dsimp only
    omega
  ahead_eq := by
    rw [← List.drop_drop, ← h.ahead_eq, hahead, List.drop_left]

/-- A step leads on to another place of the source, over the token that is found. -/
theorem StandsIn.next (h : scanner.StandsIn source) (hnext : scanner.next s = .ok (t, behind)) :
    behind.StandsIn source ∧ scanner.position ≤ t.start ∧ t.start ≤ t.stop ∧
      t.stop = behind.position := by
  have hsplit := List.takeWhile_append_dropWhile (p := isSkipped) (l := scanner.ahead)
  rw [Scanner.next] at hnext
  split at hnext
  · next hahead =>
    cases hnext
    rw [hahead] at hsplit
    exact ⟨h.pass hsplit.symm false, Nat.le_add_right .., Nat.le_refl _, rfl⟩
  next c rest hahead =>
  rw [hahead] at hsplit
  have hstart := h.pass hsplit.symm false
  split at hnext
  · cases hnext
  next found hfound =>
  split at hnext
  · cases hnext
    exact ⟨hstart, Nat.le_add_right .., Nat.le_refl _, rfl⟩
  · cases hnext
    obtain ⟨hpos, hle⟩ := length_lexemeFrom hfound
    have hlength : ((c :: rest).take found.length).length = found.length := by
      rw [List.length_take, List.length_cons]
      omega
    have hdrop : (c :: rest).drop found.length = rest.drop (found.length - 1) := by
      rw [List.drop_cons hpos]
    have hpassed := hstart.pass (List.take_append_drop found.length (c :: rest)).symm
      found.item.isLiteral
    rw [hlength, hdrop] at hpassed
    exact ⟨hpassed, Nat.le_add_right .., Nat.le_add_right .., rfl⟩

/-- A step that fails has missed a token of the source. -/
theorem StandsIn.missedIn (h : scanner.StandsIn source) {flaw : Flaw}
    (hnext : scanner.next s = .error flaw) : flaw.MissedIn s source := by
  rw [Scanner.next] at hnext
  split at hnext
  · cases hnext
  next c rest hahead =>
  obtain ⟨hc, htext⟩ := blanks_append hahead
  split at hnext
  · next found hfound =>
    cases hnext
    exact .intro (h.pass htext.symm false).ahead_eq.symm hc hfound (misses_lexemeFrom hfound)
  · split at hnext <;> cases hnext

/-- So it does however often it passes a token. -/
theorem StandsIn.comes (h : scanner.StandsIn source) (hcomes : Comes s scanner behind) :
    behind.StandsIn source := by
  induction hcomes with
  | here => exact h
  | next hnext _ ih => exact ih (h.next hnext).1

/-- What a scan is that ends in time: it fails or ends with the first step, or goes on behind a
token. -/
theorem run_succ_cases {count : Nat} {scan : Scan} (hrun : run s (count + 1) scanner = some scan) :
    (∃ flaw, scanner.next s = .error flaw ∧ scan = ⟨[], some flaw⟩) ∨
    (∃ t behind, scanner.next s = .ok (t, behind) ∧ scan = ⟨[t], none⟩) ∨
    ∃ t behind ahead, scanner.next s = .ok (t, behind) ∧ run s count behind = some ahead ∧
      scan = ahead.prepend [t] := by
  cases hnext : scanner.next s with
  | error flaw =>
    rw [run, hnext] at hrun
    cases hrun
    exact .inl ⟨flaw, rfl, rfl⟩
  | ok r =>
    obtain ⟨t, behind⟩ := r
    by_cases hfinish : t.lexeme = .finish
    · obtain ⟨lexeme, start, stop⟩ := t
      cases hfinish
      rw [run, hnext] at hrun
      cases hrun
      exact .inr (.inl ⟨_, behind, rfl, rfl⟩)
    · rw [run_succ_of_ne_finish hnext hfinish] at hrun
      obtain ⟨ahead, hahead, rfl⟩ := Option.map_eq_some_iff.mp hrun
      exact .inr (.inr ⟨t, behind, ahead, rfl, hahead, rfl⟩)

/-- The tokens that are found from a place of the source on are stretches of it. -/
theorem StandsIn.tokens {count : Nat} {scan : Scan} (h : scanner.StandsIn source)
    (hrun : run s count scanner = some scan) :
    ∀ t ∈ scan.tokens, IsStretch source t.start t.stop := by
  have hstep : ∀ {scanner behind : Scanner} {t : Token}, scanner.StandsIn source →
      scanner.next s = .ok (t, behind) → IsStretch source t.start t.stop := by
    intro scanner behind t h hnext
    obtain ⟨hbehind, -, hle, hstop⟩ := h.next hnext
    exact .of_le hle (hstop ▸ hbehind.le_length)
  induction count generalizing scanner scan with
  | zero => cases hrun
  | succ count ih =>
    rcases run_succ_cases hrun with ⟨flaw, -, rfl⟩ | ⟨t, behind, hnext, rfl⟩ |
      ⟨t, behind, ahead, hnext, hahead, rfl⟩
    · exact List.forall_mem_nil _
    · exact List.forall_mem_singleton.mpr (hstep h hnext)
    · exact List.forall_mem_cons.mpr ⟨hstep h hnext, ih (h.next hnext).1 hahead⟩

/-- A flaw is that of the step which fails. -/
theorem exists_next_error {count : Nat} {scan : Scan} {flaw : Flaw}
    (hrun : run s count scanner = some scan) (hflaw : scan.flaw = some flaw) :
    ∃ behind, Comes s scanner behind ∧ behind.next s = .error flaw := by
  induction count generalizing scanner scan with
  | zero => cases hrun
  | succ count ih =>
    rcases run_succ_cases hrun with ⟨flaw', hnext, rfl⟩ | ⟨t, behind, -, rfl⟩ |
      ⟨t, behind, ahead, hnext, hahead, rfl⟩
    · cases hflaw
      exact ⟨scanner, .here, hnext⟩
    · cases hflaw
    · obtain ⟨behind', hcomes, hfails⟩ := ih hahead hflaw
      exact ⟨behind', .next hnext hcomes, hfails⟩

end Scanner

end Formula
