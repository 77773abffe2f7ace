import Formula.Calendar.Date
import Mathlib.Algebra.Order.Field.Rat

/-!
# Days and their dates

Every day is the day of its date: year, month and day of the month give back the number that they
were computed from (`dayNumber?_civil`).
-/

namespace Formula.Calendar

/-! ## Years -/

section
variable {cycle : Int} {century leaps single : Nat} (hcentury : century ≤ 3) (hleaps : leaps ≤ 24)
  (hsingle : single ≤ 3)
include hcentury hleaps hsingle

/-- The days before a year that comes some cycles, centuries, leap days and single years after the
first. -/
theorem daysBeforeYear_eq :
    daysBeforeYear (cycle * 400 + (century * 100 + leaps * 4 + single : Nat) + 1) =
      cycle * 146097 + (century * 36524 + leaps * 1461 + single * 365 : Nat) := by
  simp only [daysBeforeYear]
  omega

/-- The last of four years is a leap year, unless it is the last of a century that is not the last
of its cycle. -/
theorem isLeapYear_iff :
    isLeapYear (cycle * 400 + (century * 100 + leaps * 4 + single : Nat) + 1) = true ↔
      single = 3 ∧ (leaps = 24 → century = 3) := by
  simp only [isLeapYear, Bool.and_eq_true, Bool.or_eq_true, decide_eq_true_eq]
  omega

end

/-! ## Months -/

/-- A day of a year is in one of the months, after the days of the months before it. -/
theorem exists_monthAndDay (month : Nat) {rest : Nat} {lengths : List Nat}
    (h : rest < lengths.sum) : ∃ i length day, lengths[i]? = some length ∧ day < length ∧
      (lengths.take i).sum + day = rest ∧
      monthAndDay month rest lengths = (month + i, day + 1) := by
  induction lengths generalizing month rest with
  | nil => cases h
  | cons length lengths ih =>
    rw [List.sum_cons] at h
    rw [monthAndDay]
    split
    · next hfirst =>
      have hlt : rest < length := by
        rcases hfirst with hlt | rfl
        · exact hlt
        · exact h
      exact ⟨0, length, rest, rfl, hlt, Nat.zero_add _, rfl⟩
    · next hlater =>
      obtain ⟨i, length', day, hget, hlt, hsum, heq⟩ :=
        @ih (month + 1) (rest - length) (by omega)
      refine ⟨i + 1, length', day, hget, hlt, ?_, ?_⟩
      · rw [List.take_succ_cons, List.sum_cons]
        omega
      · rw [heq, Nat.add_right_comm, Nat.add_assoc]

theorem sum_monthLengths (leap : Bool) :
    (monthLengths leap).sum = if leap then 366 else 365 := by
  cases leap <;> rfl

/-! ## Dates -/

/-- A date whose day of the month is within its month is the day of its year, month and day. -/
theorem dayNumber?_eq {year : Int} {i length day : Nat}
    (hget : (monthLengths (isLeapYear year))[i]? = some length) (hlt : day < length) :
    dayNumber? ⟨year, 1 + i, day + 1⟩ = some (daysBeforeYear year +
      (((monthLengths (isLeapYear year)).take i).sum + day : Nat) - epoch) := by
  have hbefore : daysBeforeMonth (isLeapYear year) (1 + i) =
      ((monthLengths (isLeapYear year)).take i).sum := by
    rw [daysBeforeMonth, Nat.add_sub_cancel_left, List.sum_eq_foldl]
  have hmem : 1 ≤ 1 + i ∧ 1 ≤ day + 1 ∧ day + 1 ≤ length := by omega
  rw [dayNumber?]
  dsimp only
  rw [Nat.add_sub_cancel_left, hget]
  dsimp only
  rw [if_pos hmem, hbefore, Nat.add_sub_cancel]

/-- The day of a cycle by centuries, the last of which is a day longer. -/
theorem exists_century {n : Nat} (h : n < 146097) : ∃ century inCentury,
    min 3 (n / 36524) = century ∧ n - century * 36524 = inCentury ∧ century ≤ 3 ∧
      n = century * 36524 + inCentury ∧ inCentury ≤ 36524 ∧
      (inCentury = 36524 → century = 3) :=
  ⟨_, _, rfl, rfl, by omega, by omega, by omega, by omega⟩

/-- The day of four years by single years, the last of which is a day longer. -/
theorem exists_single {n : Nat} (h : n < 1461) : ∃ single rest,
    min 3 (n / 365) = single ∧ n - single * 365 = rest ∧ single ≤ 3 ∧
      n = single * 365 + rest ∧ rest ≤ 365 ∧ (rest = 365 → single = 3) :=
  ⟨_, _, rfl, rfl, by omega, by omega, by omega, by omega⟩

/-- A day stands some years after the first and some days into its year, and has its date from
these. -/
theorem exists_civil (number : Int) : ∃ (cycle : Int) (century leaps single rest : Nat),
    century ≤ 3 ∧ leaps ≤ 24 ∧ single ≤ 3 ∧
    number + epoch =
      cycle * 146097 + (century * 36524 + leaps * 1461 + single * 365 : Nat) + rest ∧
    rest ≤ 365 ∧ (rest = 365 → single = 3 ∧ (leaps = 24 → century = 3)) ∧
    civil number =
      let year := cycle * 400 + (century * 100 + leaps * 4 + single : Nat) + 1
      ⟨year, (monthAndDay 1 rest (monthLengths (isLeapYear year))).1,
        (monthAndDay 1 rest (monthLengths (isLeapYear year))).2⟩ := by
  obtain ⟨inCycle, hinCycle⟩ : ∃ n, ((number + epoch) % 146097).toNat = n := ⟨_, rfl⟩
  obtain ⟨century, inCentury, hcentury, hinCentury, hle, hcycle, hlast, hlong⟩ :=
    @exists_century inCycle (by omega)
  obtain ⟨single, rest, hsingle, hrest, hle', hfour, hlast', hlong'⟩ :=
    @exists_single (inCentury % 1461) (by omega)
  refine ⟨(number + epoch) / 146097, century, inCentury / 1461, single, rest, hle, by omega, hle',
    by omega, hlast', by omega, ?_⟩
  simp only [civil, hinCycle, hcentury, hinCentury, hsingle, hrest]

/-- Every day is the day of its date. -/
theorem dayNumber?_civil (number : Int) : dayNumber? (civil number) = some number := by
  obtain ⟨cycle, century, leaps, single, rest, hcentury, hleaps, hsingle, hnumber, hrest, hleap,
    hcivil⟩ := exists_civil number
  have hlt : rest < (monthLengths (isLeapYear
      (cycle * 400 + (century * 100 + leaps * 4 + single : Nat) + 1))).sum := by
    rw [sum_monthLengths]
    split
    · omega
    · next hnot =>
      rw [isLeapYear_iff hcentury hleaps hsingle] at hnot
      omega
  obtain ⟨i, length, day, hget, hday, hsum, hdate⟩ := exists_monthAndDay 1 hlt
  rw [hcivil]
  dsimp only
  rw [hdate, dayNumber?_eq hget hday, hsum, daysBeforeYear_eq hcentury hleaps hsingle]
  congr 1
  omega

/-- A date that names a day has a month of the year and a day of that month. -/
theorem mem_of_dayNumber? {date : Civil} {number : Int} (h : dayNumber? date = some number) :
    (1 ≤ date.month ∧ date.month ≤ 12) ∧ 1 ≤ date.day ∧ date.day ≤ 31 := by
  have hlengths : ∀ leap, (monthLengths leap).length = 12 ∧ ∀ l ∈ monthLengths leap, l ≤ 31 := by
    decide
  obtain ⟨hcount, hle⟩ := hlengths (isLeapYear date.year)
  rw [dayNumber?] at h
  dsimp only at h
  split at h
  · cases h
  · next length hget =>
    obtain ⟨hmonth, -⟩ := List.getElem?_eq_some_iff.mp hget
    have hday := hle length (List.mem_of_getElem? hget)
    split at h
    · next hmem => omega
    · cases h

/-- Later years start later. -/
theorem daysBeforeYear_mono {year year' : Int} (h : year ≤ year') :
    daysBeforeYear year ≤ daysBeforeYear year' := by
  simp only [daysBeforeYear]
  omega

/-- The years of moments are those that dates are read with. -/
theorem year_civil_mem {number : Int} (hge : -96465292 ≤ number) (hle : number ≤ 95026236) :
    -262143 ≤ (civil number).year ∧ (civil number).year ≤ 262142 := by
  have hbounds : daysBeforeYear (civil number).year ≤ number + epoch ∧
      number + epoch ≤ daysBeforeYear (civil number).year + 365 := by
    obtain ⟨cycle, century, leaps, single, rest, hcentury, hleaps, hsingle, hnumber, hrest, -,
      hcivil⟩ := exists_civil number
    rw [hcivil]
    dsimp only
    rw [daysBeforeYear_eq hcentury hleaps hsingle]
    omega
  have hfirst : daysBeforeYear (-262144) + 365 < -96465292 + epoch := by decide
  have hlast : 95026236 + epoch < daysBeforeYear 262143 := by decide
  refine ⟨Int.not_lt.mp fun hlt => ?_, Int.not_lt.mp fun hlt => ?_⟩
  · have hbefore : daysBeforeYear (civil number).year ≤ daysBeforeYear (-262144) :=
      daysBeforeYear_mono (by omega)
    omega
  · have hafter : daysBeforeYear 262143 ≤ daysBeforeYear (civil number).year :=
      daysBeforeYear_mono (by omega)
    omega

end Formula.Calendar
