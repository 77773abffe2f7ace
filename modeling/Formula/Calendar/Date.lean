/-!
# Days of the Gregorian calendar

Days are numbered from 1 January 1970, which is day 0.  The calendar runs backwards without a break:
year 0 is the leap year before year 1, and years before it are negative.  `dayNumber?` and `civil`
convert between a day and its year, month and day of the month.
-/

namespace Formula.Calendar

/-- Whether a year has 366 days. -/
def isLeapYear (year : Int) : Bool := year % 4 = 0 && (year % 100 ≠ 0 || year % 400 = 0)

/-- The lengths of the months, in order. -/
def monthLengths (leap : Bool) : List Nat :=
  [31, if leap then 29 else 28, 31, 30, 31, 30, 31, 31, 30, 31, 30, 31]

/-- The days of a year before the first day of month number `month`. -/
def daysBeforeMonth (leap : Bool) (month : Nat) : Nat :=
  ((monthLengths leap).take (month - 1)).foldl (· + ·) 0

/-- The days from the start of year 1 to the start of a year. -/
def daysBeforeYear (year : Int) : Int :=
  let past := year - 1
  365 * past + past / 4 - past / 100 + past / 400

/-- The number of 1 January 1970 when days are counted from the start of year 1. -/
def epoch : Int := 719162

/-- A day of the calendar. -/
structure Civil where
  year : Int
  month : Nat
  day : Nat
deriving DecidableEq, Repr

/-- The number of a day, if the month has such a day. -/
def dayNumber? (date : Civil) : Option Int :=
  let leap := isLeapYear date.year
  match (monthLengths leap)[date.month - 1]? with
  | none => none
  | some length =>
    if 1 ≤ date.month ∧ 1 ≤ date.day ∧ date.day ≤ length then
      let inYear := daysBeforeMonth leap date.month + (date.day - 1)
      some (daysBeforeYear date.year + inYear - epoch)
    else none

/-- The month and the day of the month, `rest` days into the first of the months listed, which is
month number `month`. -/
def monthAndDay (month rest : Nat) : List Nat → Nat × Nat
  | [] => (month, rest + 1)
  | length :: lengths =>
    if rest < length ∨ lengths = [] then (month, rest + 1)
    else monthAndDay (month + 1) (rest - length) lengths

/-- The year, month and day of the month of a day.  A cycle of 400 years has 146097 days; of its
four centuries, and of the four years after a leap day, the last is a day longer. -/
def civil (number : Int) : Civil :=
  let days := number + epoch
  let cycle := days / 146097
  let inCycle := (days % 146097).toNat
  let century := min 3 (inCycle / 36524)
  let inCentury := inCycle - century * 36524
  let inFour := inCentury % 1461
  let single := min 3 (inFour / 365)
  let year := cycle * 400 + (century * 100 + inCentury / 1461 * 4 + single : Nat) + 1
  let (month, day) := monthAndDay 1 (inFour - single * 365) (monthLengths (isLeapYear year))
  ⟨year, month, day⟩

end Formula.Calendar
