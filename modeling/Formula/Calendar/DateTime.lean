import Formula.Calendar.Date
import Formula.Number.Text

/-!
# Date and time

A `DateTime` is a day, a second of the day and a fraction in nanoseconds.  A fraction of a second or
more belongs to a leap second, which follows the second it is counted in: `23:59:60` is second 86399
with a fraction of at least one second.  The years run from −262143 to 262142.
-/

namespace Formula

open Calendar (Civil civil dayNumber?)

/-- A moment without a time zone. -/
structure DateTime where
  /-- The number of the day. -/
  day : Int
  /-- The second of the day. -/
  second : Nat
  /-- The fraction in nanoseconds, a whole second more in a leap second. -/
  nano : Nat
  day_ge : -96465292 ≤ day
  day_le : day ≤ 95026236
  second_lt : second < 86400
  nano_lt : nano < 2000000000
deriving DecidableEq

namespace DateTime

/-- The moment with these parts, if they are in range. -/
def ofParts? (day : Int) (second nano : Nat) : Option DateTime :=
  if h : -96465292 ≤ day ∧ day ≤ 95026236 ∧ second < 86400 ∧ nano < 2000000000 then
    some ⟨day, second, nano, h.1, h.2.1, h.2.2.1, h.2.2.2⟩
  else none

/-- Midnight before 1 January 1970. -/
def start : DateTime := ⟨0, 0, 0, by decide, by decide, by decide, by decide⟩

/-- How two moments follow each other. -/
def compare (a b : DateTime) : Ordering :=
  (Ord.compare a.day b.day).then ((Ord.compare a.second b.second).then (Ord.compare a.nano b.nano))

/-! ## Spans -/

/-- Nanoseconds in a second. -/
def nanosPerSecond : Int := 1000000000

/-- The nanoseconds between two times of a day.  A leap second that lies between them counts. -/
def clockSpan (a b : DateTime) : Int :=
  let leap : Int :=
    if b.second < a.second ∧ 1000000000 ≤ b.nano then 1
    else if a.second < b.second ∧ 1000000000 ≤ a.nano then -1
    else 0
  ((a.second : Int) - b.second + leap) * nanosPerSecond + ((a.nano : Int) - b.nano)

/-- The milliseconds from `b` to `a`; a rest below a millisecond is cut off. -/
def millisecondsSince (a b : DateTime) : Int :=
  ((a.day - b.day) * 86400 * nanosPerSecond + clockSpan a b).tdiv 1000000

/-- The moment some milliseconds later, or earlier when they are negative.  A shift that stays
within a leap second, or goes back from it by less than a second, moves the fraction only; any other
shift out of a leap second starts from the second after it or the second it is counted in. -/
def shift? (d : DateTime) (milliseconds : Int) : Option DateTime :=
  let seconds := milliseconds.tdiv 1000
  let nanos := milliseconds.tmod 1000 * 1000000
  let leap := 1000000000 ≤ d.nano
  if leap ∧ seconds = 0 ∧ ¬ (0 < nanos ∧ 2000000000 ≤ d.nano + nanos) then
    ofParts? d.day d.second (d.nano + nanos).toNat
  else
    let base : Int := if leap ∧ seconds < 0 then d.second + 1 else d.second
    let fraction : Int := (if leap then (d.nano : Int) - nanosPerSecond else d.nano) + nanos
    let total := base + seconds + fraction / nanosPerSecond
    ofParts? (d.day + total / 86400) (total % 86400).toNat (fraction % nanosPerSecond).toNat

/-! ## Text -/

/-- A number with at least `width` digits. -/
def padded (width n : Nat) : String :=
  let digits := Number.decimalDigits n
  String.ofList (List.replicate (width - digits.length) '0' ++ digits)

/-- A year: four digits, and a sign unless it is one of 0 to 9999. -/
def yearText (year : Int) : String :=
  let sign := if year < 0 then "-" else if 9999 < year then "+" else ""
  sign ++ padded 4 year.natAbs

/-- Year, month and day, with hyphens between them. -/
def dateText (d : DateTime) : String :=
  let date := civil d.day
  yearText date.year ++ "-" ++ padded 2 date.month ++ "-" ++ padded 2 date.day

/-- Hour, minute and second, with colons between them; a leap second is number 60. -/
def clockText (d : DateTime) : String :=
  let leap := if 1000000000 ≤ d.nano then 1 else 0
  padded 2 (d.second / 3600) ++ ":" ++ padded 2 (d.second / 60 % 60) ++ ":"
    ++ padded 2 (d.second % 60 + leap)

/-- A point and the digits of the fraction, in groups of three and as few as show it; nothing for a
whole second. -/
def fractionText (d : DateTime) : String :=
  let nano := d.nano % 1000000000
  if nano = 0 then ""
  else if nano % 1000000 = 0 then "." ++ padded 3 (nano / 1000000)
  else if nano % 1000 = 0 then "." ++ padded 6 (nano / 1000)
  else "." ++ padded 9 nano

/-- Date and time to the second, with a space between them. -/
def text (d : DateTime) : String := d.dateText ++ " " ++ d.clockText

/-- Date and time with the fraction, and the letter `T` between them. -/
def debugText (d : DateTime) : String := d.dateText ++ "T" ++ d.clockText ++ d.fractionText

end DateTime

end Formula
