/-!
Days of the Gregorian calendar, extended to all years from 1 on. A day is known by year, month and
day of the month, or by its number, where the first day of year 1 is day 1.
-/

namespace Composer

/-- A day of the calendar; `isValid` says which of these values exist. -/
structure Date where
  year : Nat
  month : Nat
  day : Nat
  deriving DecidableEq, Repr, Inhabited

namespace Date

def lastYear : Nat := 9999

def isLeapYear (year : Nat) : Bool := year % 4 == 0 && (year % 100 != 0 || year % 400 == 0)

def monthLengths (year : Nat) : List Nat :=
  [31, if isLeapYear year then 29 else 28, 31, 30, 31, 30, 31, 31, 30, 31, 30, 31]

/-- Whether the day exists, in a year that dates are written in. -/
def isValid (d : Date) : Bool :=
  1 ≤ d.year && d.year ≤ lastYear && 1 ≤ d.month && d.month ≤ 12 && 1 ≤ d.day &&
    d.day ≤ (monthLengths d.year).getD (d.month - 1) 0

/-- How many days there are in the first `years` years. -/
def daysInYears (years : Nat) : Nat := 365 * years + years / 4 - years / 100 + years / 400

def number (d : Date) : Nat :=
  daysInYears (d.year - 1) + ((monthLengths d.year).take (d.month - 1)).foldl Nat.add 0 + d.day

/-- The month and day of the day that comes `rest` days after the first of a month, counting months
on from `month` through their lengths. -/
def monthAndDay : (lengths : List Nat) → (month rest : Nat) → Nat × Nat
  | [], month, rest => (month, rest + 1)
  | length :: lengths, month, rest =>
    if rest < length then (month, rest + 1) else monthAndDay lengths (month + 1) (rest - length)

/-- The day with a number. The days since the first are divided into spans of 400, 100, 4 and 1
years; a day that exceeds four spans of the kind is the last day of the leap year that they end
with. -/
def ofNumber (number : Nat) : Date :=
  let days := number - 1
  let fourCenturies := days / 146097
  let inFourCenturies := days % 146097
  let centuries := min 3 (inFourCenturies / 36524)
  let inCentury := inFourCenturies - 36524 * centuries
  let fourYears := inCentury / 1461
  let inFourYears := inCentury % 1461
  let years := min 3 (inFourYears / 365)
  let inYear := inFourYears - 365 * years
  let year := 400 * fourCenturies + 100 * centuries + 4 * fourYears + years + 1
  let (month, day) := monthAndDay (monthLengths year) 1 inYear
  ⟨year, month, day⟩

/-- The number of the last day that dates are written in. -/
def lastNumber : Nat := number ⟨lastYear, 12, 31⟩

/-- The year of a day, counting days and years on beyond both ends of the calendar. The calendar
repeats itself after four centuries. -/
def yearOf (number : Int) : Int :=
  (ofNumber (((number - 1) % 146097).toNat + 1)).year + 400 * ((number - 1) / 146097)

def weekday (number : Nat) : Nat := (number + 6) % 7

/-- The number of the Monday of the first week of a year, the week with its first Thursday. -/
def firstMonday (year : Nat) : Nat :=
  let newYear := number ⟨year, 1, 1⟩
  if weekday newYear ≤ 3 then newYear - weekday newYear else newYear + 7 - weekday newYear

def weeks (year : Nat) : Nat := (firstMonday (year + 1) - firstMonday year) / 7

/-- The day of a week of a year, counting weeks and days from 1, Monday first. -/
def ofWeek? (year week day : Nat) : Option Date :=
  if 1 ≤ year ∧ year ≤ lastYear ∧ 1 ≤ week ∧ week ≤ weeks year ∧ 1 ≤ day ∧ day ≤ 7 then
    some (ofNumber (firstMonday year + 7 * (week - 1) + (day - 1)))
  else none

end Date

end Composer
