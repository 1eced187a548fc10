/-!
# Dates

Dates of the Gregorian calendar, extended to all years, and their day numbers. Day `0` is the first
of January of year `0`. `Date.dayNumber` counts the days of the years before, then of the months
before; `Date.ofDayNumber` goes back, the year by an estimate that is off by at most one, the month
by walking the lengths of the months.
-/

namespace UserDirectory

/-- A year with a twenty-ninth of February. -/
def isLeapYear (year : Int) : Bool := year % 4 == 0 && (year % 100 != 0 || year % 400 == 0)

/-- The lengths of a year's months. -/
def monthLengths (year : Int) : List Nat :=
  [31, if isLeapYear year then 29 else 28, 31, 30, 31, 30, 31, 31, 30, 31, 30, 31]

/-- **A date.** Months and days count from one. -/
structure Date where
  year : Int
  month : Nat
  day : Nat
  deriving DecidableEq, Repr, Inhabited

/-- The days before the first of January of a year, negative before year `0`. -/
def daysBeforeYear (year : Int) : Int :=
  365 * year + (year + 3) / 4 - (year + 99) / 100 + (year + 399) / 400

/-- The year that a day falls in. -/
def yearOfDay (day : Int) : Int :=
  let estimate := 400 * day / 146097
  if day < daysBeforeYear estimate then estimate - 1
  else if daysBeforeYear (estimate + 1) ≤ day then estimate + 1
  else estimate

/-- The month, counted from `month`, and the day, counted from one, of a day counted from zero. -/
def monthOfDay : List Nat → Nat → Nat → Nat × Nat
  | [], month, day => (month, day + 1)
  | length :: rest, month, day =>
    if day < length then (month, day + 1) else monthOfDay rest (month + 1) (day - length)

namespace Date

/-- The month has a number from one to twelve and the day exists in it. -/
def isValid (d : Date) : Bool :=
  match d.month with
  | 0 => false
  | m + 1 =>
    match (monthLengths d.year)[m]? with
    | none => false
    | some length => 1 ≤ d.day && d.day ≤ length

/-- **The number of a date's day.** -/
def dayNumber (d : Date) : Int :=
  let daysBeforeMonth : Nat := ((monthLengths d.year).take (d.month - 1)).foldl (· + ·) 0
  daysBeforeYear d.year + daysBeforeMonth + (d.day : Int) - 1

/-- **The date of a day's number.** -/
def ofDayNumber (day : Int) : Date :=
  let year := yearOfDay day
  let (month, dayOfMonth) := monthOfDay (monthLengths year) 1 (day - daysBeforeYear year).toNat
  ⟨year, month, dayOfMonth⟩

/-- The number of the first of January 1970. -/
def epochDay : Int := 719528

end Date

end UserDirectory
