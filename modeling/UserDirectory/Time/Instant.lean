import UserDirectory.Time.Date

/-!
# Instants

An instant is a second of the epoch and a number of nanoseconds in it. The nanoseconds reach one
short of two thousand million: those from one thousand million on lie in a leap second, which is
counted into the second before it. Hence `Instant.epochMillis` moves straight into the next second,
while the calendar still shows `:60`.
-/

namespace UserDirectory

/-- The nanoseconds of a second, the ticks of a clock. -/
def nanosPerSecond : Nat := 1000000000

/-- The nanoseconds of a millisecond. -/
def nanosPerMilli : Nat := 1000000

/-- **A point in time**, to the nanosecond. -/
structure Instant where
  /-- Whole seconds since the beginning of 1970. -/
  second : Int
  /-- Nanoseconds in that second, from `nanosPerSecond` on in a leap second. -/
  nano : Nat
  deriving DecidableEq, Repr, Inhabited

namespace Instant

/-- **Whole milliseconds since the beginning of 1970.** -/
def epochMillis (t : Instant) : Int := t.second * 1000 + (t.nano / nanosPerMilli : Nat)

/-- The date, by universal time. -/
def date (t : Instant) : Date := .ofDayNumber (t.second / 86400 + Date.epochDay)

/-- The second of the day, by universal time. -/
def secondOfDay (t : Instant) : Nat := (t.second % 86400).toNat

/-- The years that an instant given in milliseconds may fall in. -/
def minYear : Int := -262143

/-- The last of those years. -/
def maxYear : Int := 262142

/-- The instant of a number of milliseconds since the beginning of 1970, within the years of the
calendar. -/
def ofEpochMillis? (millis : Int) : Option Instant :=
  let t : Instant := ⟨millis / 1000, (millis % 1000).toNat * nanosPerMilli⟩
  if minYear ≤ t.date.year && t.date.year ≤ maxYear then some t else none

end Instant

end UserDirectory
