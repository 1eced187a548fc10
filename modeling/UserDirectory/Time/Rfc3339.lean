import UserDirectory.Text.Numeral
import UserDirectory.Time.Instant

/-!
# Timestamps in RFC 3339

`Instant.read?` reads `2024-03-01T10:00:00.5+02:00`: a date, a `T` or a space, a time with seconds
and perhaps a fraction, and an offset. Letters may be small, the minus of the offset may be the
mathematical one. Digits of the fraction beyond nanoseconds are passed over, and second 60 is a leap
second at any minute.

`Instant.text` writes universal time with three digits of fraction, further ones cut off, and a `Z`.
Years beyond four digits, and years before year zero, carry a sign; such a text does not read back.
-/

namespace UserDirectory

/-- Exactly so many decimal digits at the front, as a number. -/
def takeDigits? (count : Nat) (cs : List Char) : Option (Nat × List Char) :=
  let ds := cs.take count
  if ds.length == count && ds.all Char.isDigit then some (decimalValue ds, cs.drop count) else none

/-- One of the characters at the front; what follows it. -/
def takeOneOf? (allowed : List Char) : List Char → Option (List Char)
  | c :: rest => if allowed.contains c then some rest else none
  | [] => none

/-- The nanoseconds of the fraction at the front, none at all if there is no point. -/
def takeNanos? : List Char → Option (Nat × List Char)
  | '.' :: cs =>
    let ds := cs.takeWhile Char.isDigit
    if ds.isEmpty then none
    else some (decimalValue ((ds ++ List.replicate 8 '0').take 9), cs.dropWhile Char.isDigit)
  | cs => some (0, cs)

/-- The offset at the front, in minutes east of universal time. -/
def takeOffset? : List Char → Option (Int × List Char)
  | [] => none
  | c :: rest =>
    if c == 'Z' || c == 'z' then some (0, rest)
    else do
      let sign : Int ← if c == '+' then some 1 else if c == '-' || c == '−' then some (-1) else none
      let (hours, rest) ← takeDigits? 2 rest
      let rest ← takeOneOf? [':'] rest
      let (minutes, rest) ← takeDigits? 2 rest
      if hours ≤ 23 && minutes ≤ 59 then some (sign * (hours * 60 + minutes : Nat), rest) else none

namespace Instant

/-- **Reads a timestamp.** -/
def read? (text : String) : Option Instant := do
  let (year, cs) ← takeDigits? 4 text.toList
  let cs ← takeOneOf? ['-'] cs
  let (month, cs) ← takeDigits? 2 cs
  let cs ← takeOneOf? ['-'] cs
  let (day, cs) ← takeDigits? 2 cs
  let cs ← takeOneOf? ['T', 't', ' '] cs
  let (hour, cs) ← takeDigits? 2 cs
  let cs ← takeOneOf? [':'] cs
  let (minute, cs) ← takeDigits? 2 cs
  let cs ← takeOneOf? [':'] cs
  let (second, cs) ← takeDigits? 2 cs
  let (nanos, cs) ← takeNanos? cs
  let (offset, cs) ← takeOffset? cs
  let date : Date := ⟨year, month, day⟩
  if cs.isEmpty && date.isValid && hour ≤ 23 && minute ≤ 59 && second ≤ 60 then
    let leap := second == 60
    let dayStart := (date.dayNumber - Date.epochDay) * 86400
    let inDay : Nat := hour * 3600 + minute * 60 + (if leap then 59 else second)
    some ⟨dayStart + inDay - offset * 60, if leap then nanos + nanosPerSecond else nanos⟩
  else none

/-- A year: four digits, or a sign and at least four. -/
def yearChars (year : Int) : List Char :=
  if 0 ≤ year && year ≤ 9999 then padded 4 year.natAbs
  else (if year < 0 then '-' else '+') :: padded 4 year.natAbs

/-- **Writes a timestamp** in universal time, to the millisecond below. -/
def text (t : Instant) : String :=
  let d := t.date
  let s := t.secondOfDay
  let leap := nanosPerSecond ≤ t.nano
  String.ofList <|
    yearChars d.year ++ '-' :: padded 2 d.month ++ '-' :: padded 2 d.day
      ++ 'T' :: padded 2 (s / 3600) ++ ':' :: padded 2 (s / 60 % 60)
      ++ ':' :: padded 2 (if leap then s % 60 + 1 else s % 60)
      ++ '.' :: padded 3 (t.nano % nanosPerSecond / nanosPerMilli) ++ ['Z']

end Instant

end UserDirectory
