import UserDirectory.Decimal.Power

/-!
# Numerals

Decimal numerals as they are read in paths and settings: digits of ASCII, perhaps behind a plus
sign, within the range of a machine word. They are written with leading zeros where a width is asked
for.
-/

namespace UserDirectory

/-- The number that a run of decimal digits writes. -/
def decimalValue (digits : List Char) : Nat :=
  digits.foldl (fun n c => n * 10 + (c.toNat - 48)) 0

/-- A nonempty run of decimal digits, as its number. -/
def digits? (cs : List Char) : Option Nat :=
  if !cs.isEmpty && cs.all Char.isDigit then some (decimalValue cs) else none

/-- **A machine word in decimal**: a plus sign may come first, and zeros may lead. -/
def word64? (text : String) : Option Nat :=
  let digits :=
    match text.toList with
    | '+' :: cs => cs
    | cs => cs
  (digits? digits).filter (· < wordLimit)

/-- A number in decimal with at least so many digits. -/
def padded (width n : Nat) : List Char :=
  let ds := Nat.toDigits 10 n
  List.replicate (width - ds.length) '0' ++ ds

end UserDirectory
