import UserDirectory.Decimal.Power
import UserDirectory.Json.Reader
import UserDirectory.Text.Blank
import UserDirectory.Text.Numeral
import UserDirectory.Time.Rfc3339

/-!
# Numbers, truth values and times of TOML

These values are written without quotes, and each is read from its whole word. Values become JSON:
integers must fit a machine word of either signedness, the floats that are no numbers become `null`,
and a date or a time becomes an object whose one field holds its normal text.
-/

namespace UserDirectory.Toml

/-! ## Numbers -/

/-- Digits with single underscores between them, without these. -/
def ungrouped? (isDigit : Char → Bool) (cs : List Char) : Option (List Char) :=
  let groups := splitAtAll (· == '_') cs
  if groups.all fun g => !g.isEmpty && g.all isDigit then some groups.flatten else none

/-- Decimal digits, grouped perhaps, of which zero leads only alone. -/
def decimalDigits? (cs : List Char) : Option (List Char) :=
  match ungrouped? Char.isDigit cs with
  | some ('0' :: _ :: _) => none
  | digits => digits

/-- An integer, if a machine word holds it. -/
def word? (n : Int) : Option Json :=
  if -(signedLimit : Int) ≤ n && n < wordLimit then some (.num (.int n)) else none

/-- An integer to a base of two, eight or sixteen. -/
def radixInteger? (base : Nat) (cs : List Char) : Option Json := do
  let isDigit (c : Char) : Bool := (Json.hexDigit? c).any (· < base)
  let digits ← ungrouped? isDigit cs
  word? (digits.foldl (fun n c => n * base + (Json.hexDigit? c).getD 0) 0 : Nat)

/-- The exponent of a float, whose letter has been read. -/
def exponent? (cs : List Char) : Option Int :=
  match cs with
  | '-' :: cs => (ungrouped? Char.isDigit cs).map fun ds => -(decimalValue ds : Int)
  | '+' :: cs | cs => (ungrouped? Char.isDigit cs).map fun ds => (decimalValue ds : Int)

/-- A decimal number without its sign. -/
def decimalNumber? (negative : Bool) (cs : List Char) : Option Json := do
  let isMark (c : Char) : Bool := c == '.' || c == 'e' || c == 'E'
  let whole ← decimalDigits? (cs.takeWhile (!isMark ·))
  let real (fraction : List Char) (exponent : Int) : Option Json := do
    let digits := decimalValue (whole ++ fraction)
    let x ← Binary64.ofDecimal? negative digits (exponent - fraction.length)
    pure (.num (.real x))
  match cs.dropWhile (!isMark ·) with
  | [] => word? (if negative then -(decimalValue whole : Int) else decimalValue whole)
  | '.' :: rest => do
    let fraction ← ungrouped? Char.isDigit (rest.takeWhile (!isMark ·))
    match rest.dropWhile (!isMark ·) with
    | [] => real fraction 0
    | '.' :: _ => none
    | _ :: exponent => do real fraction (← exponent? exponent)
  | _ :: exponent => do real [] (← exponent? exponent)

/-- A number without its sign, or one of the words for what is no number. -/
def unsignedNumber? (negative : Bool) (cs : List Char) : Option Json :=
  if cs == ['i', 'n', 'f'] || cs == ['n', 'a', 'n'] then some .null
  else decimalNumber? negative cs

/-- A number. A base has no sign before it. -/
def number? : List Char → Option Json
  | '+' :: cs => unsignedNumber? false cs
  | '-' :: cs => unsignedNumber? true cs
  | '0' :: 'x' :: cs => radixInteger? 16 cs
  | '0' :: 'o' :: cs => radixInteger? 8 cs
  | '0' :: 'b' :: cs => radixInteger? 2 cs
  | cs => unsignedNumber? false cs

/-! ## Dates and times -/

/-- The date at the front. -/
def date? (cs : List Char) : Option (Date × List Char) := do
  let (year, cs) ← takeDigits? 4 cs
  let cs ← takeOneOf? ['-'] cs
  let (month, cs) ← takeDigits? 2 cs
  let cs ← takeOneOf? ['-'] cs
  let (day, cs) ← takeDigits? 2 cs
  let date : Date := ⟨year, month, day⟩
  if date.isValid then some (date, cs) else none

/-- The normal text of the fraction of a second: at most nine digits, without zeros at the end. -/
def fractionText (digits : List Char) : List Char :=
  match ((digits.take 9).reverse.dropWhile (· == '0')).reverse with
  | [] => ['.', '0']
  | digits => '.' :: digits

/-- The text of the seconds at the front, which may be missing. -/
def seconds? : List Char → Option (List Char × List Char)
  | ':' :: cs => do
    let (second, cs) ← takeDigits? 2 cs
    if 60 < second then none
    match cs with
    | '.' :: cs =>
      let digits := cs.takeWhile Char.isDigit
      if digits.isEmpty then none
      else some (':' :: padded 2 second ++ fractionText digits, cs.dropWhile Char.isDigit)
    | cs => some (':' :: padded 2 second, cs)
  | cs => some ([], cs)

/-- The text of the time at the front. -/
def time? (cs : List Char) : Option (List Char × List Char) := do
  let (hour, cs) ← takeDigits? 2 cs
  let cs ← takeOneOf? [':'] cs
  let (minute, cs) ← takeDigits? 2 cs
  if 23 < hour || 59 < minute then none
  let (seconds, cs) ← seconds? cs
  pure (padded 2 hour ++ ':' :: padded 2 minute ++ seconds, cs)

/-- The text of the offset that is left, which may be missing. -/
def offset? : List Char → Option (List Char)
  | [] => some []
  | ['Z'] | ['z'] => some ['Z']
  | sign :: cs => do
    if sign != '+' && sign != '-' then none
    let (hours, cs) ← takeDigits? 2 cs
    let cs ← takeOneOf? [':'] cs
    let (minutes, cs) ← takeDigits? 2 cs
    if !cs.isEmpty || 23 < hours || 59 < minutes then none
    let sign := if hours == 0 && minutes == 0 then '+' else sign
    pure (sign :: padded 2 hours ++ ':' :: padded 2 minutes)

/-- The normal text of a date and a time, or of either. -/
def timeText? (cs : List Char) : Option (List Char) :=
  match date? cs with
  | none => do
    let (time, rest) ← time? cs
    if rest.isEmpty then some time else none
  | some (date, rest) => do
    let date := padded 4 date.year.natAbs ++ '-' :: padded 2 date.month ++ '-' :: padded 2 date.day
    match rest with
    | [] => some date
    | _ => do
      let rest ← takeOneOf? ['T', 't', ' '] rest
      let (time, rest) ← time? rest
      let offset ← offset? rest
      pure (date ++ 'T' :: time ++ offset)

/-- The field that marks a date or a time. -/
def timeField : String := "$__toml_private_datetime"

/-! ## Words -/

/-- **The value of a word.** -/
def scalar? (cs : List Char) : Option Json :=
  if cs == "true".toList then some (.bool true)
  else if cs == "false".toList then some (.bool false)
  else
    match number? cs with
    | some v => some v
    | none => (timeText? cs).map fun text => .obj [(timeField, .str (String.ofList text))]

/-- A character of such a word. -/
def isWordChar (c : Char) : Bool :=
  c.isAlphanum || c == '+' || c == '-' || c == '_' || c == '.' || c == ':'

/-- **The word at the front.** One space may stand between a date and a time. -/
def takeWord (cs : List Char) : List Char × List Char :=
  let word := cs.takeWhile isWordChar
  let rest := cs.dropWhile isWordChar
  match rest with
  | ' ' :: time@(a :: b :: ':' :: _) =>
    if a.isDigit && b.isDigit && (date? word).any (·.2.isEmpty) then
      (word ++ ' ' :: time.takeWhile isWordChar, time.dropWhile isWordChar)
    else (word, rest)
  | _ => (word, rest)

end UserDirectory.Toml
