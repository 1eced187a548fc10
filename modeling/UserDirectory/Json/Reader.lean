import UserDirectory.Decimal.Power
import UserDirectory.Json.Basic

/-!
# Reading JSON text

`Json.read?` reads one value from a text that holds nothing else but blanks. It refuses text nested
more than `Json.maxDepth` levels deep, unpaired surrogates, control characters inside strings, and
numbers too large for a binary64 number.

The reader works on the characters that are left. Its fuel is the length of the text, since every
step takes at least one character; `read?` hides it.
-/

namespace UserDirectory.Json

/-- The greatest number of arrays and objects that may be open at once. -/
def maxDepth : Nat := 127

/-- Space, tab and line ends separate tokens. -/
def isBlank (c : Char) : Bool := c == ' ' || c == '\n' || c == '\t' || c == '\r'

/-- The text after its leading blanks. -/
def skipBlanks (cs : List Char) : List Char := cs.dropWhile isBlank

/-! ## Strings -/

/-- The value of a hexadecimal digit of either case. -/
def hexDigit? (c : Char) : Option Nat :=
  if '0' ≤ c ∧ c ≤ '9' then some (c.toNat - 48)
  else if 'a' ≤ c ∧ c ≤ 'f' then some (c.toNat - 87)
  else if 'A' ≤ c ∧ c ≤ 'F' then some (c.toNat - 55)
  else none

/-- The value of the four hexadecimal digits at the front, and what follows them. -/
def hexUnit? : List Char → Option (Nat × List Char)
  | a :: b :: c :: d :: rest => do
    let a ← hexDigit? a
    let b ← hexDigit? b
    let c ← hexDigit? c
    let d ← hexDigit? d
    pure (((a * 16 + b) * 16 + c) * 16 + d, rest)
  | _ => none

/-- The character of a numeric escape. A high surrogate needs an escaped low one behind it, and a
low one may not come first. -/
def numericEscape? (cs : List Char) : Option (Char × List Char) := do
  let (unit, rest) ← hexUnit? cs
  if unit < 0xD800 || 0xE000 ≤ unit then pure (Char.ofNat unit, rest)
  else if 0xDC00 ≤ unit then none
  else
    match rest with
    | '\\' :: 'u' :: rest =>
      let (low, rest) ← hexUnit? rest
      if 0xDC00 ≤ low && low < 0xE000 then
        pure (Char.ofNat (0x10000 + (unit - 0xD800) * 0x400 + (low - 0xDC00)), rest)
      else none
    | _ => none

/-- The character of the escape whose backslash has been read. -/
def escape? : List Char → Option (Char × List Char)
  | '"' :: rest => some ('"', rest)
  | '\\' :: rest => some ('\\', rest)
  | '/' :: rest => some ('/', rest)
  | 'b' :: rest => some (Char.ofNat 8, rest)
  | 'f' :: rest => some (Char.ofNat 12, rest)
  | 'n' :: rest => some ('\n', rest)
  | 'r' :: rest => some ('\r', rest)
  | 't' :: rest => some ('\t', rest)
  | 'u' :: rest => numericEscape? rest
  | _ => none

/-- The rest of a string whose opening quote has been read, up to and without its closing quote;
`acc` holds what was read, last character first. -/
def stringBody? : Nat → List Char → List Char → Option (String × List Char)
  | 0, _, _ => none
  | fuel + 1, acc, cs =>
    match cs with
    | [] => none
    | '"' :: rest => some (String.ofList acc.reverse, rest)
    | '\\' :: rest => (escape? rest).bind fun (c, rest) => stringBody? fuel (c :: acc) rest
    | c :: rest => if c.toNat < 0x20 then none else stringBody? fuel (c :: acc) rest

/-! ## Numbers -/

/-- The digits read so far, as a significand that stays below `2 ^ 64`, and the power of ten of its
last digit. -/
structure Scaled where
  /-- The digits that fitted. -/
  significand : Nat
  /-- The power of ten to scale by. -/
  exponent : Int
  /-- Whether every digit fitted. -/
  exact : Bool

/-- **The digits before the point.** Once a digit no longer fits, it and all later ones count as
zeros. -/
def Scaled.ofInteger (digits : List Char) : Scaled :=
  digits.foldl (fun s c =>
    let next := s.significand * 10 + (c.toNat - 48)
    if s.exact && next < wordLimit then { s with significand := next }
    else { s with exponent := s.exponent + 1, exact := false }) ⟨0, 0, true⟩

/-- **The digits behind the point.** Once a digit no longer fits, it and all later ones are left
out. -/
def Scaled.addFraction (s : Scaled) (digits : List Char) : Scaled :=
  digits.foldl (fun s c =>
    let next := s.significand * 10 + (c.toNat - 48)
    if s.exact && next < wordLimit then
      { s with significand := next, exponent := s.exponent - 1 }
    else { s with exact := false }) { s with exact := true }

/-- The natural number of a run of decimal digits. -/
def digitsValue (digits : List Char) : Nat :=
  digits.foldl (fun n c => n * 10 + (c.toNat - 48)) 0

/-- A run of digits and what follows it. -/
def spanDigits (cs : List Char) : List Char × List Char :=
  (cs.takeWhile Char.isDigit, cs.dropWhile Char.isDigit)

/-- The fraction at the front: a point needs at least one digit behind it. -/
def fraction? : List Char → Option (Option (List Char) × List Char)
  | '.' :: rest =>
    match spanDigits rest with
    | ([], _) => none
    | (ds, rest) => some (some ds, rest)
  | cs => some (none, cs)

/-- The exponent at the front, with its sign: the letter needs at least one digit behind it. -/
def exponent? : List Char → Option (Option Int × List Char)
  | c :: rest =>
    if c == 'e' || c == 'E' then
      let (sign, rest) : Int × List Char :=
        match rest with
        | '+' :: rest => (1, rest)
        | '-' :: rest => (-1, rest)
        | rest => (1, rest)
      match spanDigits rest with
      | ([], _) => none
      | (ds, rest) => some (some (sign * digitsValue ds), rest)
    else some (none, c :: rest)
  | [] => some (none, [])

/-- **The number that the parts of a literal stand for.** An integer literal within 64 bits is an
integer, minus zero excepted; every other literal is a binary64 number. -/
def literalNumber? (negative : Bool) (integer : List Char) (fraction : Option (List Char))
    (exponent : Option Int) : Option Number :=
  let s := Scaled.ofInteger integer
  match fraction, exponent with
  | none, none =>
    if s.exact && !negative then some (.int s.significand)
    else if s.exact && 0 < s.significand && s.significand ≤ signedLimit then
      some (.int (-(s.significand : Int)))
    else (Binary64.ofScaled? negative s.significand s.exponent).map .real
  | _, _ =>
    let s := s.addFraction (fraction.getD [])
    (Binary64.ofScaled? negative s.significand (s.exponent + exponent.getD 0)).map .real

/-- A number whose sign has been read. A leading zero stands alone. -/
def number? (negative : Bool) (cs : List Char) : Option (Number × List Char) := do
  let (ds, rest) := spanDigits cs
  match ds with
  | [] => none
  | '0' :: _ :: _ => none
  | _ =>
    let (frac, rest) ← fraction? rest
    let (exp, rest) ← exponent? rest
    let n ← literalNumber? negative ds frac exp
    pure (n, rest)

/-! ## Values -/

/-- The word is at the front; what follows it. -/
def word? : List Char → List Char → Option (List Char)
  | [], cs => some cs
  | w :: ws, c :: cs => if w == c then word? ws cs else none
  | _ :: _, [] => none

mutual

/-- One value at the front, after blanks; `depth` more levels may be opened. -/
def value? : Nat → Nat → List Char → Option (Json × List Char)
  | 0, _, _ => none
  | fuel + 1, depth, cs =>
    match skipBlanks cs with
    | 'n' :: rest => (word? ['u', 'l', 'l'] rest).map (.null, ·)
    | 't' :: rest => (word? ['r', 'u', 'e'] rest).map (.bool true, ·)
    | 'f' :: rest => (word? ['a', 'l', 's', 'e'] rest).map (.bool false, ·)
    | '"' :: rest => (stringBody? (rest.length + 1) [] rest).map fun (s, rest) => (.str s, rest)
    | '[' :: rest =>
      match depth with
      | 0 => none
      | depth + 1 =>
        match skipBlanks rest with
        | ']' :: rest => some (.arr [], rest)
        | rest => (itemList? fuel depth rest).map fun (items, rest) => (.arr items, rest)
    | '\x7b' :: rest =>
      match depth with
      | 0 => none
      | depth + 1 =>
        match skipBlanks rest with
        | '\x7d' :: rest => some (.obj [], rest)
        | rest => (fieldList? fuel depth rest).map fun (fields, rest) => (.obj fields, rest)
    | '-' :: rest => (number? true rest).map fun (n, rest) => (.num n, rest)
    | rest => (number? false rest).map fun (n, rest) => (.num n, rest)

/-- The items of an array from one item to its closing bracket. -/
def itemList? : Nat → Nat → List Char → Option (List Json × List Char)
  | 0, _, _ => none
  | fuel + 1, depth, cs =>
    (value? fuel depth cs).bind fun (v, rest) =>
      match skipBlanks rest with
      | ',' :: rest => (itemList? fuel depth rest).map fun (vs, rest) => (v :: vs, rest)
      | ']' :: rest => some ([v], rest)
      | _ => none

/-- The fields of an object from one field to its closing brace. -/
def fieldList? : Nat → Nat → List Char → Option (List (String × Json) × List Char)
  | 0, _, _ => none
  | fuel + 1, depth, cs =>
    match skipBlanks cs with
    | '"' :: rest =>
      (stringBody? (rest.length + 1) [] rest).bind fun (key, rest) =>
        match skipBlanks rest with
        | ':' :: rest =>
          (value? fuel depth rest).bind fun (v, rest) =>
            match skipBlanks rest with
            | ',' :: rest =>
              (fieldList? fuel depth rest).map fun (fs, rest) => ((key, v) :: fs, rest)
            | '\x7d' :: rest => some ([(key, v)], rest)
            | _ => none
        | _ => none
    | _ => none

end

/-- The value as written: fields in the order of the text, repeated keys kept. -/
def readRaw? (text : String) : Option Json :=
  let cs := text.toList
  match value? (2 * cs.length + 2) maxDepth cs with
  | some (v, rest) => if (skipBlanks rest).isEmpty then some v else none
  | none => none

/-- **The value that a text holds**, objects ordered and the last of equal keys counting. -/
def read? (text : String) : Option Json := (readRaw? text).map ordered

end UserDirectory.Json
