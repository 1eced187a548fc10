/-!
# Bytes as text

The UTF-8 bytes of a text, and two ways of writing bytes as text: hexadecimal digits, and base64
with either of its alphabets.
-/

namespace UserDirectory

/-- **The UTF-8 bytes of a text.** -/
def utf8Bytes (s : String) : List UInt8 := s.toUTF8.toList

/-- A hexadecimal digit in lower case. -/
def hexLower (n : Nat) : Char := if n < 10 then Char.ofNat (48 + n) else Char.ofNat (87 + n)

/-- A hexadecimal digit in upper case. -/
def hexUpper (n : Nat) : Char := if n < 10 then Char.ofNat (48 + n) else Char.ofNat (55 + n)

/-- The two hexadecimal digits of each byte, in lower case. -/
def hexText (bytes : List UInt8) : String :=
  String.ofList (bytes.flatMap fun b => [hexLower (b.toNat / 16), hexLower (b.toNat % 16)])

namespace Base64

/-- The digit of a number below 64; `urlSafe` writes the last two as `-` and `_`. -/
def digit (urlSafe : Bool) (n : Nat) : Char :=
  if n < 26 then Char.ofNat (65 + n)
  else if n < 52 then Char.ofNat (71 + n)
  else if n < 62 then Char.ofNat (n - 4)
  else if n == 62 then (if urlSafe then '-' else '+')
  else (if urlSafe then '_' else '/')

/-- The number of a digit of the standard alphabet. -/
def value? (c : Char) : Option Nat :=
  let n := c.toNat
  if 'A' ≤ c ∧ c ≤ 'Z' then some (n - 65)
  else if 'a' ≤ c ∧ c ≤ 'z' then some (n - 71)
  else if '0' ≤ c ∧ c ≤ '9' then some (n + 4)
  else if c == '+' then some 62
  else if c == '/' then some 63
  else none

/-- The digits of a list of bytes, without padding: three bytes are four digits. -/
def digits (urlSafe : Bool) : List UInt8 → List Char
  | a :: b :: c :: rest =>
    let n := (a.toNat * 256 + b.toNat) * 256 + c.toNat
    digit urlSafe (n / 262144) :: digit urlSafe (n / 4096 % 64) :: digit urlSafe (n / 64 % 64)
      :: digit urlSafe (n % 64) :: digits urlSafe rest
  | [a, b] =>
    let n := (a.toNat * 256 + b.toNat) * 4
    [digit urlSafe (n / 4096), digit urlSafe (n / 64 % 64), digit urlSafe (n % 64)]
  | [a] =>
    let n := a.toNat * 16
    [digit urlSafe (n / 64), digit urlSafe (n % 64)]
  | [] => []

/-- **Base64 for use in URLs**, without padding. -/
def urlText (bytes : List UInt8) : String := String.ofList (digits true bytes)

/-- **Reads standard base64.** The text must be padded to a multiple of four, and the bits of the
last digit that belong to no byte must be zero. -/
def read? : List Char → Option (List UInt8)
  | [] => some []
  | [a, b, '=', '='] => do
    let n := (← value? a) * 64 + (← value? b)
    if n % 16 = 0 then some [UInt8.ofNat (n / 16)] else none
  | [a, b, c, '='] => do
    let n := ((← value? a) * 64 + (← value? b)) * 64 + (← value? c)
    if n % 4 = 0 then some [UInt8.ofNat (n / 1024), UInt8.ofNat (n / 4 % 256)] else none
  | a :: b :: c :: d :: rest => do
    let n := (((← value? a) * 64 + (← value? b)) * 64 + (← value? c)) * 64 + (← value? d)
    let bytes ← read? rest
    some (UInt8.ofNat (n / 65536) :: UInt8.ofNat (n / 256 % 256) :: UInt8.ofNat (n % 256) :: bytes)
  | _ => none

/-- The digit of the standard alphabet for one of the alphabet for URLs. -/
def standardDigit (c : Char) : Char := if c == '-' then '+' else if c == '_' then '/' else c

/-- **Reads base64 for use in URLs**, which has no padding. -/
def readUrl? (cs : List Char) : Option (List UInt8) :=
  if cs.any fun c => c == '+' || c == '/' || c == '=' then none
  else read? (cs.map standardDigit ++ List.replicate ((4 - cs.length % 4) % 4) '=')

end Base64

end UserDirectory
