import UserDirectory.Decimal.Power
import UserDirectory.Text.Blank
import UserDirectory.Text.Lowercase
import UserDirectory.Text.Numeral
import UserDirectory.Url.Percent
import UserDirectory.Url.Punycode

/-!
# Hosts

The host of a URL is a domain, an address of either length, or, in schemes that are not the web's,
any text without syntax. Domains are brought to lower case and their labels beyond ASCII to
Punycode; a domain whose last label is a number must be an address.
-/

namespace UserDirectory.Url

/-- **A host.** -/
inductive Host where
  /-- A domain in ASCII. -/
  | domain (name : String)
  /-- An address of 32 bits. -/
  | ipv4 (address : Nat)
  /-- An address of eight pieces of 16 bits. -/
  | ipv6 (pieces : List Nat)
  /-- A text that is not interpreted. -/
  | text (text : String)
  deriving DecidableEq, Repr

/-! ## Writing -/

/-- The four bytes of an address. -/
def ipv4Text (a : Nat) : String :=
  ".".intercalate ([a / 16777216, a / 65536 % 256, a / 256 % 256, a % 256].map toString)

/-- A piece in hexadecimal digits. -/
def pieceText (p : Nat) : String := String.ofList (Nat.toDigits 16 p)

/-- The length of the run of zeros at the front. -/
def leadingZeros (pieces : List Nat) : Nat := (pieces.takeWhile (· == 0)).length

/-- Where the longest run of at least two zeros begins, and its length. -/
def longestZeroRun (pieces : List Nat) : Option (Nat × Nat) :=
  (List.range pieces.length).foldl (fun best i =>
    let length := leadingZeros (pieces.drop i)
    match best with
    | none => if 2 ≤ length then some (i, length) else none
    | some (_, most) => if most < length then some (i, length) else best) none

/-- The pieces in hexadecimal, the longest run of zeros left out. -/
def ipv6Text (pieces : List Nat) : String :=
  match longestZeroRun pieces with
  | none => ":".intercalate (pieces.map pieceText)
  | some (start, length) =>
    ":".intercalate ((pieces.take start).map pieceText) ++ "::" ++
      ":".intercalate ((pieces.drop (start + length)).map pieceText)

/-- **The text of a host.** -/
def Host.print : Host → String
  | .domain name => name
  | .ipv4 a => ipv4Text a
  | .ipv6 pieces => "[" ++ ipv6Text pieces ++ "]"
  | .text t => t

/-! ## Short addresses -/

/-- The value of digits in a base. -/
def baseValue? (base : Nat) (cs : List Char) : Option Nat :=
  cs.foldlM (fun n c => ((hexValue? c).filter (· < base)).map (n * base + ·)) 0

/-- A number as addresses write it: hexadecimal behind `0x`, octal behind `0`, else decimal. -/
def addressNumber? (cs : List Char) : Option Nat :=
  match cs with
  | [] => none
  | '0' :: 'x' :: rest | '0' :: 'X' :: rest => baseValue? 16 rest
  | '0' :: c :: rest => baseValue? 8 (c :: rest)
  | cs => baseValue? 10 cs

/-- The labels, an empty last one left out. -/
def addressLabels (name : List Char) : List (List Char) :=
  let labels := splitAtAll (· == '.') name
  match labels.reverse with
  | [] :: rest@(_ :: _) => rest.reverse
  | _ => labels

/-- The last label is a number. -/
def endsInNumber (name : List Char) : Bool :=
  match (addressLabels name).getLast? with
  | none => false
  | some last =>
    (!last.isEmpty && last.all Char.isDigit) ||
      (match last with
      | '0' :: 'x' :: _ | '0' :: 'X' :: _ => (addressNumber? last).isSome
      | _ => false)

/-- Reads an address of one to four numbers; the last one fills all bytes that are left. -/
def ipv4? (name : List Char) : Option Nat := do
  let labels := addressLabels name
  let numbers ← labels.mapM addressNumber?
  let last ← numbers.getLast?
  let front := numbers.dropLast
  if 4 < numbers.length || front.any (255 < ·) || twoTo (8 * (5 - numbers.length)) ≤ last then none
  else some (front.zipIdx.foldl (fun sum (n, i) => sum + n * twoTo (8 * (3 - i))) last)

/-! ## Long addresses -/

/-- One to four hexadecimal digits. -/
def piece? (cs : List Char) : Option Nat :=
  if cs.isEmpty || 4 < cs.length then none else baseValue? 16 cs

/-- A byte in decimal, without a leading zero. -/
def plainByte? (cs : List Char) : Option Nat :=
  match cs with
  | '0' :: _ :: _ => none
  | cs => (digits? cs).filter (· < 256)

/-- The two pieces of four bytes with points between them. -/
def embeddedPieces? (cs : List Char) : Option (List Nat) :=
  match (splitAtAll (· == '.') cs).mapM plainByte? with
  | some [a, b, c, d] => some [a * 256 + b, c * 256 + d]
  | _ => none

/-- Pieces with colons between them; the last may be a short address. -/
def pieceGroup? (cs : List Char) : Option (List Nat) :=
  if cs.isEmpty then some []
  else
    let parts := splitAtAll (· == ':') cs
    match parts.getLast? with
    | none => none
    | some last =>
      if last.contains '.' then do
        let front ← parts.dropLast.mapM piece?
        pure (front ++ (← embeddedPieces? last))
      else parts.mapM piece?

/-- The texts before and behind the first pair of colons. -/
def splitDoubleColon? : List Char → Option (List Char × List Char)
  | ':' :: ':' :: rest => some ([], rest)
  | c :: rest => (splitDoubleColon? rest).map fun (a, b) => (c :: a, b)
  | [] => none

/-- **Reads an address of eight pieces**; a pair of colons stands for one piece of zero or more. -/
def ipv6? (cs : List Char) : Option (List Nat) :=
  match splitDoubleColon? cs with
  | none => (pieceGroup? cs).filter (·.length == 8)
  | some (front, back) => do
    if front.contains '.' then none
    let front ← pieceGroup? front
    let back ← pieceGroup? back
    let missing := 8 - (front.length + back.length)
    if 8 ≤ front.length + back.length then none
    else pure (front ++ List.replicate missing 0 ++ back)

/-! ## Domains -/

/-- Characters that no host may hold. -/
def forbiddenHostChars : List Char :=
  [' ', '#', '/', ':', '<', '>', '?', '@', '[', '\\', ']', '^', '|', '\t', '\n', '\r', Char.ofNat 0]

/-- Characters that no domain may hold. -/
def isForbiddenInDomain (c : Char) : Bool :=
  c.toNat ≤ 0x20 || c == '%' || c.toNat == 0x7F || forbiddenHostChars.contains c

/-- Characters that vanish from a domain: the soft hyphen, joiners and variation selectors. -/
def isIgnoredInDomain (c : Char) : Bool :=
  let n := c.toNat
  n == 0xAD || n == 0x34F || n == 0x200B || n == 0x2060 || n == 0x2064 || n == 0xFEFF
    || (0x180B ≤ n && n ≤ 0x180D) || n == 0x180F || (0xFE00 ≤ n && n ≤ 0xFE0F)

/-- A character of a domain as its plain counterpart: wide forms become ASCII, the other full stops
a full stop, letters lower-case. -/
def domainChar (c : Char) : Char :=
  let n := c.toNat
  if n == 0x3002 || n == 0xFF0E || n == 0xFF61 then '.'
  else if 0xFF01 ≤ n && n ≤ 0xFF5E then lowercase (Char.ofNat (n - 0xFEE0))
  else lowercase c

/-- A label in ASCII. One that claims to be Punycode must read as such. -/
def asciiLabel? (label : List Char) : Option (List Char) :=
  if label.all (·.toNat < 128) then
    match label with
    | 'x' :: 'n' :: '-' :: '-' :: rest =>
      match Punycode.decode? rest with
      | none => none
      | some decoded =>
        if decoded.all (·.toNat < 0xA0) || decoded.map domainChar != decoded then none
        else some label
    | _ => some label
  else some ('x' :: 'n' :: '-' :: '-' :: Punycode.encode label)

/-- **A domain in ASCII.** -/
def asciiDomain? (name : List Char) : Option (List Char) := do
  let mapped := (name.filter fun c => !isIgnoredInDomain c).map domainChar
  let labels ← (splitAtAll (· == '.') mapped).mapM asciiLabel?
  let ascii := List.intercalate ['.'] labels
  if ascii.isEmpty || ascii.any isForbiddenInDomain then none else some ascii

/-- **Reads the host of a web address.** -/
def specialHost? (cs : List Char) : Option Host :=
  match cs with
  | '[' :: rest =>
    match rest.reverse with
    | ']' :: inner => (ipv6? inner.reverse).map .ipv6
    | _ => none
  | cs => do
    let bytes := percentDecode cs
    let decoded ← String.fromUTF8? ⟨bytes.toArray⟩
    let ascii ← asciiDomain? decoded.toList
    if endsInNumber ascii then (ipv4? ascii).map .ipv4
    else some (.domain (String.ofList ascii))

/-- Reads the host of any other scheme: a long address, or text without syntax. -/
def plainHost? (cs : List Char) : Option Host :=
  match cs with
  | '[' :: rest =>
    match rest.reverse with
    | ']' :: inner => (ipv6? inner.reverse).map .ipv6
    | _ => none
  | cs =>
    if cs.any forbiddenHostChars.contains then none
    else some (.text (String.ofList (percentEncode isControlOrBeyond cs)))

end UserDirectory.Url
