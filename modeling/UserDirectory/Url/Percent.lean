import UserDirectory.Text.Bytes

/-!
# Percent-encoding

A URL writes every character that its place does not allow as the bytes of its UTF-8 form, each as a
percent sign and two hexadecimal digits. What a place does not allow is a set of characters of
ASCII; controls and characters beyond ASCII are never allowed.
-/

namespace UserDirectory.Url

/-- Controls, and all beyond ASCII. -/
def isControlOrBeyond (c : Char) : Bool := c.toNat < 0x20 || 0x7E < c.toNat

/-- Not allowed in a fragment. -/
def fragmentSet (c : Char) : Bool := isControlOrBeyond c || [' ', '"', '<', '>', '`'].contains c

/-- Not allowed in a query. -/
def querySet (c : Char) : Bool := isControlOrBeyond c || [' ', '"', '#', '<', '>'].contains c

/-- Not allowed in the query of a web address. -/
def specialQuerySet (c : Char) : Bool := querySet c || c == '\''

/-- Not allowed in a path. -/
def pathSet (c : Char) : Bool := fragmentSet c || ['#', '?', '\x7b', '\x7d'].contains c

/-- Not allowed in a single segment of a path. -/
def segmentSet (c : Char) : Bool := pathSet c || c == '/' || c == '%'

/-- Not allowed in a single segment of a web address, where a backslash would end it. -/
def specialSegmentSet (c : Char) : Bool := segmentSet c || c == '\\'

/-- Not allowed in a user name or a password. -/
def userinfoSet (c : Char) : Bool :=
  pathSet c || ['/', ':', ';', '=', '@', '[', '\\', ']', '^', '|'].contains c

/-- The percent-encoded bytes of a character. -/
def percentChar (c : Char) : List Char :=
  (utf8Bytes (String.singleton c)).flatMap fun b =>
    ['%', hexUpper (b.toNat / 16), hexUpper (b.toNat % 16)]

/-- **Encodes the characters of a set**; all others stand for themselves. -/
def percentEncode (set : Char → Bool) (cs : List Char) : List Char :=
  cs.flatMap fun c => if set c then percentChar c else [c]

/-- The value of a hexadecimal digit. -/
def hexValue? (c : Char) : Option Nat :=
  if '0' ≤ c ∧ c ≤ '9' then some (c.toNat - 48)
  else if 'a' ≤ c ∧ c ≤ 'f' then some (c.toNat - 87)
  else if 'A' ≤ c ∧ c ≤ 'F' then some (c.toNat - 55)
  else none

/-- **The bytes that a text stands for**, encoded ones decoded. -/
def percentDecode : List Char → List UInt8
  | [] => []
  | c :: rest =>
    let plain := utf8Bytes (String.singleton c) ++ percentDecode rest
    match c, rest with
    | '%', a :: b :: tail =>
      match hexValue? a, hexValue? b with
      | some x, some y => UInt8.ofNat (16 * x + y) :: percentDecode tail
      | _, _ => plain
    | _, _ => plain

/-! ## Forms -/

/-- A space becomes a plus sign; letters, digits and `*-._` stand for themselves; all else is
encoded. -/
def formChar (c : Char) : List Char :=
  if c == ' ' then ['+']
  else if (c.toNat < 128 && c.isAlphanum) || ['*', '-', '.', '_'].contains c then [c]
  else percentChar c

/-- A text in the encoding of forms. -/
def formText (s : String) : String := String.ofList (s.toList.flatMap formChar)

/-- **The query of a form**: names and values with `=` between them, pairs with `&`. -/
def formQuery (pairs : List (String × String)) : String :=
  "&".intercalate (pairs.map fun (k, v) => formText k ++ "=" ++ formText v)

end UserDirectory.Url
