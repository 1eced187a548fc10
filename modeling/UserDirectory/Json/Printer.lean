import UserDirectory.Json.Basic

/-!
# Writing JSON text

`Json.text` writes a value without blanks, `Json.pretty` one item or field a line, indented by two
spaces. Fields keep the order of the table, which for a well-formed value is ascending.
-/

namespace UserDirectory.Json

/-- A hexadecimal digit, in lower case. -/
def hexDigit (n : Nat) : Char := if n < 10 then Char.ofNat (48 + n) else Char.ofNat (87 + n)

/-- The characters that stand for one character of a string: quote, backslash and the controls below
space are escaped, all others stand for themselves. -/
def escapeChar (c : Char) : List Char :=
  if c == '"' then ['\\', '"']
  else if c == '\\' then ['\\', '\\']
  else if 0x20 ≤ c.toNat then [c]
  else if c == '\n' then ['\\', 'n']
  else if c == '\r' then ['\\', 'r']
  else if c == '\t' then ['\\', 't']
  else if c.toNat == 8 then ['\\', 'b']
  else if c.toNat == 12 then ['\\', 'f']
  else ['\\', 'u', '0', '0', hexDigit (c.toNat / 16), hexDigit (c.toNat % 16)]

/-- A string between quotes. -/
def quotedChars (s : String) : List Char := '"' :: s.toList.flatMap escapeChar ++ ['"']

/-- A string between quotes, as text. -/
def quoted (s : String) : String := String.ofList (quotedChars s)

mutual

/-- The characters of a value. -/
def chars : Json → List Char
  | .null => ['n', 'u', 'l', 'l']
  | .bool true => ['t', 'r', 'u', 'e']
  | .bool false => ['f', 'a', 'l', 's', 'e']
  | .num n => n.text.toList
  | .str s => quotedChars s
  | .arr items => '[' :: itemChars items ++ [']']
  | .obj fields => '\x7b' :: fieldChars fields ++ ['\x7d']

/-- The items, with commas between them. -/
def itemChars : List Json → List Char
  | [] => []
  | [v] => v.chars
  | v :: rest => v.chars ++ ',' :: itemChars rest

/-- The fields, with commas between them. -/
def fieldChars : List (String × Json) → List Char
  | [] => []
  | [(k, v)] => quotedChars k ++ ':' :: v.chars
  | (k, v) :: rest => quotedChars k ++ ':' :: v.chars ++ ',' :: fieldChars rest

end

/-- **The text of a value**, without blanks. -/
def text (v : Json) : String := String.ofList v.chars

/-- A line end and the indentation of a level. -/
def lineStart (level : Nat) : List Char := '\n' :: List.replicate (2 * level) ' '

mutual

/-- The characters of a value at a level, one item or field a line. -/
def prettyChars (level : Nat) : Json → List Char
  | .arr [] => ['[', ']']
  | .arr items => '[' :: prettyItems (level + 1) items ++ lineStart level ++ [']']
  | .obj [] => ['\x7b', '\x7d']
  | .obj fields => '\x7b' :: prettyFields (level + 1) fields ++ lineStart level ++ ['\x7d']
  | .null => ['n', 'u', 'l', 'l']
  | .bool true => ['t', 'r', 'u', 'e']
  | .bool false => ['f', 'a', 'l', 's', 'e']
  | .num n => n.text.toList
  | .str s => quotedChars s

/-- The items, one a line. -/
def prettyItems (level : Nat) : List Json → List Char
  | [] => []
  | [v] => lineStart level ++ v.prettyChars level
  | v :: rest => lineStart level ++ v.prettyChars level ++ ',' :: prettyItems level rest

/-- The fields, one a line. -/
def prettyFields (level : Nat) : List (String × Json) → List Char
  | [] => []
  | [(k, v)] => lineStart level ++ quotedChars k ++ ':' :: ' ' :: v.prettyChars level
  | (k, v) :: rest =>
    lineStart level ++ quotedChars k ++ ':' :: ' ' :: v.prettyChars level ++
      ',' :: prettyFields level rest

end

/-- **The indented text of a value.** -/
def pretty (v : Json) : String := String.ofList (v.prettyChars 0)

end UserDirectory.Json
