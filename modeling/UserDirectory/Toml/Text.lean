import UserDirectory.Json.Reader

/-!
# Strings and keys of TOML

A string is basic, with escapes, or literal, without; either may span lines between tripled quotes,
and then a line feed right behind the opening quotes does not count. A key is a word of letters,
digits, hyphens and underscores, or a string on one line; keys with dots between them are a path.
-/

namespace UserDirectory.Toml

/-- Space and tab. -/
def isSpace (c : Char) : Bool := c == ' ' || c == '\t'

/-- The text after its leading spaces. -/
def skipSpaces (cs : List Char) : List Char := cs.dropWhile isSpace

/-- A character that may stand in a text of one line: the tab, and all that are no controls. -/
def isText (c : Char) : Bool := c == '\t' || (0x20 ≤ c.toNat && c.toNat != 0x7F)

/-- The line end at the front, if there is one; what follows it. -/
def lineEnd? : List Char → Option (List Char)
  | '\n' :: rest => some rest
  | '\r' :: '\n' :: rest => some rest
  | _ => none

/-! ## Escapes -/

/-- The character of so many hexadecimal digits at the front. -/
def hexEscape? (count : Nat) (cs : List Char) : Option (Char × List Char) := do
  let digits := cs.take count
  if digits.length != count then none
  let code ← digits.foldlM (fun n c => (Json.hexDigit? c).map (n * 16 + ·)) 0
  if code.isValidChar then some (Char.ofNat code, cs.drop count) else none

/-- The character of the escape whose backslash has been read. -/
def escape? : List Char → Option (Char × List Char)
  | 'b' :: rest => some (Char.ofNat 8, rest)
  | 't' :: rest => some ('\t', rest)
  | 'n' :: rest => some ('\n', rest)
  | 'f' :: rest => some (Char.ofNat 12, rest)
  | 'r' :: rest => some ('\r', rest)
  | 'e' :: rest => some (Char.ofNat 27, rest)
  | '"' :: rest => some ('"', rest)
  | '\\' :: rest => some ('\\', rest)
  | 'x' :: rest => hexEscape? 2 rest
  | 'u' :: rest => hexEscape? 4 rest
  | 'U' :: rest => hexEscape? 8 rest
  | _ => none

/-- A backslash at the end of a line takes with it the line end and all spaces and line ends that
follow. Here the backslash has been read. -/
def continuation? (cs : List Char) : Option (List Char) :=
  (lineEnd? (skipSpaces cs)).map (·.dropWhile fun c => isSpace c || c == '\n' || c == '\r')

/-! ## Strings -/

/-- The rest of a basic string on one line; `acc` holds what was read, last character first. -/
def basicBody? : Nat → List Char → List Char → Option (String × List Char)
  | 0, _, _ => none
  | fuel + 1, acc, cs =>
    match cs with
    | [] => none
    | '"' :: rest => some (String.ofList acc.reverse, rest)
    | '\\' :: rest => (escape? rest).bind fun (c, rest) => basicBody? fuel (c :: acc) rest
    | c :: rest => if isText c then basicBody? fuel (c :: acc) rest else none

/-- The rest of a literal string on one line. -/
def literalBody? (cs : List Char) : Option (String × List Char) :=
  let body := cs.takeWhile (· != '\x27')
  match cs.dropWhile (· != '\x27') with
  | _ :: rest => if body.all isText then some (String.ofList body, rest) else none
  | [] => none

/-- The rest of a string of several lines, in which backslashes escape or do not. Up to two quotes
before the three that close it belong to the string. -/
def linesBody? (quote : Char) (escapes : Bool) :
    Nat → List Char → List Char → Option (String × List Char)
  | 0, _, _ => none
  | fuel + 1, acc, cs =>
    match cs with
    | [] => none
    | c :: rest =>
      if c == quote then
        let run := min ((c :: rest).takeWhile (· == quote)).length 5
        let after := (c :: rest).drop run
        if 3 ≤ run then
          some (String.ofList (List.replicate (run - 3) quote ++ acc).reverse, after)
        else linesBody? quote escapes fuel (List.replicate run quote ++ acc) after
      else if escapes && c == '\\' then
        match continuation? rest with
        | some rest => linesBody? quote escapes fuel acc rest
        | none =>
          (escape? rest).bind fun (c, rest) => linesBody? quote escapes fuel (c :: acc) rest
      else
        match lineEnd? (c :: rest) with
        | some rest => linesBody? quote escapes fuel ('\n' :: acc) rest
        | none => if isText c then linesBody? quote escapes fuel (c :: acc) rest else none

/-- A string of several lines whose opening quotes have been read. -/
def lines? (quote : Char) (escapes : Bool) (cs : List Char) : Option (String × List Char) :=
  let cs := (lineEnd? cs).getD cs
  linesBody? quote escapes (cs.length + 1) [] cs

/-- **The string at the front**, if a quote opens one. -/
def string? : List Char → Option (String × List Char)
  | '"' :: '"' :: '"' :: rest => lines? '"' true rest
  | '"' :: rest => basicBody? (rest.length + 1) [] rest
  | '\x27' :: '\x27' :: '\x27' :: rest => lines? '\x27' false rest
  | '\x27' :: rest => literalBody? rest
  | _ => none

/-! ## Keys -/

/-- A character of a key without quotes. -/
def isKeyChar (c : Char) : Bool := c.isAlphanum || c == '_' || c == '-'

/-- The key at the front, without dots. -/
def simpleKey? : List Char → Option (String × List Char)
  | '"' :: rest => basicBody? (rest.length + 1) [] rest
  | '\x27' :: rest => literalBody? rest
  | cs =>
    match cs.takeWhile isKeyChar with
    | [] => none
    | word => some (String.ofList word, cs.dropWhile isKeyChar)

/-- The keys of a path, with dots and spaces between them. -/
def pathFrom? : Nat → List Char → Option (List String × List Char)
  | 0, _ => none
  | fuel + 1, cs => do
    let (key, rest) ← simpleKey? (skipSpaces cs)
    match skipSpaces rest with
    | '.' :: rest =>
      let (path, rest) ← pathFrom? fuel rest
      pure (key :: path, rest)
    | rest => pure ([key], rest)

/-- **The path at the front**, less the spaces around it. -/
def path? (cs : List Char) : Option (List String × List Char) := pathFrom? (cs.length + 1) cs

end UserDirectory.Toml
