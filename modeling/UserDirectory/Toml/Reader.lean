import UserDirectory.Json.Fields
import UserDirectory.Toml.Document
import UserDirectory.Toml.Scalar
import UserDirectory.Toml.Text

/-!
# Reading TOML

`Toml.read?` reads a document of TOML 1.1 as a JSON object. A byte order mark at its front does not
count. Inline tables may span lines and end in a comma. Arrays and inline tables may be nested up to
`Toml.maxDepth` levels deep.

The reader works on the characters that are left, and its fuel is the length of the text, since
every step takes at least one of them.
-/

namespace UserDirectory.Toml

/-- The greatest number of arrays and inline tables that may be open at once. -/
def maxDepth : Nat := 80

/-- **How TOML writes structures**: it has no `null`, nothing is asked of the items that an array
has too many, and a case that holds nothing names an empty array or table. -/
def structureRules : StructureRules where
  surplusItems := true
  nullIsAbsent := false
  emptyCase v := v == .arr [] || v == .obj []

/-- The comment at the front, if there is one, is passed over. -/
def skipComment? : List Char → Option (List Char)
  | '#' :: rest =>
    let (body, rest) := (rest.takeWhile isText, rest.dropWhile isText)
    match body, rest with
    | _, [] => some []
    | _, rest => if (lineEnd? rest).isSome then some rest else none
  | cs => some cs

/-- The rest of a line on which nothing but spaces and a comment may follow. -/
def endOfLine? (cs : List Char) : Option (List Char) := do
  match ← skipComment? (skipSpaces cs) with
  | [] => pure []
  | rest => lineEnd? rest

/-- The text after spaces, comments and line ends. -/
def skipLines? : Nat → List Char → Option (List Char)
  | 0, _ => none
  | fuel + 1, cs => do
    let rest ← skipComment? (skipSpaces cs)
    match lineEnd? rest with
    | some rest => skipLines? fuel rest
    | none => pure rest

/-- The text after spaces, comments and line ends. -/
def skip? (cs : List Char) : Option (List Char) := skipLines? (cs.length + 1) cs

mutual

/-- The value at the front; `depth` more levels may be opened. -/
def value? : Nat → Nat → List Char → Option (Json × List Char)
  | 0, _, _ => none
  | fuel + 1, depth, cs =>
    match cs with
    | '[' :: rest =>
      match depth with
      | 0 => none
      | depth + 1 => (items? fuel depth rest).map fun (items, rest) => (.arr items, rest)
    | '\x7b' :: rest =>
      match depth with
      | 0 => none
      | depth + 1 =>
        (keyValues? fuel depth rest).bind fun (entries, rest) =>
          (inlineTable? entries).map (·, rest)
    | '"' :: _ | '\x27' :: _ => (string? cs).map fun (s, rest) => (.str s, rest)
    | _ =>
      let (word, rest) := takeWord cs
      (scalar? word).map (·, rest)

/-- The items of an array up to its closing bracket. -/
def items? : Nat → Nat → List Char → Option (List Json × List Char)
  | 0, _, _ => none
  | fuel + 1, depth, cs =>
    (skip? cs).bind fun
      | ']' :: rest => some ([], rest)
      | cs =>
        (value? fuel depth cs).bind fun (v, rest) =>
          (skip? rest).bind fun
            | ',' :: rest => (items? fuel depth rest).map fun (vs, rest) => (v :: vs, rest)
            | ']' :: rest => some ([v], rest)
            | _ => none

/-- The entries of an inline table up to its closing brace. -/
def keyValues? : Nat → Nat → List Char → Option (List Entry × List Char)
  | 0, _, _ => none
  | fuel + 1, depth, cs =>
    (skip? cs).bind fun
      | '\x7d' :: rest => some ([], rest)
      | cs =>
        (keyValue? fuel depth cs).bind fun (e, rest) =>
          (skip? rest).bind fun
            | ',' :: rest => (keyValues? fuel depth rest).map fun (es, rest) => (e :: es, rest)
            | '\x7d' :: rest => some ([e], rest)
            | _ => none

/-- An entry: a path, an equals sign and a value on one line. -/
def keyValue? : Nat → Nat → List Char → Option (Entry × List Char)
  | 0, _, _ => none
  | fuel + 1, depth, cs =>
    match path? cs with
    | some (path, '=' :: rest) =>
      (value? fuel depth (skipSpaces rest)).map fun (v, rest) => (⟨path, v⟩, rest)
    | _ => none

end

/-- The header at the front. -/
def header? (cs : List Char) : Option (Header × List Char) :=
  match cs with
  | '[' :: '[' :: rest =>
    match path? rest with
    | some (path, ']' :: ']' :: rest) => some (.element path, rest)
    | _ => none
  | '[' :: rest =>
    match path? rest with
    | some (path, ']' :: rest) => some (.table path, rest)
    | _ => none
  | _ => none

/-- The entries and the sections from here on: the entries are those before the next header. -/
def sections? : Nat → List Char → Option (List Entry × List Section)
  | 0, _ => none
  | fuel + 1, cs => do
    let cs ← skip? cs
    match cs with
    | [] => pure ([], [])
    | '[' :: _ => do
      let (header, rest) ← header? cs
      let (entries, sections) ← sections? fuel (← endOfLine? rest)
      pure ([], ⟨header, entries⟩ :: sections)
    | _ => do
      let (entry, rest) ← keyValue? (3 * cs.length + 3) maxDepth cs
      let (entries, sections) ← sections? fuel (← endOfLine? rest)
      pure (entry :: entries, sections)

/-- **The object that a document holds.** -/
def read? (text : String) : Option Json := do
  let cs :=
    match text.toList with
    | '\ufeff' :: cs => cs
    | cs => cs
  let (entries, sections) ← sections? (cs.length + 1) cs
  document? entries sections

end UserDirectory.Toml
