import UserDirectory.Json.Basic

/-!
# Documents of TOML

A document defines values under paths, section by section, and may define nothing twice. What a
later line may still add to a table depends on how the table came about: `Origin` keeps that. A
header may complete a table that so far was only on the path to another one, keys with dots may add
to tables that keys with dots made, and nothing adds to an inline table or to a plain array.
-/

namespace UserDirectory.Toml

/-- How a table came about. -/
inductive Origin where
  /-- A header names it. -/
  | header
  /-- It is on the way to a table that a header names. -/
  | way
  /-- A key with dots runs through it. -/
  | dotted
  deriving DecidableEq, Repr

/-- **What a key holds** while the document is read. -/
inductive Node where
  /-- A finished value; inline tables and plain arrays are finished too. -/
  | value (v : Json)
  | table (origin : Origin) (fields : List (String × Node))
  /-- The tables of an array whose elements headers name. -/
  | tables (elements : List (List (String × Node)))
  deriving Inhabited

/-- The keys of a table with what they hold. -/
abbrev Fields := List (String × Node)

/-- Puts a node under a key. -/
def Fields.set (fields : Fields) (key : String) (node : Node) : Fields :=
  (key, node) :: fields.filter (·.1 != key)

/-- **Defines the value of a path** in a table. Only the last key may be new to a table that dots
made or to the table itself; on the way there may be such tables and those on the way to a
header. -/
def define? (v : Json) : List String → Fields → Option Fields
  | [], _ => none
  | [key], fields => if (fields.lookup key).isSome then none else some (fields.set key (.value v))
  | key :: rest, fields =>
    match fields.lookup key with
    | none => (define? v rest []).map fun inner => fields.set key (.table .dotted inner)
    | some (.table .dotted inner) =>
      (define? v rest inner).map fun inner => fields.set key (.table .dotted inner)
    | some (.table .way inner) =>
      if rest.length < 2 then none
      else (define? v rest inner).map fun inner => fields.set key (.table .way inner)
    | some _ => none

/-- An assignment: a path and its value. -/
structure Entry where
  path : List String
  value : Json

/-- Defines several entries, one after another. -/
def defineAll? (entries : List Entry) (fields : Fields) : Option Fields :=
  entries.foldlM (fun fields e => define? e.value e.path fields) fields

/-- **Changes what a header names**, on the way going into the last table of an array. -/
def place? (change : Option Node → Option Node) : List String → Fields → Option Fields
  | [], _ => none
  | [key], fields => (change (fields.lookup key)).map fun node => fields.set key node
  | key :: rest, fields =>
    match fields.lookup key with
    | none => (place? change rest []).map fun inner => fields.set key (.table .way inner)
    | some (.table origin inner) =>
      (place? change rest inner).map fun inner => fields.set key (.table origin inner)
    | some (.tables elements) =>
      match elements.getLast? with
      | none => none
      | some inner =>
        (place? change rest inner).map fun inner =>
          fields.set key (.tables (elements.dropLast ++ [inner]))
    | some (.value _) => none

/-- What a section describes. -/
inductive Header where
  /-- A table. -/
  | table (path : List String)
  /-- One more table of an array. -/
  | element (path : List String)

/-- **A section**: a header and the entries under it. -/
structure Section where
  header : Header
  entries : List Entry

/-- The table of a section, which no earlier section may have named. -/
def Section.complete? (s : Section) : Option Node → Option Node
  | none => (defineAll? s.entries []).map (.table .header)
  | some (.table .way fields) => (defineAll? s.entries fields).map (.table .header)
  | some _ => none

/-- The array with the table of a section behind the others. -/
def Section.append? (s : Section) : Option Node → Option Node
  | none => (defineAll? s.entries []).map fun fields => .tables [fields]
  | some (.tables elements) =>
    (defineAll? s.entries []).map fun fields => .tables (elements ++ [fields])
  | some _ => none

/-- Adds a section to the tables of a document. -/
def Section.add? (s : Section) (fields : Fields) : Option Fields :=
  match s.header with
  | .table path => place? s.complete? path fields
  | .element path => place? s.append? path fields

mutual

/-- The value of a node. -/
def Node.toJson : Node → Json
  | .value v => v
  | .table _ fields => .obj (Table.ofList (fieldsToJson fields))
  | .tables elements => .arr (elementsToJson elements)

/-- The values of the fields of a table. -/
def fieldsToJson : List (String × Node) → List (String × Json)
  | [] => []
  | (key, node) :: rest => (key, node.toJson) :: fieldsToJson rest

/-- The values of the tables of an array. -/
def elementsToJson : List (List (String × Node)) → List Json
  | [] => []
  | fields :: rest => .obj (Table.ofList (fieldsToJson fields)) :: elementsToJson rest

end

/-- **The value of a document**: the entries before the first header, then the sections. -/
def document? (top : List Entry) (sections : List Section) : Option Json := do
  let fields ← defineAll? top []
  let fields ← sections.foldlM (fun fields s => s.add? fields) fields
  pure (Node.table .header fields).toJson

/-- The value of an inline table. -/
def inlineTable? (entries : List Entry) : Option Json := document? entries []

end UserDirectory.Toml
