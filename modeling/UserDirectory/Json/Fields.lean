import UserDirectory.Json.Basic

/-!
# Structures in JSON

A structure is written as an object that names its fields, or as an array that lists them in the
order of their declaration and may stop early. `Json.fields?` brings both forms to a table from
which the structure's own reader takes each field; what a missing field means is for that reader to
say.

The readers of fields are built from a reader of the value: `optionalField?` takes `null` for an
absent field, `defaultField?` has a value for an absent field and refuses `null` unless the reader
takes it.

Values that were written in another format follow that format's habits instead. They are listed in
`StructureRules`, and the readers take them as their last argument.
-/

namespace UserDirectory

/-- **How a format writes structures.** -/
structure StructureRules where
  /-- An array may list more items than the structure has fields. -/
  surplusItems : Bool
  /-- `null` stands for an absent field. -/
  nullIsAbsent : Bool
  /-- What may stand under the name of a case that holds nothing. -/
  emptyCase : Json → Bool

/-- **The rules of JSON.** -/
def StructureRules.json : StructureRules := ⟨false, true, Json.isNull⟩

namespace Json

/-- Whether one of the names occurs twice among the fields. -/
def hasRepeated (names : List String) (fields : List (String × Json)) : Bool :=
  names.any fun name => 1 < (fields.filter fun e => e.1 == name).length

/-- **The fields of a structure**, by name. A closed structure refuses names that are not its own,
an open one passes over them; no name of its own may be repeated. -/
def fields? (names : List String) (closed : Bool) (v : Json)
    (rules : StructureRules := .json) : Option (List (String × Json)) :=
  match v with
  | .obj fields =>
    if closed && fields.any (fun e => !names.contains e.1) then none
    else if hasRepeated names fields then none
    else some fields
  | .arr items =>
    if names.length < items.length && !rules.surplusItems then none else some (names.zip items)
  | _ => none

/-- A field that may be absent. -/
def optionalField? {α : Type} (read : Json → Option α) (fields : List (String × Json))
    (name : String) (rules : StructureRules := .json) : Option (Option α) :=
  match fields.lookup name with
  | none => some none
  | some v => if v.isNull && rules.nullIsAbsent then some none else (read v).map some

/-- A field with a default. -/
def defaultField? {α : Type} (read : Json → Option α) (default : α)
    (fields : List (String × Json)) (name : String) : Option α :=
  match fields.lookup name with
  | none => some default
  | some v => read v

/-- An array of strings. -/
def strings? : Json → Option (List String)
  | .arr items => items.mapM string?
  | _ => none

/-- A table of strings. -/
def stringTable? : Json → Option (Table String)
  | .obj fields => fields.mapM fun (k, v) => (v.string?).map (k, ·)
  | _ => none

/-- Any value, as it is. -/
def any? (v : Json) : Option Json := some v

/-- The name of a case that holds nothing, written as a string or as an object whose only field has
that name. -/
def caseName? (v : Json) (rules : StructureRules := .json) : Option String :=
  match v with
  | .str s => some s
  | .obj [(name, content)] => if rules.emptyCase content then some name else none
  | _ => none

/-- The value with everything below its own fields ordered: its fields stay as they were written, so
that a repeated one can be told. -/
def orderedBelow : Json → Json
  | .obj fields => .obj (orderedFields fields)
  | v => v.ordered

/-- The present fields of a structure as an object. -/
def ofFields (fields : List (String × Option Json)) : Json :=
  .obj (Table.ofList (fields.filterMap fun (k, v) => v.map (k, ·)))

end Json

end UserDirectory
