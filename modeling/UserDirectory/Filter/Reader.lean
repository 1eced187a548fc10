import UserDirectory.Filter.Basic

/-!
# Reading filters from JSON

A filter is written as an object; its keys, in ascending order, are its clauses. What a key means is
settled by the key alone (`FilterKey.ofKey`), and `Clause.ofEntry` then says which values suit it.
`Clause.ofField` supplies the two readings of the value that are filters again: the object as a
nested filter, the array as a list of filters.

The error of a value that is no filter is the one of the first offending entry, depth first.
-/

namespace UserDirectory

/-- The deepest level at which a filter may stand, the outermost being `0`. -/
def Filter.maxDepth : Nat := 32

/-- **What a key of a filter object means.** -/
inductive FilterKey where
  /-- Query text. -/
  | raw
  /-- A field that has a value. -/
  | exists
  /-- A field that has none. -/
  | missing
  /-- A conjunction. -/
  | and
  /-- A disjunction. -/
  | or
  /-- An operator that no query can state. -/
  | unsupported
  /-- An operator on the field in scope. -/
  | operator (keyword : Keyword)
  /-- The name of a field. -/
  | field
  deriving DecidableEq, Repr

/-- Operator names of the caller's language that the query language has no counterpart for. -/
def unsupportedOperators : List String := ["near", "ilike", "nilike", "regexp", "maxDistance"]

/-- The key begins with a dollar sign. -/
def startsWithDollar (key : String) : Bool := key.toList.head? == some '$'

/-- Reads the meaning off a key. -/
def FilterKey.ofKey (key : String) : FilterKey :=
  if key == "$where" || key == "$search" then .raw
  else if key == "$exists" || key == "_exists_" then .exists
  else if key == "$missing" || key == "_missing_" then .missing
  else if key == "and" then .and
  else if key == "or" then .or
  else if unsupportedOperators.contains key || startsWithDollar key then .unsupported
  else
    match Keyword.ofName? key with
    | some keyword => .operator keyword
    | none => .field

/-! ## Operands -/

/-- The result of reading a part of a filter. -/
abbrev FilterResult (α : Type) := Except FilterError α

/-- A string. -/
def expectString (key : String) : Json → FilterResult String
  | .str s => .ok s
  | _ => .error (.invalidOperand key .string)

/-- A boolean. -/
def expectBool (key : String) : Json → FilterResult Bool
  | .bool b => .ok b
  | _ => .error (.invalidOperand key .boolean)

/-- A scalar. -/
def expectScalar (key : String) (v : Json) : FilterResult Literal :=
  match Literal.ofJson? v with
  | some l => .ok l
  | none => .error (.invalidOperand key .scalar)

/-- Scalars only. -/
def expectScalars (key : String) (items : List Json) : FilterResult (List Literal) :=
  items.mapM fun v =>
    match Literal.ofJson? v with
    | some l => .ok l
    | none => .error (.invalidOperand key .scalars)

/-- A list of scalars; a single scalar is a list of one, `null` the empty list. -/
def expectList (key : String) : Json → FilterResult (List Literal)
  | .null => .ok []
  | .arr items => expectScalars key items
  | v => (expectScalar key v).map ([·])

/-- A scalar, or an array that holds just one. -/
def expectPattern (key : String) : Json → FilterResult Literal
  | .arr [v] => expectScalar key v
  | v => expectScalar key v

/-- An array of exactly two scalars. -/
def expectPair (key : String) : Json → FilterResult (Literal × Literal)
  | .arr [lower, upper] =>
    (expectScalars key [lower, upper]).bind fun
      | [lower, upper] => .ok (lower, upper)
      | _ => .error (.invalidOperand key .twoScalars)
  | _ => .error (.invalidOperand key .twoScalars)

/-- An operand; `nested` is the reading of the value as a filter, used if it is an object. -/
def Operand.ofEntry (key : String) (v : Json) (nested : FilterResult Filter) :
    FilterResult Operand :=
  match v with
  | .null => .ok .null
  | .arr items => (expectScalars key items).map .list
  | .obj _ => nested.map .nested
  | v => (expectScalar key v).map .literal

/-- An operator with its operand. -/
def Operator.ofEntry (keyword : Keyword) (key : String) (v : Json)
    (nested : FilterResult Filter) : FilterResult Operator :=
  match keyword with
  | .inq => (expectList key v).map .inq
  | .nin => (expectList key v).map .nin
  | .neq => (Operand.ofEntry key v nested).map .neq
  | .gt => (expectScalar key v).map .gt
  | .gte => (expectScalar key v).map .gte
  | .lt => (expectScalar key v).map .lt
  | .lte => (expectScalar key v).map .lte
  | .between => (expectPair key v).map fun (lower, upper) => .between lower upper
  | .like => (expectPattern key v).map .like
  | .nlike => (expectPattern key v).map .nlike
  | .exists => (expectBool key v).map .exists
  | .missing => (expectBool key v).map .missing

/-- **The clause of one entry**, given the readings of its value as a filter (`nested`) and as a
list of filters (`children`), of which only the one that the key asks for is used. -/
def Clause.ofEntry (key : String) (v : Json) (nested : FilterResult Filter)
    (children : FilterResult (List Filter)) : FilterResult Clause :=
  match FilterKey.ofKey key with
  | .raw => (expectString key v).map .raw
  | .exists => (expectString key v).map .exists
  | .missing => (expectString key v).map .missing
  | .and => children.map .and
  | .or => children.map .or
  | .unsupported => .ok (.unsupported key)
  | .operator keyword => (Operator.ofEntry keyword key v nested).map .operator
  | .field => (Operand.ofEntry key v nested).map (.field key)

/-! ## The tree -/

/-- A filter may stand at this depth. -/
def checkDepth (depth : Nat) : FilterResult Unit :=
  if Filter.maxDepth < depth then .error (.tooDeep Filter.maxDepth) else .ok ()

mutual

/-- The clause of one entry of an object that stands at `depth`. -/
def Clause.ofField (depth : Nat) (key : String) : Json → FilterResult Clause
  | .obj fields =>
    Clause.ofEntry key (.obj fields)
      ((checkDepth (depth + 1)).bind fun _ => Filter.ofFields (depth + 1) fields)
      (.error (.logicalOperand key))
  | .arr items => Clause.ofEntry key (.arr items) (.ok []) (Filter.ofItems (depth + 1) key items)
  | v => Clause.ofEntry key v (.ok []) (.error (.logicalOperand key))

/-- The clauses of an object that stands at `depth`, entry by entry. -/
def Filter.ofFields (depth : Nat) : List (String × Json) → FilterResult Filter
  | [] => .ok []
  | (key, v) :: rest => do
    let clause ← Clause.ofField depth key v
    let clauses ← Filter.ofFields depth rest
    pure (clause :: clauses)

/-- The filters of an array under a logical key, each at `depth`. -/
def Filter.ofItems (depth : Nat) (key : String) : List Json → FilterResult (List Filter)
  | [] => .ok []
  | .obj fields :: rest => do
    checkDepth depth
    let filter ← Filter.ofFields depth fields
    let filters ← Filter.ofItems depth key rest
    pure (filter :: filters)
  | _ :: _ => .error (.logicalOperand key)

end

/-- **The filter that a value writes**; `null` is the empty filter. -/
def Filter.ofJson : Json → FilterResult Filter
  | .null => .ok []
  | .obj fields => Filter.ofFields 0 fields
  | v => .error (.notAnObject v)

end UserDirectory
