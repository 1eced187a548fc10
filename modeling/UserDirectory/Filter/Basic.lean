import UserDirectory.Json.Basic

/-!
# Filters

A filter is what a caller asks of a user, as a tree. It is a conjunction of clauses; a clause is a
condition on a named field, a condition on the field in scope, a conjunction or disjunction of
filters, a test of existence, or a piece of query text taken as it is. A field whose operand is a
filter again opens a scope: the names inside it extend its path.

Conditions that the directory's query language cannot state are kept as `Clause.unsupported`, so
that whoever writes the query can tell what was left out of it.
-/

namespace UserDirectory

/-- **A scalar operand.** -/
inductive Literal where
  | string (s : String)
  | number (n : Number)
  | bool (b : Bool)
  deriving DecidableEq, Repr, Inhabited

namespace Literal

/-- The scalar as a literal; arrays, objects and `null` are none. -/
def ofJson? : Json → Option Literal
  | .str s => some (.string s)
  | .num n => some (.number n)
  | .bool b => some (.bool b)
  | _ => none

/-- The literal as a value. -/
def toJson : Literal → Json
  | .string s => .str s
  | .number n => .num n
  | .bool b => .bool b

/-- A backslash goes before each quote and each backslash of a phrase. -/
def escapeChar (c : Char) : List Char := if c == '\\' || c == '"' then ['\\', c] else [c]

/-- **A phrase**: the text between double quotes, escaped so that it ends at its own closing quote
and nowhere before. -/
def phrase (s : String) : String := String.ofList ('"' :: s.toList.flatMap escapeChar ++ ['"'])

/-- The text of a literal in a query: a phrase for a string, the bare word for any other. -/
def text : Literal → String
  | .string s => phrase s
  | .number n => n.text
  | .bool true => "true"
  | .bool false => "false"

@[simp] theorem ofJson?_toJson (l : Literal) : ofJson? l.toJson = some l := by
  cases l <;> rfl

end Literal

/-- **The operator keywords** of the caller's language. -/
inductive Keyword where
  | inq | nin | neq | gt | gte | lt | lte | between | like | nlike | exists | missing
  deriving DecidableEq, Repr

namespace Keyword

/-- The keyword as it is written. -/
def name : Keyword → String
  | .inq => "inq"
  | .nin => "nin"
  | .neq => "neq"
  | .gt => "gt"
  | .gte => "gte"
  | .lt => "lt"
  | .lte => "lte"
  | .between => "between"
  | .like => "like"
  | .nlike => "nlike"
  | .exists => "exists"
  | .missing => "missing"

/-- Every keyword, once. -/
def all : List Keyword :=
  [.inq, .nin, .neq, .gt, .gte, .lt, .lte, .between, .like, .nlike, .exists, .missing]

/-- The keyword with a name. -/
def ofName? (name : String) : Option Keyword := all.find? fun k => k.name == name

end Keyword

mutual

/-- **A clause**, one entry of a filter. -/
inductive Clause where
  /-- Query text taken as it is. -/
  | raw (text : String)
  /-- The named field has a value. -/
  | exists (field : String)
  /-- The named field has no value. -/
  | missing (field : String)
  /-- All of the filters hold. -/
  | and (children : List (List Clause))
  /-- One of the filters holds. -/
  | or (children : List (List Clause))
  /-- The operand applies to the named field. -/
  | field (name : String) (operand : Operand)
  /-- The operator applies to the field in scope. -/
  | operator (op : Operator)
  /-- A condition that cannot be stated in a query. -/
  | unsupported (key : String)

/-- **What a field is compared with.** -/
inductive Operand where
  | literal (value : Literal)
  /-- The field is empty, zero or missing. -/
  | null
  /-- The field equals one of the literals. -/
  | list (values : List Literal)
  /-- The clauses hold with the field in scope. -/
  | nested (filter : List Clause)

/-- **A condition on the field in scope.** -/
inductive Operator where
  | inq (values : List Literal)
  | nin (values : List Literal)
  | neq (operand : Operand)
  | gt (value : Literal)
  | gte (value : Literal)
  | lt (value : Literal)
  | lte (value : Literal)
  | between (lower upper : Literal)
  | like (pattern : Literal)
  | nlike (pattern : Literal)
  | exists (present : Bool)
  | missing (absent : Bool)

end

/-- **A filter**: all of its clauses hold. -/
abbrev Filter := List Clause

/-- The keyword of an operator. -/
def Operator.keyword : Operator → Keyword
  | .inq _ => .inq
  | .nin _ => .nin
  | .neq _ => .neq
  | .gt _ => .gt
  | .gte _ => .gte
  | .lt _ => .lt
  | .lte _ => .lte
  | .between _ _ => .between
  | .like _ => .like
  | .nlike _ => .nlike
  | .exists _ => .exists
  | .missing _ => .missing

/-! ## Errors -/

/-- What an operand should have been. -/
inductive Expected where
  | string | scalar | scalars | twoScalars | boolean
  deriving DecidableEq, Repr

/-- The wording of an expectation. -/
def Expected.text : Expected → String
  | .string => "a string"
  | .scalar => "a scalar"
  | .scalars => "an array of scalars"
  | .twoScalars => "an array of two scalars"
  | .boolean => "a boolean"

/-- **Why a value is no filter.** -/
inductive FilterError where
  /-- The value is neither an object nor `null`. -/
  | notAnObject (found : Json)
  /-- A conjunction or disjunction of anything but objects. -/
  | logicalOperand (key : String)
  /-- An operand that does not suit its key. -/
  | invalidOperand (key : String) (expected : Expected)
  /-- Filters nested beyond the limit. -/
  | tooDeep (limit : Nat)
  deriving DecidableEq, Repr

/-- The kind of a value, with its article. -/
def Json.kindText : Json → String
  | .null => "null"
  | .bool _ => "a boolean"
  | .num _ => "a number"
  | .str _ => "a string"
  | .arr _ => "an array"
  | .obj _ => "an object"

/-- The wording of an error. -/
def FilterError.message : FilterError → String
  | .notAnObject found => "filter must be an object, found " ++ found.kindText
  | .logicalOperand key => "`" ++ key ++ "` expects an array of filter objects"
  | .invalidOperand key expected => "`" ++ key ++ "` expects " ++ expected.text
  | .tooDeep limit => "filter nesting exceeds maximum depth of " ++ toString limit

end UserDirectory
