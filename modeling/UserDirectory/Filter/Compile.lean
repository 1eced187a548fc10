import UserDirectory.Filter.Basic
import UserDirectory.Text.Alphanumeric
import UserDirectory.Text.Blank

/-!
# Compiling filters to directory queries

The directory searches by a line of text such as

    email:"a@b.com" AND user_metadata.plan:("pro" OR "team") AND -(logins_count:[* TO 3])

`Filter.pieces` gives the pieces of a filter, which ` AND ` joins. The scope is the path of the
field that the clauses apply to, if there is one. Outside any field a conjunction has no text of its
own, its children's pieces being pieces of the level; inside a field, and for a disjunction with
more than one branch, the group stands in parentheses.

Clauses without a counterpart in the query language yield no piece. `Filter.dropped` lists them, in
the order of the filter, with the field in scope and the reason.
-/

namespace UserDirectory

/-! ## Query text -/

namespace Query

/-- The text in parentheses. -/
def paren (s : String) : String := "(" ++ s ++ ")"

/-- The pieces with ` AND ` between them. -/
def conjoin (pieces : List String) : String := " AND ".intercalate pieces

/-- The pieces with ` OR ` between them. -/
def disjoin (pieces : List String) : String := " OR ".intercalate pieces

/-- The field has the value. -/
def equals (field : String) (value : Literal) : String := field ++ ":" ++ value.text

/-- The field has one of the values; no text for no values. -/
def oneOf? (field : String) (values : List Literal) : Option String :=
  if values.isEmpty then none else some (field ++ ":" ++ paren (disjoin (values.map Literal.text)))

/-- The field has a value. -/
def present (field : String) : String := "_exists_:" ++ field

/-- The field has no value. -/
def absent (field : String) : String := "_missing_:" ++ field

/-- The field is empty, zero or missing. -/
def blank (field : String) : String :=
  paren (disjoin [field ++ ":\"\"", field ++ ":0", absent field])

/-- Characters of a bound that needs no quotes. -/
def isBareBoundChar (c : Char) : Bool :=
  isAlphanumeric c || ['-', '_', '.', ':', '+', '@'].contains c

/-- The text of a range bound: bare where nothing in it could be taken for syntax, else as any
literal. -/
def bound : Literal → String
  | .string s => if s.toList.all isBareBoundChar && !s.isEmpty then s else Literal.phrase s
  | l => l.text

/-- The field lies above the bound, which is itself excluded. -/
def above (field : String) (v : Literal) : String := field ++ ":\x7b" ++ bound v ++ " TO *]"

/-- The field lies at or above the bound. -/
def atLeast (field : String) (v : Literal) : String := field ++ ":[" ++ bound v ++ " TO *]"

/-- The field lies below the bound, which is itself excluded. -/
def below (field : String) (v : Literal) : String := field ++ ":[* TO " ++ bound v ++ "\x7d"

/-- The field lies at or below the bound. -/
def atMost (field : String) (v : Literal) : String := field ++ ":[* TO " ++ bound v ++ "]"

/-- The field lies between the bounds, both included. -/
def within (field : String) (lower upper : Literal) : String :=
  field ++ ":[" ++ bound lower ++ " TO " ++ bound upper ++ "]"

/-- Query text of the caller: trimmed, and in parentheses when it has blanks inside. -/
def verbatim? (text : String) : Option String :=
  let t := trimBlanks text
  if t.toList.any isBlank then some (paren t) else if t.isEmpty then none else some t

end Query

/-- The path of a field inside a scope. -/
def scopedPath (scope : Option String) (name : String) : String :=
  match scope with
  | some path => path ++ "." ++ name
  | none => name

/-- The pieces of one group: none, the only piece, or all of them in parentheses. -/
def groupPieces : List String → List String
  | [] => []
  | [piece] => [piece]
  | pieces => [Query.paren (Query.conjoin pieces)]

/-- The groups of a conjunction or disjunction as one piece, if there are any. -/
def joinGroups (enclosed : Bool) (join : List String → String) (groups : List String) :
    List String :=
  if groups.isEmpty then [] else [if enclosed then Query.paren (join groups) else join groups]

/-! ## Pieces -/

mutual

/-- **The pieces of a clause** in a scope. -/
def Clause.pieces (scope : Option String) : Clause → List String
  | .raw text => (Query.verbatim? text).toList
  | .exists field => [Query.present field]
  | .missing field => [Query.absent field]
  | .and children =>
    match scope with
    | none => Filter.flatPieces children
    | some path => joinGroups true Query.conjoin (Filter.groups (some path) children)
  | .or children =>
    let groups := Filter.groups scope children
    joinGroups (scope.isSome || 1 < groups.length) Query.disjoin groups
  | .field name operand => operand.pieces (scopedPath scope name)
  | .operator op =>
    match scope with
    | none => []
    | some path => op.pieces path
  | .unsupported _ => []

/-- The pieces of an operand, at most one. -/
def Operand.pieces (field : String) : Operand → List String
  | .literal value => [Query.equals field value]
  | .null => [Query.blank field]
  | .list values => (Query.oneOf? field values).toList
  | .nested filter => groupPieces (Filter.pieces (some field) filter)

/-- The pieces of an operator, at most one. -/
def Operator.pieces (field : String) : Operator → List String
  | .inq values => (Query.oneOf? field values).toList
  | .nin values => ((Query.oneOf? field values).map ("-" ++ ·)).toList
  | .neq operand => (operand.pieces field).map fun piece => "-" ++ Query.paren piece
  | .gt v => [Query.above field v]
  | .gte v => [Query.atLeast field v]
  | .lt v => [Query.below field v]
  | .lte v => [Query.atMost field v]
  | .between lower upper => [Query.within field lower upper]
  | .like pattern => [Query.equals field pattern]
  | .nlike pattern => ["-" ++ Query.equals field pattern]
  | .exists present => [if present then Query.present field else Query.absent field]
  | .missing absent => [if absent then Query.absent field else Query.present field]

/-- **The pieces of a filter** in a scope, clause by clause. -/
def Filter.pieces (scope : Option String) : List Clause → List String
  | [] => []
  | clause :: rest => clause.pieces scope ++ Filter.pieces scope rest

/-- The pieces of several filters outside any field. -/
def Filter.flatPieces : List (List Clause) → List String
  | [] => []
  | filter :: rest => Filter.pieces none filter ++ Filter.flatPieces rest

/-- One group for each filter that has pieces. -/
def Filter.groups (scope : Option String) : List (List Clause) → List String
  | [] => []
  | filter :: rest => groupPieces (Filter.pieces scope filter) ++ Filter.groups scope rest

end

/-! ## Dropped clauses -/

/-- Why a clause has no text. -/
inductive DropReason where
  /-- The query language has no such operator. -/
  | unsupportedOperator
  /-- An operator outside any field. -/
  | missingField
  deriving DecidableEq, Repr

/-- The wording of a reason. -/
def DropReason.text : DropReason → String
  | .unsupportedOperator => "unsupported operator"
  | .missingField => "operator without a field"

/-- **A clause left out of the query.** -/
structure DroppedClause where
  /-- The operator. -/
  key : String
  /-- The field in scope, if there is one. -/
  field : Option String
  /-- Why it was left out. -/
  reason : DropReason
  deriving DecidableEq, Repr

mutual

/-- The dropped parts of a clause. -/
def Clause.dropped (scope : Option String) : Clause → List DroppedClause
  | .raw _ | .exists _ | .missing _ => []
  | .and children | .or children => Filter.droppedAll scope children
  | .field name operand => operand.dropped (scopedPath scope name)
  | .operator op =>
    match scope with
    | none => [⟨op.keyword.name, none, .missingField⟩]
    | some path => op.dropped path
  | .unsupported key => [⟨key, scope, .unsupportedOperator⟩]

/-- The dropped parts of an operand. -/
def Operand.dropped (field : String) : Operand → List DroppedClause
  | .nested filter => Filter.dropped (some field) filter
  | .literal _ | .null | .list _ => []

/-- The dropped parts of an operator: only an inequality holds an operand. -/
def Operator.dropped (field : String) : Operator → List DroppedClause
  | .neq operand => operand.dropped field
  | _ => []

/-- **The dropped clauses of a filter**, in order. -/
def Filter.dropped (scope : Option String) : List Clause → List DroppedClause
  | [] => []
  | clause :: rest => clause.dropped scope ++ Filter.dropped scope rest

/-- The dropped clauses of several filters. -/
def Filter.droppedAll (scope : Option String) : List (List Clause) → List DroppedClause
  | [] => []
  | filter :: rest => Filter.dropped scope filter ++ Filter.droppedAll scope rest

end

/-! ## Compilation -/

/-- **A compiled filter**: the query and what was left out of it. -/
structure CompiledQuery where
  /-- The query text; empty when the filter asks nothing that can be stated. -/
  query : String
  /-- The clauses without text, in order. -/
  dropped : List DroppedClause
  deriving DecidableEq, Repr

/-- The query is empty. -/
def CompiledQuery.isEmpty (c : CompiledQuery) : Bool := c.query.isEmpty

/-- **Compiles a filter.** -/
def Filter.compile (filter : Filter) : CompiledQuery :=
  { query := Query.conjoin (Filter.pieces none filter)
    dropped := Filter.dropped none filter }

end UserDirectory
