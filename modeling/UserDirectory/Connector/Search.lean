import UserDirectory.Connector.Settings
import UserDirectory.Filter.Compile
import UserDirectory.Search.Merge

/-!
# Searches

A caller's bundle becomes a request in the directory's names. Its condition is narrowed by the
scopes of the connector and the model and, where searches keep to a connection, by that connection;
then its keys are renamed, and the filter that results is compiled.

Keys that come to one name after renaming must both hold: the second and every further one moves
into the conjunction of the filter.
-/

namespace UserDirectory

/-! ## Renaming -/

/-- The keys whose value is the name of a field. -/
def fieldValuedKeys : List String := ["$exists", "_exists_", "$missing", "_missing_"]

/-- A condition on one key. -/
def singleCondition (key : String) (operand : Json) : Json := .obj [(key, operand)]

/-- Entries with distinct keys, and the conditions on keys that were taken already. -/
structure RenamedFields where
  fields : Record := []
  collisions : List Json := []

/-- Adds an entry under its new key. -/
def RenamedFields.add (r : RenamedFields) (entry : String × Json) : RenamedFields :=
  if Table.contains r.fields entry.1 then
    { r with collisions := r.collisions ++ [singleCondition entry.1 entry.2] }
  else { r with fields := Table.insert r.fields entry.1 entry.2 }

/-- The entries with the collisions added to their conjunction. A conjunction that is no array
becomes one of the conditions added. -/
def RenamedFields.toRecord (r : RenamedFields) : Record :=
  if r.collisions.isEmpty then r.fields
  else
    match Table.get? r.fields "and" with
    | some (.arr items) => Table.insert r.fields "and" (.arr (items ++ r.collisions))
    | some existing =>
      Table.insert r.fields "and" (.arr (r.collisions ++ [singleCondition "and" existing]))
    | none => Table.insert r.fields "and" (.arr r.collisions)

/-- The entry of a key that is neither a conjunction nor a disjunction. -/
def renameEntry (rename : String → Json → String) (key : String) (operand : Json) :
    String × Json :=
  if fieldValuedKeys.contains key then
    match operand with
    | .str field => (key, .str (rename field .null))
    | other => (key, other)
  else if startsWithDollar key then (key, operand)
  else (rename key operand, operand)

mutual

/-- **The condition with its keys renamed**, inside conjunctions and disjunctions too. Operands stay
as they are, but for the fields that tests of existence name. -/
def renameCondition (rename : String → Json → String) : Json → Json
  | .obj fields =>
    .obj ((renameEntries rename fields).foldl RenamedFields.add {}).toRecord
  | v => v

/-- Renames each of several conditions. -/
def renameConditions (rename : String → Json → String) : List Json → List Json
  | [] => []
  | v :: rest => renameCondition rename v :: renameConditions rename rest

/-- Renames each entry of a condition. -/
def renameEntries (rename : String → Json → String) :
    List (String × Json) → List (String × Json)
  | [] => []
  | (key, .arr items) :: rest =>
    (if key == "and" || key == "or" then (key, .arr (renameConditions rename items))
      else renameEntry rename key (.arr items)) :: renameEntries rename rest
  | (key, operand) :: rest =>
    (if key == "and" || key == "or" then (key, operand) else renameEntry rename key operand)
      :: renameEntries rename rest

end

/-- The text has an at sign that is not its first character. -/
def looksLikeEmail (s : String) : Bool :=
  match s.toList with
  | [] => false
  | c :: rest => c != '@' && rest.contains '@'

/-- **The directory's name for a caller's key.** An id that looks like an email is searched as
one. -/
def searchAlias (key : String) (value : Json) : String :=
  if key == "id" then
    match value with
    | .str s => if looksLikeEmail s then "email" else "user_id"
    | _ => "user_id"
  else if key == "connection" then "identities.connection"
  else key

namespace ConnectorSettings

/-! ## Conditions -/

/-- Whether the searches of a model keep to its connection: unless the connector or the model says
no. -/
def scopesConnection (s : ConnectorSettings) (model : String) : Bool :=
  s.connectionQueryScope && ((s.model? model).bind (·.connectionQueryScope)).getD true

/-- The conditions that every search of a model is narrowed by, in order. -/
def scopeConditions (s : ConnectorSettings) (model : String) : List Json :=
  s.queryScope.toList ++ ((s.model? model).bind (·.queryScope)).toList ++
    (if s.scopesConnection model then
      [singleCondition "connection" (.str (s.connectionOf model))]
    else [])

/-- **The caller's condition, narrowed**, in the caller's names. -/
def scopedWhere (s : ConnectorSettings) (model : String) (condition : Option Json) : Json :=
  (s.scopeConditions model).foldl conjunction (condition.getD .null)

/-- The remote name of a caller's key. -/
def remoteKey (s : ConnectorSettings) (model : String) (key : String) (value : Json) : String :=
  (s.mapper.table model .serialize).apply (searchAlias key value)

/-- **The compiled condition in full**, even when it is empty; nothing if there is no condition. -/
def compileScoped (s : ConnectorSettings) (model : String) (condition : Option Json) :
    FilterResult (Option CompiledQuery) := do
  let narrowed := s.scopedWhere model condition
  if isEmptyCondition narrowed then pure none
  else
    let filter ← Filter.ofJson (renameCondition (s.remoteKey model) narrowed)
    pure (some filter.compile)

/-- **The query of a condition**; nothing when nothing constrains the search. -/
def compileWhere (s : ConnectorSettings) (model : String) (condition : Option Json) :
    FilterResult (Option CompiledQuery) := do
  let compiled ← s.compileScoped model condition
  pure (compiled.filter (!·.isEmpty))

/-- The query text of a condition. -/
def buildWhere (s : ConnectorSettings) (model : String) (condition : Option Json) :
    FilterResult (Option String) := do
  pure ((← s.compileWhere model condition).map (·.query))

/-! ## Requests -/

/-- A sort term in remote names, if the directory sorts by it. -/
def sortTerm? (s : ConnectorSettings) (model : String) (t : SortTerm) : Option String :=
  let t := { t with field := (s.mapper.table model .serialize).apply t.field }
  if sortableFields.contains t.field then some t.text else none

/-- **The first term that the directory sorts by.** -/
def buildOrder (s : ConnectorSettings) (model : String) (order : Order) : Option String :=
  order.terms.findSome? (s.sortTerm? model)

/-- The fields of a request in remote names, with commas between them. -/
def buildFields (s : ConnectorSettings) (model : String) (fields : List String) : Option String :=
  if fields.isEmpty then none
  else some (",".intercalate (fields.map (s.mapper.table model .serialize).apply))

/-- **The request of a bundle.** -/
def buildQuery (s : ConnectorSettings) (model : String) (bundle : SearchBundle) :
    FilterResult UserQuery := do
  let q ← s.buildWhere model bundle.condition
  pure {
    q
    searchEngine := q.map fun _ => s.searchEngine
    perPage := bundle.limit
    page := pageIndex bundle.offset bundle.skip
    fields := bundle.fields.bind (s.buildFields model)
    sort := bundle.order.bind (s.buildOrder model)
    includeTotals := bundle.totals }

end ConnectorSettings

end UserDirectory
