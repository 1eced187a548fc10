import UserDirectory.Mapping.Basic

/-!
# Resolving mappings

Records travel in two directions, and a scope (the connector, or one model) may state a table for
either, for both or for none. A direction that it leaves out is the inverse of the one it states.
`ResolvedMappings.resolve` lays a model's tables over the connector's and makes sure that both
results can be inverted; with no table for the way back stated anywhere, the way back is the inverse
of the merged way out.
-/

namespace UserDirectory

/-- **Which way a record travels.** -/
inductive Direction where
  /-- From the directory to the caller. -/
  | normalize
  /-- From the caller to the directory. -/
  | serialize
  deriving DecidableEq, Repr

/-- The other way. -/
def Direction.opposite : Direction → Direction
  | .normalize => .serialize
  | .serialize => .normalize

/-- **The tables that a scope states.** -/
structure MappingScope where
  serialize : Option FieldMapping := none
  normalize : Option FieldMapping := none
  deriving Inhabited, DecidableEq

/-- The result of deriving a mapping. -/
abbrev MappingResult (α : Type) := Except DuplicateTarget α

namespace MappingScope

/-- The table stated for a direction. -/
def stated (s : MappingScope) : Direction → Option FieldMapping
  | .serialize => s.serialize
  | .normalize => s.normalize

/-- **The table of a direction**: the stated one, or else the inverse of the opposite one. -/
def table (s : MappingScope) (d : Direction) : MappingResult (Option FieldMapping) :=
  match s.stated d with
  | some m => .ok (some m)
  | none =>
    match s.stated d.opposite with
    | some m => m.invert.map some
    | none => .ok none

end MappingScope

/-- **The tables of both directions.** -/
structure ResolvedMappings where
  serialize : FieldMapping
  normalize : FieldMapping
  deriving Inhabited, DecidableEq

namespace ResolvedMappings

/-- The table of a direction. -/
def table (r : ResolvedMappings) : Direction → FieldMapping
  | .serialize => r.serialize
  | .normalize => r.normalize

/-- The connector's table of a direction with the model's laid over it. -/
def merged (connector : MappingScope) (model : Option MappingScope) (d : Direction) :
    MappingResult FieldMapping := do
  let wide := (← connector.table d).getD .empty
  match model with
  | none => pure wide
  | some scope =>
    match ← scope.table d with
    | none => pure wide
    | some narrow => pure (wide.extend narrow)

/-- **Resolves the tables of a model**, or of the connector alone. -/
def resolve (connector : MappingScope) (model : Option MappingScope) :
    MappingResult ResolvedMappings := do
  let serialize ← merged connector model .serialize
  if connector.normalize.isSome || model.any (·.normalize.isSome) then
    let normalize ← merged connector model .normalize
    let _ ← serialize.invert
    let _ ← normalize.invert
    pure { serialize, normalize }
  else
    pure { serialize, normalize := ← serialize.invert }

end ResolvedMappings

/-- **The resolved tables** of the connector and of each model with tables of its own. -/
structure FieldMapper where
  connector : ResolvedMappings
  models : Table ResolvedMappings
  deriving Inhabited, DecidableEq

namespace FieldMapper

/-- Resolves every scope, the models first, in order. -/
def resolve (connector : MappingScope) (models : Table MappingScope) :
    MappingResult FieldMapper := do
  let models ← models.mapM fun (name, scope) => do
    pure (name, ← ResolvedMappings.resolve connector (some scope))
  pure { connector := ← ResolvedMappings.resolve connector none, models }

/-- The tables of a model, the connector's unless it has its own. -/
def tables (m : FieldMapper) (model : String) : ResolvedMappings :=
  (m.models.get? model).getD m.connector

/-- The table of a model and a direction. -/
def table (m : FieldMapper) (model : String) (d : Direction) : FieldMapping :=
  (m.tables model).table d

end FieldMapper

end UserDirectory
