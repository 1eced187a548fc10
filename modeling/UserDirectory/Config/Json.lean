import UserDirectory.Config.Basic

/-!
# Configurations as JSON

A configuration reads from an object, or an array in the order of declaration, and refuses names
that are not its own. It is written with all of its settings, absent ones as `null`. Since
configuration files have a format of their own, the readers take the rules of the format.
-/

namespace UserDirectory

/-- The name of a level. -/
def LogLevel.name : LogLevel → String
  | .trace => "trace"
  | .debug => "debug"
  | .info => "info"
  | .warn => "warn"
  | .error => "error"

/-- Reads the name of a level. -/
def LogLevel.ofJson? (v : Json) (rules : StructureRules := .json) : Option LogLevel := do
  let name ← v.caseName? rules
  [LogLevel.trace, .debug, .info, .warn, .error].find? (·.name == name)

/-- The name of a format. -/
def LogFormat.name : LogFormat → String
  | .pretty => "pretty"
  | .compact => "compact"
  | .json => "json"

/-- The format with a name. -/
def LogFormat.ofName? (name : String) : Option LogFormat :=
  [LogFormat.pretty, .compact, .json].find? (·.name == name)

/-- Reads the name of a format. -/
def LogFormat.ofJson? (v : Json) (rules : StructureRules := .json) : Option LogFormat :=
  (v.caseName? rules).bind LogFormat.ofName?

/-- A value, or `null`. -/
def Json.ofOption {α : Type} (write : α → Json) : Option α → Json
  | some a => write a
  | none => .null

/-- Reads a mapping: an object of strings. -/
def FieldMapping.ofJson? (v : Json) : Option FieldMapping := (v.stringTable?).map .ofList

/-- Writes a mapping, dropped entries included. -/
def FieldMapping.toJson (m : FieldMapping) : Json := .obj (m.entries.mapValues .str)

namespace LoggingConfig

/-- The settings' names, in the order of declaration. -/
def fieldNames : List String := ["level", "format", "timestamps", "file_line", "filter"]

/-- Reads the settings of logging. -/
def ofJson? (v : Json) (rules : StructureRules := .json) : Option LoggingConfig := do
  let fields ← v.fields? fieldNames true rules
  pure {
    level := ← Json.defaultField? (LogLevel.ofJson? · rules) .info fields "level"
    format := ← Json.defaultField? (LogFormat.ofJson? · rules) .compact fields "format"
    timestamps := ← Json.defaultField? Json.bool? true fields "timestamps"
    fileLine := ← Json.defaultField? Json.bool? false fields "file_line"
    filter := ← Json.optionalField? Json.string? fields "filter" rules }

/-- Writes the settings of logging. -/
def toJson (c : LoggingConfig) : Json := .obj (Table.ofList [
  ("level", .str c.level.name), ("format", .str c.format.name), ("timestamps", .bool c.timestamps),
  ("file_line", .bool c.fileLine), ("filter", .ofOption .str c.filter)])

end LoggingConfig

namespace ModelConfig

/-- The settings' names, in the order of declaration. -/
def fieldNames : List String :=
  ["connection", "connection_query_scope", "mapping", "normalize_mapping", "serialize_mapping",
    "defaults", "attributes", "query_scope", "scopes", "app_metadata", "user_metadata"]

/-- Reads the settings of a model. -/
def ofJson? (v : Json) (rules : StructureRules := .json) : Option ModelConfig := do
  let fields ← v.fields? fieldNames true rules
  pure {
    connection := ← Json.optionalField? Json.string? fields "connection" rules
    connectionQueryScope := ← Json.optionalField? Json.bool? fields "connection_query_scope" rules
    mapping := ← Json.optionalField? FieldMapping.ofJson? fields "mapping" rules
    normalizeMapping := ← Json.optionalField? FieldMapping.ofJson? fields "normalize_mapping" rules
    serializeMapping := ← Json.optionalField? FieldMapping.ofJson? fields "serialize_mapping" rules
    defaults := ← Json.defaultField? Json.record? [] fields "defaults"
    attributes := ← Json.defaultField? Json.record? [] fields "attributes"
    queryScope := ← Json.defaultField? (SearchBundle.ofJson? · rules) {} fields "query_scope"
    scopes := ← Json.optionalField? TokenScopes.ofJson? fields "scopes" rules
    appMetadata := ← Json.defaultField? Json.record? [] fields "app_metadata"
    userMetadata := ← Json.defaultField? Json.record? [] fields "user_metadata" }

/-- Writes the settings of a model. -/
def toJson (c : ModelConfig) : Json := .obj (Table.ofList [
  ("connection", .ofOption .str c.connection),
  ("connection_query_scope", .ofOption .bool c.connectionQueryScope),
  ("mapping", .ofOption FieldMapping.toJson c.mapping),
  ("normalize_mapping", .ofOption FieldMapping.toJson c.normalizeMapping),
  ("serialize_mapping", .ofOption FieldMapping.toJson c.serializeMapping),
  ("defaults", .obj c.defaults), ("attributes", .obj c.attributes),
  ("query_scope", c.queryScope.toJson), ("scopes", .ofOption TokenScopes.toJson c.scopes),
  ("app_metadata", .obj c.appMetadata), ("user_metadata", .obj c.userMetadata)])

end ModelConfig

namespace ConnectorConfig

/-- The settings' names, in the order of declaration. -/
def fieldNames : List String :=
  ["domain", "client_id", "client_secret", "connection", "search_engine", "connection_query_scope",
    "token_lifetime_secs", "mapping", "normalize_mapping", "serialize_mapping", "defaults",
    "attributes", "query_scope", "scopes", "app_metadata", "user_metadata", "outbound_attributes",
    "date_fields", "models", "logging"]

/-- Reads the settings of the models, by name. -/
def models? (v : Json) (rules : StructureRules := .json) : Option (Table ModelConfig) :=
  match v with
  | .obj fields => fields.mapM fun (name, v) => do pure (name, ← ModelConfig.ofJson? v rules)
  | _ => none

/-- **Reads a configuration.** -/
def ofJson? (v : Json) (rules : StructureRules := .json) : Option ConnectorConfig := do
  let fields ← v.fields? fieldNames true rules
  let text (name : String) : Option String := Json.defaultField? Json.string? "" fields name
  let record (name : String) : Option Record := Json.defaultField? Json.record? [] fields name
  let mapping (name : String) : Option (Option FieldMapping) :=
    Json.optionalField? FieldMapping.ofJson? fields name rules
  pure {
    domain := ← text "domain"
    clientId := ← text "client_id"
    clientSecret := ← text "client_secret"
    connection := ← text "connection"
    searchEngine := ← Json.defaultField? (SearchEngine.ofJson? · rules) .v2 fields "search_engine"
    connectionQueryScope := ← Json.defaultField? Json.bool? true fields "connection_query_scope"
    tokenLifetime := ← Json.defaultField? Json.nat? 3600 fields "token_lifetime_secs"
    mapping := ← Json.defaultField? FieldMapping.ofJson? .empty fields "mapping"
    normalizeMapping := ← mapping "normalize_mapping"
    serializeMapping := ← mapping "serialize_mapping"
    defaults := ← record "defaults"
    attributes := ← record "attributes"
    queryScope := ← Json.defaultField? (SearchBundle.ofJson? · rules) {} fields "query_scope"
    scopes := ← Json.defaultField? TokenScopes.ofJson? .empty fields "scopes"
    appMetadata := ← record "app_metadata"
    userMetadata := ← record "user_metadata"
    outboundAttributes :=
      ← Json.defaultField? Json.strings? defaultOutboundAttributes fields "outbound_attributes"
    dateFields := ← Json.defaultField? Json.strings? defaultDateFields fields "date_fields"
    models := ← Json.defaultField? (models? · rules) [] fields "models"
    logging := ← Json.defaultField? (LoggingConfig.ofJson? · rules) {} fields "logging" }

/-- **Writes a configuration.** -/
def toJson (c : ConnectorConfig) : Json := .obj (Table.ofList [
  ("domain", .str c.domain), ("client_id", .str c.clientId),
  ("client_secret", .str c.clientSecret), ("connection", .str c.connection),
  ("search_engine", .str c.searchEngine.name),
  ("connection_query_scope", .bool c.connectionQueryScope),
  ("token_lifetime_secs", .ofNat c.tokenLifetime), ("mapping", c.mapping.toJson),
  ("normalize_mapping", .ofOption FieldMapping.toJson c.normalizeMapping),
  ("serialize_mapping", .ofOption FieldMapping.toJson c.serializeMapping),
  ("defaults", .obj c.defaults), ("attributes", .obj c.attributes),
  ("query_scope", c.queryScope.toJson), ("scopes", c.scopes.toJson),
  ("app_metadata", .obj c.appMetadata), ("user_metadata", .obj c.userMetadata),
  ("outbound_attributes", .ofStrings c.outboundAttributes),
  ("date_fields", .ofStrings c.dateFields),
  ("models", .obj (Table.mapValues ModelConfig.toJson c.models)),
  ("logging", c.logging.toJson)])

end ConnectorConfig

end UserDirectory
