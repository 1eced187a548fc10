import UserDirectory.Client.Scopes
import UserDirectory.Mapping.Resolve
import UserDirectory.Search.Bundle

/-!
# Configuration

What a connector is told at its start: which directory, under which credentials, how names map, what
is added to every record and every search, and how it logs. A model may have settings of its own;
what it leaves open is the connector's.
-/

namespace UserDirectory

/-- How much is logged. -/
inductive LogLevel where
  | trace | debug | info | warn | error
  deriving DecidableEq, Repr, Inhabited

/-- How log lines look. -/
inductive LogFormat where
  | pretty | compact | json
  deriving DecidableEq, Repr, Inhabited

/-- **How to log.** -/
structure LoggingConfig where
  level : LogLevel := .info
  format : LogFormat := .compact
  timestamps : Bool := true
  /-- Whether lines name the place in the program. -/
  fileLine : Bool := false
  /-- Directives that take the place of the level. -/
  filter : Option String := none
  deriving DecidableEq, Repr, Inhabited

/-- **The settings of one model.** -/
structure ModelConfig where
  connection : Option String := none
  /-- Whether searches keep to the model's connection. -/
  connectionQueryScope : Option Bool := none
  /-- Entries over the connector's way out. -/
  mapping : Option FieldMapping := none
  normalizeMapping : Option FieldMapping := none
  /-- A way out that takes the place of `mapping`. -/
  serializeMapping : Option FieldMapping := none
  defaults : Record := []
  attributes : Record := []
  queryScope : SearchBundle := {}
  scopes : Option TokenScopes := none
  appMetadata : Record := []
  userMetadata : Record := []
  deriving DecidableEq, Inhabited

/-- The mapping tables that a model states. -/
def ModelConfig.mappingScope (m : ModelConfig) : MappingScope where
  serialize := m.serializeMapping.or m.mapping
  normalize := m.normalizeMapping

/-- The remote fields that leave unless the configuration says otherwise. -/
def defaultOutboundAttributes : List String :=
  ["connection", "client_id", "username", "password", "blocked", "email", "email_verified",
    "phone_number", "phone_verified", "verify_email", "verify_phone_number", "verify_password",
    "user_metadata", "app_metadata"]

/-- The caller's date fields unless the configuration says otherwise. -/
def defaultDateFields : List String := ["createdAt", "updatedAt", "lastLogin"]

/-- **The settings of a connector.** -/
structure ConnectorConfig where
  /-- The tenant of the directory. -/
  domain : String := ""
  clientId : String := ""
  clientSecret : String := ""
  /-- The connection that users belong to. -/
  connection : String := ""
  searchEngine : SearchEngine := .v2
  /-- Whether searches keep to the model's connection. -/
  connectionQueryScope : Bool := true
  /-- Seconds that a token lives. -/
  tokenLifetime : Nat := 3600
  /-- Entries over the built-in way out. -/
  mapping : FieldMapping := .empty
  normalizeMapping : Option FieldMapping := none
  /-- A way out that takes the place of the built-in one and of `mapping`. -/
  serializeMapping : Option FieldMapping := none
  defaults : Record := []
  attributes : Record := []
  queryScope : SearchBundle := {}
  scopes : TokenScopes := .empty
  appMetadata : Record := []
  userMetadata : Record := []
  outboundAttributes : List String := defaultOutboundAttributes
  dateFields : List String := defaultDateFields
  models : Table ModelConfig := []
  logging : LoggingConfig := {}
  deriving DecidableEq, Inhabited

namespace ConnectorConfig

/-- The mapping tables of the connector itself. -/
def mappingScope (c : ConnectorConfig) : MappingScope where
  serialize := some (c.serializeMapping.getD (FieldMapping.builtin.extend c.mapping))
  normalize := c.normalizeMapping

/-- The resolved tables of the connector and of each model. -/
def fieldMapper (c : ConnectorConfig) : MappingResult FieldMapper :=
  FieldMapper.resolve c.mappingScope (c.models.map fun (name, m) => (name, m.mappingScope))

end ConnectorConfig

end UserDirectory
