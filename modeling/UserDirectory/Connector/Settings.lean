import UserDirectory.Attributes.Normalizer
import UserDirectory.Attributes.Serializer
import UserDirectory.Config.Validate

/-!
# Settings of a running connector

An accepted configuration, resolved once: the mapping tables of every model, the sources of its
attributes, its search scope and its permissions. Sources can be replaced afterwards by computed
ones.
-/

namespace UserDirectory

/-- The directory's name of a user's id. -/
def remoteId : String := "user_id"

/-- **What is particular to a model.** -/
structure ModelSettings where
  /-- A connection of its own. -/
  connection : Option String := none
  connectionQueryScope : Option Bool := none
  /-- The condition that every search is narrowed by. -/
  queryScope : Option Json := none
  scopes : Option TokenScopes := none
  sources : AttributeSources := {}
  deriving Inhabited

/-- The settings of a model; an empty connection is none. -/
def ModelSettings.ofConfig (c : ModelConfig) : ModelSettings where
  connection := c.connection.filter (!·.isEmpty)
  connectionQueryScope := c.connectionQueryScope
  queryScope := c.queryScope.condition
  scopes := c.scopes
  sources :=
    { defaults := AttributeSource.ofRecord? c.defaults
      attributes := AttributeSource.ofRecord? c.attributes
      appMetadata := c.appMetadata
      userMetadata := c.userMetadata }

/-- **The settings of a connector.** -/
structure ConnectorSettings where
  domain : String
  clientId : String
  clientSecret : String
  connection : String
  searchEngine : SearchEngine
  connectionQueryScope : Bool
  /-- Seconds that a token lives. -/
  tokenLifetime : Nat
  scopes : TokenScopes
  /-- The condition that every search is narrowed by. -/
  queryScope : Option Json
  sources : AttributeSources
  outboundAttributes : List String
  dateFields : List String
  mapper : FieldMapper
  models : Table ModelSettings

namespace ConnectorSettings

/-- **Resolves a configuration**, if it is accepted. -/
def ofConfig (c : ConnectorConfig) : ConfigResult ConnectorSettings := do
  c.validate
  let mapper ← c.mapper
  pure {
    domain := c.domain
    clientId := c.clientId
    clientSecret := c.clientSecret
    connection := c.connection
    searchEngine := c.searchEngine
    connectionQueryScope := c.connectionQueryScope
    tokenLifetime := c.tokenLifetime
    scopes := TokenScopes.full.merge c.scopes
    queryScope := c.queryScope.condition
    sources :=
      { defaults := AttributeSource.ofRecord? c.defaults
        attributes := AttributeSource.ofRecord? c.attributes
        appMetadata := c.appMetadata
        userMetadata := c.userMetadata }
    outboundAttributes := c.outboundAttributes
    dateFields := c.dateFields
    mapper
    models := Table.mapValues ModelSettings.ofConfig c.models }

/-- What is particular to a model, if anything is. -/
def model? (s : ConnectorSettings) (model : String) : Option ModelSettings := s.models.get? model

/-- Changes the sources of the connector, or of one model. -/
def updateSources (s : ConnectorSettings) (model : Option String)
    (f : AttributeSources → AttributeSources) : ConnectorSettings :=
  match model with
  | none => { s with sources := f s.sources }
  | some name =>
    let m := (s.model? name).getD {}
    { s with models := s.models.insert name { m with sources := f m.sources } }

/-- Replaces the defaults of the connector, or of one model. -/
def withDefaults (s : ConnectorSettings) (model : Option String) (source : AttributeSource) :
    ConnectorSettings :=
  s.updateSources model fun sources => { sources with defaults := some source }

/-- Replaces the enforced attributes of the connector, or of one model. -/
def withAttributes (s : ConnectorSettings) (model : Option String) (source : AttributeSource) :
    ConnectorSettings :=
  s.updateSources model fun sources => { sources with attributes := some source }

/-- **The connection of a model**, the connector's unless it has its own. -/
def connectionOf (s : ConnectorSettings) (model : String) : String :=
  ((s.model? model).bind (·.connection)).getD s.connection

/-- **The permissions of a call**: full access, then the connector's, the model's and the call's. -/
def tokenScopes (s : ConnectorSettings) (model : String) (call : Option TokenScopes) :
    TokenScopes :=
  let own := (s.model? model).bind (·.scopes)
  (own.toList ++ call.toList).foldl TokenScopes.merge s.scopes

/-- How the records of a model are written. -/
def serializer (s : ConnectorSettings) (model : String) : Serializer where
  model
  wide := s.sources
  own := (s.model? model).map (·.sources)
  mapping := s.mapper.table model .serialize
  whitelist := s.outboundAttributes

/-- How the records of a model are read. -/
def normalizer (s : ConnectorSettings) (model : String) : Normalizer where
  mapping := s.mapper.table model .normalize
  dates := s.dateFields

/-- **The directory's body for a caller's record.** -/
def serialize (s : ConnectorSettings) (model : String) (data : Record)
    (options : SerializeOptions) : Record :=
  (s.serializer model).serialize data options

/-- **The caller's record for one of the directory.** -/
def normalize (s : ConnectorSettings) (model : String) (external : Record) : Record :=
  (s.normalizer model).normalize external

/-- The caller's name of a user's id. -/
def idField (s : ConnectorSettings) (model : String) : String :=
  (s.mapper.table model .normalize).apply remoteId

end ConnectorSettings

end UserDirectory
