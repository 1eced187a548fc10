import UserDirectory.Config.Basic
import UserDirectory.Filter.Reader
import UserDirectory.Text.Blank

/-!
# Accepted configurations

A configuration is accepted when the settings without which nothing works are there, tokens outlive
the margin in which they are renewed, the mapping tables can be resolved, and every search scope is
a filter. The error is the first that is met in this order.
-/

namespace UserDirectory

/-- **Why a configuration is refused.** -/
inductive ConfigError where
  /-- The file cannot be read. -/
  | unreadable
  /-- The text is no configuration. -/
  | malformed
  /-- A placeholder names a variable that is not set. -/
  | variableNotFound (name : String)
  /-- A required setting is blank. -/
  | missing (setting : String)
  /-- Tokens do not outlive the margin of renewal. -/
  | shortLifetime
  /-- The search scope of an owner is no filter. -/
  | invalidScope (owner : String) (cause : FilterError)
  /-- The mapping tables cannot be resolved. -/
  | mapping (cause : DuplicateTarget)
  deriving DecidableEq, Repr

/-- Tokens are renewed so many seconds before they expire. -/
def tokenRefreshMargin : Nat := 5

/-- The wording of an error. -/
def ConfigError.message : ConfigError → String
  | .unreadable => "Failed to read config file"
  | .malformed => "Failed to parse config"
  | .variableNotFound name => "Environment variable not found: " ++ name
  | .missing setting => validation ("`" ++ setting ++ "` is required to initialize the connector")
  | .shortLifetime =>
    validation ("`token_lifetime_secs` must be greater than " ++ toString tokenRefreshMargin)
  | .invalidScope owner cause =>
    validation ("invalid query_scope for " ++ owner ++ ": " ++ cause.message)
  | .mapping cause => "Invalid field mapping: " ++ cause.message
where
  /-- The wording of an error in a setting. -/
  validation (text : String) : String := "Configuration validation error: " ++ text

/-- The result of reading or checking a configuration. -/
abbrev ConfigResult (α : Type) := Except ConfigError α

namespace ConnectorConfig

/-- The settings that must not be blank, with their names. -/
def required (c : ConnectorConfig) : List (String × String) :=
  [("domain", c.domain), ("client_id", c.clientId), ("client_secret", c.clientSecret),
    ("connection", c.connection)]

/-- The search scopes with their owners, the connector's first. -/
def queryScopes (c : ConnectorConfig) : List (String × SearchBundle) :=
  ("connector", c.queryScope) :: c.models.map fun (name, m) => (name, m.queryScope)

/-- Every required setting is there. -/
def checkRequired (c : ConnectorConfig) : ConfigResult Unit :=
  match c.required.find? fun (_, value) => (trimBlanks value).isEmpty with
  | some (name, _) => .error (.missing name)
  | none => .ok ()

/-- Every search scope is a filter. -/
def checkScopes (c : ConnectorConfig) : ConfigResult Unit :=
  c.queryScopes.forM fun (owner, scope) =>
    match scope.condition with
    | none => .ok ()
    | some condition =>
      match Filter.ofJson condition with
      | .ok _ => .ok ()
      | .error e => .error (.invalidScope owner e)

/-- The resolved mapping tables, or the reason why there are none. -/
def mapper (c : ConnectorConfig) : ConfigResult FieldMapper :=
  match c.fieldMapper with
  | .ok m => .ok m
  | .error e => .error (.mapping e)

/-- **Accepts a configuration**, or says what is wrong with it. -/
def validate (c : ConnectorConfig) : ConfigResult Unit := do
  c.checkRequired
  if c.tokenLifetime ≤ tokenRefreshMargin then .error .shortLifetime
  let _ ← c.mapper
  c.checkScopes

end ConnectorConfig

end UserDirectory
