import UserDirectory.Config.Json
import UserDirectory.Config.Placeholder
import UserDirectory.Toml.Reader

/-!
# Configuration files

A configuration file is TOML with placeholders for values from the environment. It is read in this
order: the placeholders are replaced, the document is read, its settings are taken, and the
configuration is accepted or refused.
-/

namespace UserDirectory

/-- Reads a configuration in TOML. -/
def ConnectorConfig.ofToml? (text : String) : Option ConnectorConfig := do
  ConnectorConfig.ofJson? (← Toml.read? text) Toml.structureRules

/-- **The accepted configuration of a file**, or what is wrong with it. -/
def ConnectorConfig.ofFile (env : Environment) (text : String) : ConfigResult ConnectorConfig := do
  let expanded ← expandPlaceholders env text
  match ConnectorConfig.ofToml? expanded with
  | none => .error .malformed
  | some config =>
    config.validate
    pure config

end UserDirectory
