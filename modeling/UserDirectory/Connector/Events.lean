import UserDirectory.Connector.Search
import UserDirectory.Log.Event

/-!
# Events of searches

What the program tells about a search: each clause that the directory cannot express, then the query
that came out.
-/

namespace UserDirectory

/-- A clause was left out of a query. -/
def DroppedClause.event (d : DroppedClause) : LogEvent where
  level := .warn
  target := "auth0_directory::filter::compile"
  message := "Dropping filter clause the directory cannot express"
  values :=
    ("key", .quoted d.key) :: (d.field.toList.map fun f => ("field", .quoted f)) ++
      [("reason", .plain d.reason.text)]

/-- A query was compiled. -/
def CompiledQuery.event (c : CompiledQuery) (model : String) : LogEvent where
  level := .debug
  target := "auth0_directory::connector::query"
  message := "Compiled directory query"
  values :=
    [("model", .quoted model), ("q", .plain c.query), ("dropped", .number c.dropped.length)]

/-- **The events of a search.** There are none if there is no condition, or none that is a
filter. -/
def ConnectorSettings.searchEvents (s : ConnectorSettings) (model : String)
    (condition : Option Json) : List LogEvent :=
  match s.compileScoped model condition with
  | .ok (some compiled) => compiled.dropped.map DroppedClause.event ++ [compiled.event model]
  | _ => []

/-- Users came back from a search. -/
def foundEvent (model : String) (found : Nat) : LogEvent where
  level := .debug
  target := "auth0_directory::connector"
  message := "Fetched users"
  values := [("model", .quoted model), ("found", .number found)]

/-- A configuration was accepted. -/
def ConnectorConfig.acceptedEvent (c : ConnectorConfig) : LogEvent where
  level := .info
  target := "auth0_directory"
  message := "Configuration is valid"
  values := [("domain", .plain c.domain), ("models", .number c.models.length)]

end UserDirectory
