import UserDirectory.Cache.Ttl
import UserDirectory.Client.Directory
import UserDirectory.Connector.Settings

/-!
# Connectors

A connector works on the directory through handles, each made for one model and one set of
permissions. Handles are dear, since each has a token of its own, and so they are kept and used
again until shortly before their token expires.

Three things are left open. `H` is what a handle is, `m` has the effects of the directory and of the
clock, and where handles come from is a field of the connector. An action of a connector threads the
cache of handles through these effects, and may fail.
-/

namespace UserDirectory

/-- **Why an action failed.** -/
inductive ConnectorError where
  /-- A record is to be updated and has no id. -/
  | missingId
  /-- There is no record with this id. -/
  | notFound (id : String)
  /-- The condition is no filter. -/
  | filter (cause : FilterError)
  /-- A call of the directory failed. -/
  | remote (cause : ClientError)
  /-- The configuration is refused. -/
  | config (cause : ConfigError)
  deriving DecidableEq, Repr

/-- The wording of an error. -/
def ConnectorError.message : ConnectorError → String
  | .missingId => "An id is required to update a record"
  | .notFound id => "Could not update attributes: record " ++ id ++ " does not exist"
  | .filter cause => "Invalid filter: " ++ cause.message
  | .remote cause => cause.message
  | .config cause => cause.message

/-- **A connector.** -/
structure Connector (m : Type → Type) (H : Type) where
  settings : ConnectorSettings
  /-- Makes a handle for a model and its permissions. -/
  createHandle : String → TokenScopes → m (ClientResult H)
  /-- What a handle can do. -/
  directory : H → Directory m
  /-- The time in nanoseconds. -/
  clock : m Nat

/-- **What a connector does.** -/
abbrev ConnectorAction (m : Type → Type) (H : Type) :=
  ExceptT ConnectorError (StateT (TtlCache H) m)

/-- The key of a handle in the cache. -/
def handleKey (model : String) (scopes : TokenScopes) : String :=
  hashArgs (.arr [.str model, scopes.toJson])

/-- How long a handle is used, in nanoseconds: as long as its token lives, less the margin. -/
def ConnectorSettings.handleLifetime (s : ConnectorSettings) : Nat :=
  (s.tokenLifetime - tokenRefreshMargin) * nanosPerSecond

namespace Connector

variable {m : Type → Type} [Monad m] {H α : Type}

/-- The cache of a connector that has no handle yet. -/
def noHandles (c : Connector m H) : TtlCache H := .empty c.settings.handleLifetime

/-- Makes a call of the directory. -/
def ask (call : m (ClientResult α)) : ConnectorAction m H α :=
  ExceptT.mk do
    let result ← StateT.lift call
    pure (result.mapError .remote)

/-- The result of reading a condition. -/
def ofFilter (result : FilterResult α) : ConnectorAction m H α :=
  ExceptT.mk (pure (result.mapError .filter))

/-- **A handle for a model**, with the permissions of a call: one from the cache, or a new one. -/
def handle (c : Connector m H) (model : String) (call : Option TokenScopes) :
    ConnectorAction m H H :=
  ExceptT.mk fun cache => do
    let scopes := c.settings.tokenScopes model call
    let now ← c.clock
    let (result, cache) ←
      cache.getOrTry now (handleKey model scopes) (c.createHandle model scopes)
    pure (result.mapError .remote, cache)

/-- **The directory, as a model may use it** in a call. -/
def client (c : Connector m H) (model : String) (call : Option TokenScopes) :
    ConnectorAction m H (Directory m) := do
  pure (c.directory (← c.handle model call))

end Connector

end UserDirectory
