import UserDirectory.Client.Http
import UserDirectory.Connector.Basic

/-!
# Connectors that sign their own tokens

The connector of a configuration makes its handles from its own credentials: each handle is the
management interface of the configured domain with a token signed when the handle is made.
-/

namespace UserDirectory

/-- The credentials that settings hold. -/
def ConnectorSettings.credentials (s : ConnectorSettings) : ClientCredentials where
  baseUrl := managementBaseUrl s.domain
  clientId := s.clientId
  clientSecret := s.clientSecret
  tokenLifetime := s.tokenLifetime

/-- **The connector that signs its own tokens.** Requests travel by `transport`, `clock` tells the
time in nanoseconds and `newTokenId` a fresh name for a token. -/
def Connector.signing {m : Type → Type} [Monad m] (settings : ConnectorSettings)
    (transport : Transport m) (clock : m Nat) (newTokenId : m String) :
    Connector m ManagementClient where
  settings := settings
  createHandle _ scopes := do
    let now ← clock
    let tokenId ← newTokenId
    pure (settings.credentials.createClient scopes (now / nanosPerSecond : Nat) tokenId)
  directory handle := handle.directory transport
  clock := clock

end UserDirectory
