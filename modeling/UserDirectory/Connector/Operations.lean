import UserDirectory.Connector.Basic
import UserDirectory.Connector.Search

/-!
# Operations on users

The operations that a caller has on the users of a model. Each turns records and conditions into the
directory's form, makes its calls, and brings what comes back into the caller's form.

The operations on all matches of a condition go through the first page of the search, user by user,
and stop at the first failure: what was done until then remains done.
-/

namespace UserDirectory

/-- What is told of a user that was created. -/
structure CreateResult where
  id : String
  deriving DecidableEq, Repr

/-- **What came of saving a record.** -/
inductive SaveOutcome where
  | created (result : CreateResult)
  | updated (record : Record)
  deriving DecidableEq

/-- The condition that an id holds. -/
def idCondition (id : String) : Json := singleCondition "id" (.str id)

/-- The id that a condition names outright, if it does. -/
def conditionId? (condition : Option Json) : Option String :=
  (condition.bind (·.field? "id")).bind Json.string?

/-- The field of a record, if it is a string. -/
def Record.string? (r : Record) (field : String) : Option String :=
  (Table.get? r field).bind Json.string?

namespace Connector

variable {m : Type → Type} [Monad m] {H : Type}

/-- An answer that must be a user, in the caller's form. -/
def normalizeResponse (c : Connector m H) (model : String) :
    Json → ConnectorAction m H Record
  | .obj external => pure (c.settings.normalize model external)
  | other => throw (.remote (.invalidResponse ("expected a user object, got " ++ other.text)))

/-- The id of a record, which must be a string. -/
def recordId (c : Connector m H) (model : String) (r : Record) : ConnectorAction m H String :=
  match Record.string? r (c.settings.idField model) with
  | some id => pure id
  | none => throw .missingId

/-! ## Reading -/

/-- The users of a page in the caller's form, items that are no objects left out. -/
def normalizePage (c : Connector m H) (model : String) (page : UserPage) : List Record :=
  (page.users.filterMap Json.record?).map (c.settings.normalize model)

/-- **The users that a bundle asks for.** -/
def all (c : Connector m H) (model : String) (bundle : SearchBundle) :
    ConnectorAction m H (List Record) := do
  let query ← ofFilter (c.settings.buildQuery model bundle)
  let directory ← c.client model none
  pure (c.normalizePage model (← ask (directory.getUsers query)))

/-- **The user with an id**, or nothing. -/
def find (c : Connector m H) (model : String) (id : String) :
    ConnectorAction m H (Option Record) := do
  pure (← c.all model { condition := some (idCondition id) }).head?

/-- The request that counts the matches of a condition. -/
def countQuery (c : Connector m H) (model : String) (condition : Option Json) :
    FilterResult UserQuery := do
  let query ← c.settings.buildQuery model { condition }
  pure { query with fields := some remoteId, perPage := some 1, includeTotals := some true }

/-- **The number of users that meet a condition.** -/
def count (c : Connector m H) (model : String) (condition : Option Json) :
    ConnectorAction m H Nat := do
  let query ← ofFilter (c.countQuery model condition)
  let directory ← c.client model none
  pure ((← ask (directory.getUsers query)).total.getD 0)

/-- Whether there is a user with an id. -/
def «exists» (c : Connector m H) (model : String) (id : String) : ConnectorAction m H Bool := do
  pure (0 < (← c.count model (some (idCondition id))))

/-! ## Writing -/

/-- The body of a new user: the record in the directory's form, with its connection. -/
def createBody (c : Connector m H) (model : String) (data : Record) (options : SerializeOptions) :
    Record :=
  Table.insert (c.settings.serialize model data options) "connection"
    (.str (c.settings.connectionOf model))

/-- The body of an update: as for a new user, with the client that makes it. -/
def updateBody (c : Connector m H) (model : String) (data : Record) (options : SerializeOptions) :
    Record :=
  Table.insert
    (Table.insert (c.settings.serialize model data options) "client_id" (.str c.settings.clientId))
    "connection" (.str (c.settings.connectionOf model))

/-- **Creates a user.** -/
def create (c : Connector m H) (model : String) (data : Record) (options : SerializeOptions) :
    ConnectorAction m H CreateResult := do
  let directory ← c.client model options.scopes
  let created ← ask (directory.createUser (c.createBody model data options))
  match (created.field? remoteId).bind Json.string? with
  | some id => pure { id }
  | none => throw (.remote (.invalidResponse ("created user has no " ++ remoteId)))

/-- **Updates the user with an id**, which must not be empty. -/
def update (c : Connector m H) (model : String) (id : String) (data : Record)
    (options : SerializeOptions) : ConnectorAction m H Record := do
  if id.isEmpty then throw .missingId
  let directory ← c.client model options.scopes
  c.normalizeResponse model (← ask (directory.updateUser id (c.updateBody model data options)))

/-- **Creates the user that a record describes**, or updates it if the record has an id. -/
def save (c : Connector m H) (model : String) (data : Record) (options : SerializeOptions) :
    ConnectorAction m H SaveOutcome :=
  match (Record.string? data (c.settings.idField model)).filter (!·.isEmpty) with
  | some id => SaveOutcome.updated <$> c.update model id data options
  | none => SaveOutcome.created <$> c.create model data options

/-- **Updates some fields of the user with an id**: the stored record is loaded, and the defaults
are not applied again. -/
def updateAttributes (c : Connector m H) (model : String) (id : String) (data : Record)
    (options : SerializeOptions) : ConnectorAction m H Record := do
  match ← c.find model id with
  | none => throw (.notFound id)
  | some stored =>
    c.update model id (Table.overlay stored data)
      { options with serializeDefaults := false, instanceData := some stored }

/-- Updates a stored record with the fields of another. -/
def updateStored (c : Connector m H) (model : String) (data : Record) (options : SerializeOptions)
    (stored : Record) : ConnectorAction m H Unit := do
  let id ← c.recordId model stored
  let _ ← c.update model id (Table.overlay stored data) { options with instanceData := some stored }

/-- **Updates every user that meets a condition**, and counts them. -/
def updateAll (c : Connector m H) (model : String) (condition : Option Json) (data : Record)
    (options : SerializeOptions) : ConnectorAction m H Nat := do
  let stored ← c.all model { condition }
  stored.forM (c.updateStored model data options)
  pure stored.length

/-! ## Deleting -/

/-- **Deletes the user with an id**, and counts one. -/
def destroy (c : Connector m H) (model : String) (id : String) : ConnectorAction m H Nat := do
  let directory ← c.client model none
  ask (directory.deleteUser id)
  pure 1

/-- Deletes a stored record. -/
def destroyStored (c : Connector m H) (model : String) (directory : Directory m) (stored : Record) :
    ConnectorAction m H Unit := do
  let id ← c.recordId model stored
  ask (directory.deleteUser id)

/-- **Deletes every user that meets a condition**, and counts them. A condition that names an id
deletes the user with that id without a search. -/
def destroyAll (c : Connector m H) (model : String) (condition : Option Json) :
    ConnectorAction m H Nat := do
  match conditionId? condition with
  | some id => c.destroy model id
  | none =>
    let directory ← c.client model none
    let stored ← c.all model { condition, fields := some [c.settings.idField model] }
    stored.forM (c.destroyStored model directory)
    pure stored.length

/-! ## Identities -/

/-- **Links a further identity to the user with an id.** -/
def link (c : Connector m H) (model : String) (id : String) (data : Json) :
    ConnectorAction m H Json := do
  let directory ← c.client model none
  ask (directory.linkUser id data)

/-- **Takes an identity from the user with an id.** -/
def unlink (c : Connector m H) (model : String) (id provider userId : String) :
    ConnectorAction m H Json := do
  let directory ← c.client model none
  ask (directory.unlinkUser id provider userId)

end Connector

end UserDirectory
