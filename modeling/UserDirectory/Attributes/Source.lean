import UserDirectory.Client.Scopes

/-!
# Sources of attributes

The values that a configuration adds to what a caller sends: defaults, which fill in what is
missing, enforced attributes, which always win, and the two metadata buckets. A source is a fixed
record or is computed for each call from the model, the caller's data and the options of the call.
-/

namespace UserDirectory

/-- **The options of a call that writes a record.** -/
structure SerializeOptions where
  /-- Whether the configured defaults apply; they do not for a partial update. -/
  serializeDefaults : Bool := true
  /-- Remote fields to leave out. -/
  omitted : Option (List String) := none
  /-- The only remote fields to keep. -/
  picked : Option (List String) := none
  /-- Permissions laid over the configured ones. -/
  scopes : Option TokenScopes := none
  appMetadata : Option Record := none
  userMetadata : Option Record := none
  /-- The stored record, with the caller's names, from which the buckets start. -/
  instanceData : Option Record := none
  deriving DecidableEq, Inhabited

namespace SerializeOptions

/-- The fields' names, in the order of declaration. -/
def fieldNames : List String :=
  ["serializeDefaults", "omit", "pick", "scopes", "app_metadata", "user_metadata", "instanceData"]

/-- Reads options; unknown names are refused. -/
def ofJson? (v : Json) : Option SerializeOptions := do
  let fields ← v.fields? fieldNames true
  pure {
    serializeDefaults := ← Json.defaultField? Json.bool? true fields "serializeDefaults"
    omitted := ← Json.optionalField? Json.strings? fields "omit"
    picked := ← Json.optionalField? Json.strings? fields "pick"
    scopes := ← Json.optionalField? TokenScopes.ofJson? fields "scopes"
    appMetadata := ← Json.optionalField? Json.record? fields "app_metadata"
    userMetadata := ← Json.optionalField? Json.record? fields "user_metadata"
    instanceData := ← Json.optionalField? Json.record? fields "instanceData" }

end SerializeOptions

/-- **A source of attributes.** -/
inductive AttributeSource where
  /-- The same record for every call. -/
  | fixed (record : Record)
  /-- A record for each call, from the model, the caller's data and the options. -/
  | computed (f : String → Record → SerializeOptions → Record)

namespace AttributeSource

/-- The record of a source in a call. -/
def resolve (s : AttributeSource) (model : String) (data : Record) (options : SerializeOptions) :
    Record :=
  match s with
  | .fixed record => record
  | .computed f => f model data options

/-- A fixed source, unless the record is empty. -/
def ofRecord? (r : Record) : Option AttributeSource := if r.isEmpty then none else some (.fixed r)

end AttributeSource

/-- **The metadata buckets**: objects that are merged key by key rather than replaced. -/
inductive Bucket where
  | appMetadata
  | userMetadata
  deriving DecidableEq, Repr

namespace Bucket

/-- The remote name of a bucket. -/
def name : Bucket → String
  | .appMetadata => "app_metadata"
  | .userMetadata => "user_metadata"

/-- Both buckets. -/
def all : List Bucket := [.appMetadata, .userMetadata]

end Bucket

/-- **The sources of a scope**, the connector or one model. -/
structure AttributeSources where
  defaults : Option AttributeSource := none
  attributes : Option AttributeSource := none
  appMetadata : Record := []
  userMetadata : Record := []
  deriving Inhabited

/-- The configured part of a bucket. -/
def AttributeSources.bucket (s : AttributeSources) : Bucket → Record
  | .appMetadata => s.appMetadata
  | .userMetadata => s.userMetadata

/-- The part of a bucket that a call gives. -/
def SerializeOptions.bucket (o : SerializeOptions) : Bucket → Record
  | .appMetadata => o.appMetadata.getD []
  | .userMetadata => o.userMetadata.getD []

end UserDirectory
