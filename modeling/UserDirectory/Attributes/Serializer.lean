import UserDirectory.Attributes.Source
import UserDirectory.Mapping.Resolve
import UserDirectory.Record.Extract

/-!
# Records on the way out

What a caller sends becomes the body that the directory gets in four steps. The configured defaults,
the caller's record and the enforced attributes are laid over one another, in this order; the result
is mapped to remote names; each metadata bucket is put together, key by key, from the stored record,
the mapped one, the configuration and the call; and what is not to leave is taken out.
-/

namespace UserDirectory

/-- **How the records of one model are written.** -/
structure Serializer where
  model : String
  /-- The connector's sources. -/
  wide : AttributeSources
  /-- The model's own sources. -/
  own : Option AttributeSources
  /-- The caller's names to remote paths. -/
  mapping : FieldMapping
  /-- The remote fields that may leave. -/
  whitelist : List String

namespace Serializer

/-- The sources, the connector's first. -/
def sources (s : Serializer) : List AttributeSources := s.wide :: s.own.toList

/-- The defaults of a call, the model's over the connector's. -/
def defaults (s : Serializer) (data : Record) (options : SerializeOptions) : Record :=
  if options.serializeDefaults then
    (s.sources.filterMap (·.defaults)).foldl
      (fun r source => Table.overlay r (source.resolve s.model data options)) []
  else []

/-- **The record before it is mapped**: defaults, the caller's fields, enforced attributes. -/
def gathered (s : Serializer) (data : Record) (options : SerializeOptions) : Record :=
  (s.sources.filterMap (·.attributes)).foldl
    (fun r source => Record.mergeDeep r (source.resolve s.model data options))
    (Table.overlay (s.defaults data options) data)

/-- The fields of a record's field, if it is an object. -/
def objectAt (r : Record) (key : String) : Record := Json.fieldsOrNone (Table.get? r key)

/-- **The fields of a bucket**: those of the stored record, of the mapped one, of the connector, of
the model and of the call, each over the ones before. -/
def bucket (s : Serializer) (mapped : Record) (options : SerializeOptions) (b : Bucket) : Record :=
  let prior :=
    match options.instanceData with
    | some stored => objectAt (Record.extract stored s.mapping.live true) b.name
    | none => []
  let own :=
    match s.own with
    | some sources => sources.bucket b
    | none => []
  [prior, objectAt mapped b.name, s.wide.bucket b, own, options.bucket b].foldl Table.overlay []

/-- Puts a bucket into the record, or takes it out if it is empty. -/
def withBucket (s : Serializer) (options : SerializeOptions) (mapped : Record) (b : Bucket) :
    Record :=
  let fields := s.bucket mapped options b
  if fields.isEmpty then Table.erase mapped b.name else Table.insert mapped b.name (.obj fields)

/-- Takes out what is not to leave: all that is not whitelisted, what is to be omitted, and what is
not picked if there is something to pick. -/
def restricted (s : Serializer) (options : SerializeOptions) (r : Record) : Record :=
  Table.restrict r fun key =>
    s.whitelist.contains key && !(options.omitted.any (·.contains key)) &&
      options.picked.all (·.contains key)

/-- **The body for a caller's record.** -/
def serialize (s : Serializer) (data : Record) (options : SerializeOptions) : Record :=
  let mapped := Record.extract (s.gathered data options) s.mapping.live true
  s.restricted options (Bucket.all.foldl (s.withBucket options) mapped)

end Serializer

end UserDirectory
