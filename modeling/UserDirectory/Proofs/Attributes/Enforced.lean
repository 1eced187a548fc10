import UserDirectory.Proofs.Attributes.Outbound
import UserDirectory.Proofs.Connector.Accepted

/-!
# Attributes enforced under remote names

An enforced attribute overrides the caller's field of the same name before the record
is mapped. If it is stated under the name that the directory uses, and this is not a
name of the caller's side as well, it goes through the mapping untouched. But there it
meets what the mapping itself writes: a caller's `emailVerified`, sent to
`email_verified`, is merged over an enforced `email_verified` and overrides it
(`not_enforced_of_mapped_name`).

What can be said is said by `serialize_enforced_iff`: the attribute leaves with its
value exactly when the mapping writes nothing under its name, or just this value; and
the mapping writes nothing there unless some field that it sends there has a value.
-/

namespace UserDirectory

/-- **The enforced attributes of a model** in a configuration: its own, and beneath
them the connector's. -/
def ConnectorConfig.enforcedAttributes (c : ConnectorConfig) (model : String) : List Record :=
  [((c.models.get? model).map (·.attributes)).getD [], c.attributes]

namespace ConnectorSettings

variable {c : ConnectorConfig} {s : ConnectorSettings} {model : String}

/-- What a configuration says of the connector's own attributes. -/
theorem sources_of_ofConfig (h : ofConfig c = .ok s) :
    s.sources =
      { defaults := AttributeSource.ofRecord? c.defaults
        attributes := AttributeSource.ofRecord? c.attributes
        appMetadata := c.appMetadata
        userMetadata := c.userMetadata } ∧
      s.outboundAttributes = c.outboundAttributes := by
  obtain ⟨_, -, h⟩ := bind_eq_ok_iff.1 h
  obtain ⟨mapper, -, h⟩ := bind_eq_ok_iff.1 h
  obtain rfl := Except.ok.inj h
  exact ⟨rfl, rfl⟩

/-- A source for a record resolves to it, also if there is none because the record is
empty. -/
theorem resolved_ofRecord? (z : Serializer) (data : Record) (options : SerializeOptions)
    (r : Record) : z.resolved data options (AttributeSource.ofRecord? r) = r := by
  unfold Serializer.resolved AttributeSource.ofRecord?
  cases r <;> rfl

/-- **Settings enforce what the configuration states**, for every record and call. -/
theorem enforced_serializer (h : ofConfig c = .ok s) (model : String) (data : Record)
    (options : SerializeOptions) :
    (s.serializer model).enforced data options = c.enforcedAttributes model := by
  obtain ⟨hsources, -⟩ := sources_of_ofConfig h
  obtain ⟨-, -, -, hmodels⟩ := of_ofConfig h
  have hwide : (s.serializer model).wide.attributes = AttributeSource.ofRecord? c.attributes := by
    show s.sources.attributes = _
    rw [hsources]
  have hown : (s.serializer model).own.bind (·.attributes)
      = (c.models.get? model).bind fun m => AttributeSource.ofRecord? m.attributes := by
    show ((s.models.get? model).map (·.sources)).bind _ = _
    rw [hmodels, Table.get?_mapValues]
    cases c.models.get? model <;> rfl
  unfold Serializer.enforced ConnectorConfig.enforcedAttributes
  rw [hwide, hown, resolved_ofRecord?]
  cases c.models.get? model with
  | none => rfl
  | some m => rw [Option.bind_some, resolved_ofRecord?]; rfl

/-- **An attribute that is enforced under a remote name.** An accepted configuration
states it for the model or the connector, the model's own counting first; it is no
object; its name is whitelisted, is no bucket, and is no name that the mapping of the
model sends anywhere. -/
structure EnforcedRemotely (c : ConnectorConfig) (s : ConnectorSettings) (model key : String)
    (v : Json) : Prop where
  accepted : ofConfig c = .ok s
  ordered : ∀ r ∈ c.enforcedAttributes model, Table.Ordered r
  stated : (c.enforcedAttributes model).findSome? (Table.get? · key) = some v
  nonObject : v.NonObject
  whitelisted : key ∈ c.outboundAttributes
  notBucket : ∀ b : Bucket, b.name ≠ key
  unmapped : ∀ e ∈ (s.mapper.table model .serialize).live, e.1 ≠ key

/-- What the mapping of the model writes for a caller's record. -/
def mapped (s : ConnectorSettings) (model : String) (data : Record) : Record :=
  Record.copyPairs ((s.serializer model).gathered data {}) (s.mapper.table model .serialize).live

/-- **What meets in the body** under the name of such an attribute: its value, and over
it what the mapping writes there. -/
theorem EnforcedRemotely.get?_serialize {key : String} {v : Json}
    (h : EnforcedRemotely c s model key v) (data : Record) :
    Table.get? (s.serialize model data {}) key =
      some (((Table.get? (s.mapped model data) key).map (·.mergeOver (some v))).getD v) := by
  obtain ⟨-, houtbound⟩ := sources_of_ofConfig h.accepted
  have henforced := enforced_serializer h.accepted model data {}
  have hleaves : (s.serializer model).Leaves {} key := by
    refine ⟨?_, nofun, nofun⟩
    show key ∈ s.outboundAttributes
    exact houtbound ▸ h.whitelisted
  have hgathered : Table.get? ((s.serializer model).gathered data {}) key = some v := by
    rw [Serializer.gathered_eq, henforced]
    refine Serializer.get?_foldr_mergeDeep h.ordered _ h.nonObject ?_
    rw [h.stated]
    rfl
  have hunused : Table.get? (Record.unused ((s.serializer model).gathered data {})
      (s.mapper.table model .serialize).live) key = some v :=
    (Record.get?_unused_of_ne h.unmapped).trans hgathered
  show Table.get? ((s.serializer model).serialize data {}) key = _
  rw [Serializer.get?_serialize hleaves, Serializer.get?_rebuilt_of_ne h.notBucket,
    Record.extract_true]
  show Table.get? (Record.mergeDeep _ (s.mapped model data)) key = _
  have hmapped : Table.Ordered (s.mapped model data) := Record.ordered_copyPairs _ _
  rw [Record.get?_mergeDeep _ hmapped]
  cases Table.get? (s.mapped model data) key with
  | none => exact hunused
  | some w => exact congrArg (fun below => some (w.mergeOver below)) hunused

/-- **When an attribute enforced under a remote name leaves with its value**: exactly
when what the mapping writes under this name, if anything, is the same value. So it
does whenever no field that the mapping sends there, or beneath, has a value before
the mapping. -/
theorem serialize_enforced_iff {key : String} {v : Json} (h : EnforcedRemotely c s model key v)
    (data : Record) :
    (Table.get? (s.serialize model data {}) key = some v ↔
        ∀ w ∈ Table.get? (s.mapped model data) key, w = v) ∧
      ((∀ e ∈ (s.mapper.table model .serialize).live, (pathSegments e.2).head? = some key →
          (Json.obj ((s.serializer model).gathered data {})).at? e.1 = none) →
        Table.get? (s.serialize model data {}) key = some v) := by
  have hiff : Table.get? (s.serialize model data {}) key = some v ↔
      ∀ w ∈ Table.get? (s.mapped model data) key, w = v := by
    rw [h.get?_serialize]
    cases Table.get? (s.mapped model data) key with
    | none => exact iff_of_true rfl nofun
    | some w =>
      rw [Option.map_some, Option.getD_some, Option.some_inj]
      constructor
      · rintro hw u hu
        obtain rfl := Option.some.inj hu
        cases w with
        | obj fields => exact absurd hw (Json.mergeOver_obj_ne h.nonObject fields _)
        | _ => exact hw
      · intro hw
        rw [hw w rfl]
        exact Json.mergeOver_of_nonObject h.nonObject _
  refine ⟨hiff, fun hopen => hiff.2 fun w hw => ?_⟩
  have hnone : Table.get? (s.mapped model data) key = none :=
    Record.get?_copyPairs_of_ne fun pair hpair _ hhead => hopen pair hpair hhead
  exact absurd (hw.symm.trans hnone) (Option.some_ne_none w)

/-! ## Both sides of the condition -/

/-- A configuration that enforces an attribute under its remote name. -/
def verifiedConfig : ConnectorConfig where
  domain := "example.org"
  clientId := "client"
  clientSecret := "secret"
  connection := "Users"
  serializeMapping := some (.ofList [("emailVerified", "email_verified")])
  attributes := [("email_verified", .bool true)]

/-- Its settings. -/
def verifiedSettings : ConnectorSettings where
  domain := "example.org"
  clientId := "client"
  clientSecret := "secret"
  connection := "Users"
  searchEngine := .v2
  connectionQueryScope := true
  tokenLifetime := 3600
  scopes := TokenScopes.full.merge .empty
  queryScope := none
  sources := { attributes := some (.fixed [("email_verified", .bool true)]) }
  outboundAttributes := defaultOutboundAttributes
  dateFields := defaultDateFields
  mapper := { connector := { serialize := .ofList [("emailVerified", "email_verified")],
                             normalize := .ofList [("email_verified", "emailVerified")] }, models := [] }
  models := []

theorem enforcedRemotely_verifiedSettings :
    EnforcedRemotely verifiedConfig verifiedSettings "user" "email_verified" (.bool true) where
  accepted := rfl
  ordered := by decide +kernel
  stated := by decide +kernel
  nonObject := rfl
  whitelisted := by decide +kernel
  notBucket b := by cases b <;> decide +kernel
  unmapped := by decide +kernel

/-- **The caller's own name for a field overrides the enforced remote one.** -/
theorem not_enforced_of_mapped_name :
    EnforcedRemotely verifiedConfig verifiedSettings "user" "email_verified" (.bool true) ∧
      verifiedSettings.serialize "user" [("emailVerified", .bool false)] {} =
        [("email_verified", .bool false)] ∧
      Table.get? (verifiedSettings.serialize "user" [("emailVerified", .bool false)] {})
        "email_verified" ≠ some (.bool true) :=
  ⟨enforcedRemotely_verifiedSettings, by decide +kernel, by decide +kernel⟩

/-- Under the remote name itself the caller cannot override it. -/
theorem serialize_enforced_of_remote_name :
    EnforcedRemotely verifiedConfig verifiedSettings "user" "email_verified" (.bool true) ∧
      Table.get? (verifiedSettings.serialize "user" [("email_verified", .bool false)] {})
        "email_verified" = some (.bool true) :=
  ⟨enforcedRemotely_verifiedSettings,
    (serialize_enforced_iff enforcedRemotely_verifiedSettings _).2 (by decide +kernel)⟩

end ConnectorSettings

end UserDirectory
