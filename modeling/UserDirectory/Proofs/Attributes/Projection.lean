import UserDirectory.Proofs.Attributes.Outbound

/-!
# Buckets and projection

The record that leaves is a part of a larger one. This larger one has the mapped fields
as they are, and in place of each bucket an object that is put together from five
layers, the stored record at the bottom and the call on top: at every key the last layer
that has it decides, and its value is taken whole, objects not being merged any further.
What is not an object in the stored or in the mapped record is no layer, and a bucket is
there exactly if some layer has a key.

Which fields are then taken out goes by their names only, and what remains is not looked
at again. So the larger record can be named before the whitelist and the names to omit
and to pick are known, and it is one and the same for all of them
(`Serializer.serialize_projects`). This needs that no source is computed: a computed
source is told the options of the call, the names to pick among them, and may answer
them with other values.
-/

namespace UserDirectory

/-- The source gives the same record in every call. -/
def AttributeSource.IsFixed : AttributeSource → Prop
  | .fixed _ => True
  | .computed _ => False

/-- No source of the scope is computed. -/
structure AttributeSources.IsFixed (sources : AttributeSources) : Prop where
  defaults : ∀ source ∈ sources.defaults, source.IsFixed
  attributes : ∀ source ∈ sources.attributes, source.IsFixed

theorem AttributeSource.IsFixed.resolve_eq {source : AttributeSource} (h : source.IsFixed)
    (model : String) (data : Record) (options options' : SerializeOptions) :
    source.resolve model data options = source.resolve model data options' := by
  cases source with
  | fixed record => rfl
  | computed f => exact h.elim

/-- The same call with other names to omit and to pick. -/
def SerializeOptions.projecting (options : SerializeOptions)
    (omitted picked : Option (List String)) : SerializeOptions :=
  { options with omitted, picked }

namespace Serializer

variable {s : Serializer} {data : Record} {options : SerializeOptions}

/-! ## The record before anything is taken out -/

/-- **The mapped record**, which has what the records of a call give in remote names. -/
def mappedRecord (s : Serializer) (data : Record) (options : SerializeOptions) : Record :=
  Record.extract (s.gathered data options) s.mapping.live true

/-- **The layers of a bucket**, lowest first: the bucket of the stored record, that of
a mapped record, the connector's, the model's and that of the call. -/
def bucketLayers (s : Serializer) (options : SerializeOptions) (mapped : Record) (b : Bucket) :
    List Record :=
  [s.storedBucket options b, objectAt mapped b.name, s.wide.bucket b, s.ownBucket b,
    options.bucket b]

/-- **The records of a call are well formed**, those of the configuration and those that
the caller gives. -/
structure WellFormedCall (s : Serializer) (data : Record) (options : SerializeOptions) :
    Prop where
  ranked : ∀ r ∈ s.ranked data options, r.WellFormed
  stored : ∀ r ∈ options.instanceData, r.WellFormed
  wide : ∀ b, (s.wide.bucket b).WellFormed
  own : ∀ b, (s.ownBucket b).WellFormed
  call : ∀ b, (options.bucket b).WellFormed

namespace WellFormedCall

theorem mappedRecord (h : s.WellFormedCall data options) :
    (s.mappedRecord data options).WellFormed :=
  (wellFormed_gathered h.ranked).extract _ _

theorem storedBucket (h : s.WellFormedCall data options) (b : Bucket) :
    (s.storedBucket options b).WellFormed := by
  unfold Serializer.storedBucket
  cases hstored : options.instanceData with
  | none => exact .nil
  | some r => exact .fieldsOrNone fun _ hv => ((h.stored r hstored).extract _ _).of_get? hv

theorem bucketLayers (h : s.WellFormedCall data options) {mapped : Record}
    (hmapped : mapped.WellFormed) (b : Bucket) :
    ∀ layer ∈ s.bucketLayers options mapped b, layer.WellFormed := by
  have hobject : (objectAt mapped b.name).WellFormed := .fieldsOrNone fun _ hv => hmapped.of_get? hv
  simp only [Serializer.bucketLayers, List.forall_mem_cons]
  exact ⟨h.storedBucket b, hobject, h.wide b, h.own b, h.call b, List.forall_mem_nil _⟩

theorem bucket (h : s.WellFormedCall data options) {mapped : Record} (hmapped : mapped.WellFormed)
    (b : Bucket) : (s.bucket mapped options b).WellFormed := by
  rw [bucket_eq]
  exact List.foldlRecOn _ _ .nil fun r hr layer hlayer =>
    hr.overlay (h.bucketLayers hmapped b layer hlayer)

theorem withBucket (h : s.WellFormedCall data options) {mapped : Record}
    (hmapped : mapped.WellFormed) (b : Bucket) : (s.withBucket options mapped b).WellFormed := by
  unfold Serializer.withBucket
  dsimp only
  split
  · exact hmapped.restrict (· != b.name)
  · exact hmapped.insert b.name (h.bucket hmapped b)

theorem rebuilt (h : s.WellFormedCall data options) {mapped : Record}
    (hmapped : mapped.WellFormed) : (s.rebuilt options mapped).WellFormed :=
  List.foldlRecOn _ _ hmapped fun _ hr b _ => h.withBucket hr b

end WellFormedCall

/-- **The whole record of a call**: the mapped fields, and each bucket as its layers
make it. -/
structure IsWhole (s : Serializer) (data : Record) (options : SerializeOptions) (whole : Record) :
    Prop where
  wellFormed : whole.WellFormed
  field : ∀ key, (∀ b : Bucket, b.name ≠ key) →
    Table.get? whole key = Table.get? (s.mappedRecord data options) key
  bucket_eq_none_iff : ∀ b : Bucket, Table.get? whole b.name = none ↔
    ∀ layer ∈ s.bucketLayers options (s.mappedRecord data options) b, layer = []
  bucket : ∀ b : Bucket, ∀ v ∈ Table.get? whole b.name, ∃ fields, v = .obj fields ∧
    ∀ key, Table.get? fields key = ((s.bucketLayers options (s.mappedRecord data options) b).filterMap
      (Table.get? · key)).getLast?

/-- **The last layer that has a key decides it.** -/
theorem get?_foldl_overlay {layers : List Record} (h : ∀ r ∈ layers, Table.Ordered r)
    (key : String) :
    Table.get? (layers.foldl Table.overlay []) key =
      (layers.filterMap (Table.get? · key)).getLast? := by
  have hreverse : ∀ r ∈ layers.reverse, Table.Ordered r := fun r hr => h r (List.mem_reverse.1 hr)
  rw [List.foldl_eq_foldr_reverse, List.getLast?_filterMap]
  refine (get?_foldr_overlay hreverse [] key).trans ?_
  exact Option.or_none

theorem foldl_overlay_eq_nil_iff {layers : List Record} (h : ∀ r ∈ layers, Table.Ordered r) :
    layers.foldl Table.overlay [] = [] ↔ ∀ r ∈ layers, r = [] := by
  simp only [Table.eq_nil_iff, get?_foldl_overlay h, List.getLast?_eq_none_iff,
    List.filterMap_eq_nil_iff]
  exact ⟨fun h r hr key => h key r hr, fun h key r hr => h r hr key⟩

theorem isWhole_rebuilt (h : s.WellFormedCall data options) :
    s.IsWhole data options (s.rebuilt options (s.mappedRecord data options)) := by
  have hbucket : ∀ b, s.bucket (s.mappedRecord data options) options b =
      (s.bucketLayers options (s.mappedRecord data options) b).foldl Table.overlay [] :=
    fun b => bucket_eq s _ options b
  have hlayers : ∀ b, ∀ layer ∈ s.bucketLayers options (s.mappedRecord data options) b,
      Table.Ordered layer :=
    fun b layer hlayer => (h.bucketLayers h.mappedRecord b layer hlayer).ordered
  constructor
  · exact h.rebuilt h.mappedRecord
  · exact fun key hkey => get?_rebuilt_of_ne hkey _
  · intro b
    rw [get?_rebuilt_bucket, hbucket, ← foldl_overlay_eq_nil_iff (hlayers b), ← List.isEmpty_iff]
    split
    · next hempty => exact iff_of_true rfl hempty
    · next hempty => exact iff_of_false nofun hempty
  · intro b v hv
    rw [get?_rebuilt_bucket, hbucket] at hv
    split at hv
    · exact absurd hv nofun
    · obtain rfl := Option.some.inj hv
      exact ⟨_, rfl, get?_foldl_overlay (hlayers b)⟩

/-! ## Projection -/

/-- **No source is computed**, of the connector or of the model. -/
def Static (s : Serializer) : Prop := ∀ sources ∈ s.sources, sources.IsFixed

theorem Static.bind_own (hs : s.Static) {f : AttributeSources → Option AttributeSource}
    (hf : ∀ sources : AttributeSources, sources.IsFixed → ∀ source ∈ f sources, source.IsFixed) :
    ∀ source ∈ s.own.bind f, source.IsFixed := by
  intro source hsource
  obtain ⟨own, hown, hsource⟩ := Option.bind_eq_some_iff.1 hsource
  exact hf own (hs own (List.mem_cons_of_mem _ (Option.mem_toList.2 hown))) source hsource

/-- The same serializer with another whitelist. -/
def withWhitelist (s : Serializer) (whitelist : List String) : Serializer := { s with whitelist }

section

variable {whitelist : List String} {omitted picked : Option (List String)}

theorem resolved_projecting {source : Option AttributeSource} (h : ∀ a ∈ source, a.IsFixed) :
    (s.withWhitelist whitelist).resolved data (options.projecting omitted picked) source =
      s.resolved data options source := by
  cases source with
  | none => rfl
  | some a => exact (h a rfl).resolve_eq _ _ _ _

/-- **What fixed sources give** does not depend on the projection. -/
theorem Static.gathered_projecting (hs : s.Static) :
    (s.withWhitelist whitelist).gathered data (options.projecting omitted picked) =
      s.gathered data options := by
  have hwide := hs s.wide List.mem_cons_self
  have henforced : (s.withWhitelist whitelist).enforced data (options.projecting omitted picked) =
      s.enforced data options :=
    congrArg₂ (fun r r' => [r, r']) (resolved_projecting (hs.bind_own fun _ h => h.attributes))
      (resolved_projecting hwide.attributes)
  have hbelow : (s.withWhitelist whitelist).ranksBelow data (options.projecting omitted picked) =
      s.ranksBelow data options :=
    congrArg₂ (fun r r' => if options.serializeDefaults then [r, r'] else [])
      (resolved_projecting (hs.bind_own fun _ h => h.defaults))
      (resolved_projecting hwide.defaults)
  rw [gathered_eq, gathered_eq, defaults_eq, defaults_eq, henforced, hbelow]

/-- **A projection of the whole record**: the fields that leave, as they are there. -/
structure IsProjection (s : Serializer) (options : SerializeOptions) (whole out : Record) :
    Prop where
  ordered : Table.Ordered out
  get?_of_leaves : ∀ key, s.Leaves options key → Table.get? out key = Table.get? whole key
  get?_of_not_leaves : ∀ key, ¬s.Leaves options key → Table.get? out key = none

theorem isProjection_restricted {whole : Record} (h : Table.Ordered whole) :
    s.IsProjection options whole (s.restricted options whole) where
  ordered := h.restrict _
  get?_of_leaves _ hkey := get?_restricted_of_leaves hkey whole
  get?_of_not_leaves _ hkey := get?_restricted_of_not_leaves hkey whole

theorem Static.isProjection_serialize (hs : s.Static) (h : s.WellFormedCall data options) :
    (s.withWhitelist whitelist).IsProjection (options.projecting omitted picked)
      (s.rebuilt options (s.mappedRecord data options))
      ((s.withWhitelist whitelist).serialize data (options.projecting omitted picked)) := by
  have hwhole : (s.withWhitelist whitelist).serialize data (options.projecting omitted picked) =
      (s.withWhitelist whitelist).restricted (options.projecting omitted picked)
        (s.rebuilt options (s.mappedRecord data options)) := by
    unfold mappedRecord
    rw [← hs.gathered_projecting]
    rfl
  rw [hwhole]
  exact isProjection_restricted (h.rebuilt h.mappedRecord).ordered

end

/-- **Buckets and projection.** If no source is computed, there is one whole record, of
the mapped fields and of the buckets as their layers make them, such that with any
whitelist and with any names to omit and to pick, the record that leaves is the part of
it that they name. What leaves with names to omit and to pick also leaves without them,
with the same value. -/
theorem serialize_projects (hs : s.Static) (h : s.WellFormedCall data options) :
    ∃ whole, s.IsWhole data options whole ∧ ∀ whitelist omitted picked,
      let t := s.withWhitelist whitelist
      let out := t.serialize data (options.projecting omitted picked)
      t.IsProjection (options.projecting omitted picked) whole out ∧
        ∀ key v, Table.get? out key = some v →
          Table.get? (t.serialize data (options.projecting none none)) key = some v := by
  refine ⟨_, isWhole_rebuilt h, fun whitelist omitted picked => ?_⟩
  intro t out
  have hout : t.IsProjection (options.projecting omitted picked) _ out :=
    hs.isProjection_serialize h
  refine ⟨hout, fun key v hv => ?_⟩
  have hleaves : t.Leaves (options.projecting omitted picked) key := by
    by_contra hnot
    exact absurd ((hout.get?_of_not_leaves key hnot).symm.trans hv) nofun
  -- what is whitelisted leaves if nothing is to be omitted or picked
  have hall : t.Leaves (options.projecting none none) key := ⟨hleaves.whitelisted, nofun, nofun⟩
  rw [(hs.isProjection_serialize h).get?_of_leaves key hall, ← hout.get?_of_leaves key hleaves, hv]

/-- A serializer that maps a field into a bucket, to which the connector and the model
add. -/
def planSerializer : Serializer where
  model := "user"
  wide := { defaults := some (.fixed [("plan", .str "free")])
            appMetadata := [("tier", .str "wide"), ("zone", .obj [("name", .str "north")])] }
  own := some { attributes := some (.fixed [("locale", .str "fr")])
                appMetadata := [("tier", .str "own")] }
  mapping := .ofList [("name", "given_name"), ("plan", "app_metadata.plan")]
  whitelist := ["app_metadata", "given_name", "locale", "user_metadata"]

theorem serialize_projects_planSerializer :
    let data : Record := [("name", .str "Ada"), ("note", .null), ("user_metadata", .str "none")]
    let options : SerializeOptions := {
      omitted := some ["locale"]
      appMetadata := some [("zone", .obj [("code", .str "n")])]
      instanceData := some [("app_metadata", .obj [("seen", .bool true)]), ("plan", .str "old")] }
    let bucket : Json := .obj [("plan", .str "free"), ("seen", .bool true), ("tier", .str "own"),
      ("zone", .obj [("code", .str "n")])]
    planSerializer.Static ∧ planSerializer.WellFormedCall data options ∧
      planSerializer.serialize data options =
        [("app_metadata", bucket), ("given_name", .str "Ada")] ∧
      ∃ whole, planSerializer.IsWhole data options whole ∧
        Table.get? whole "app_metadata" = some bucket ∧ Table.get? whole "user_metadata" = none ∧
        Table.get? whole "locale" = some (.str "fr") ∧ Table.get? whole "note" = some .null := by
  intro data options bucket
  have hs : planSerializer.Static := by
    unfold Static
    rintro sources hsources
    rcases List.mem_cons.1 hsources with rfl | hsources
    · exact ⟨fun a ha => Option.some.inj ha ▸ trivial, nofun⟩
    · obtain rfl := List.mem_singleton.1 hsources
      exact ⟨nofun, fun a ha => Option.some.inj ha ▸ trivial⟩
  have h : planSerializer.WellFormedCall data options := by
    refine ⟨by decide +kernel, fun r hr => ?_, fun b => ?_, fun b => ?_, fun b => ?_⟩
    · obtain rfl := Option.some.inj hr
      decide +kernel
    · cases b <;> decide +kernel
    · cases b <;> decide +kernel
    · cases b <;> decide +kernel
  obtain ⟨whole, hwhole, hprojection⟩ := serialize_projects hs h
  -- any field can be read off the projection to it alone
  have hread : ∀ key, Table.get? whole key = Table.get?
      ((planSerializer.withWhitelist [key]).serialize data (options.projecting none none)) key :=
    fun key => ((hprojection [key] none none).1.get?_of_leaves key
      ⟨List.mem_singleton_self key, nofun, nofun⟩).symm
  refine ⟨hs, h, by decide +kernel, whole, hwhole, ?_, ?_, ?_, ?_⟩
  · rw [hread]
    decide +kernel
  · rw [hread]
    decide +kernel
  · rw [hread]
    decide +kernel
  · rw [hread]
    decide +kernel

end Serializer

end UserDirectory
