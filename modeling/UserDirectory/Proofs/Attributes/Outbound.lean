import UserDirectory.Attributes.Serializer
import UserDirectory.Proofs.Record.Copies

/-!
# What leaves

A record on its way out passes four stages, and each is described here by what it
reads. Before the mapping, a field has the value of the strongest record that gives it
one: the model's enforced attributes, the connector's, the caller's record, the
model's defaults, the connector's (`Serializer.ranked`). After the mapping, only the
two buckets are touched again; a field of a bucket that neither the configuration nor
the call defines stays as it was mapped. At the end a field leaves or not by its name.
-/

namespace UserDirectory

/-- The live entries of a mapping are live as pairs of paths. -/
theorem FieldMapping.isLivePair_of_mem_live {m : FieldMapping} {e : String × String}
    (h : e ∈ m.live) : isLivePair e = true := (List.mem_filter.1 h).2

/-- **A record of mapped fields** is mapped to their copies. -/
theorem FieldMapping.extract_live {m : FieldMapping} {r : Record} (hr : r.WellFormed)
    (h : ∀ e ∈ r, ∃ pair ∈ m.live, pair.1 = e.1) :
    Record.extract r m.live true = Record.copyPairs r m.live := by
  refine Record.extract_true_of_forall hr fun e he => ?_
  obtain ⟨pair, hlive, hname⟩ := h e he
  exact ⟨pair, hlive, hname, isLivePair_of_mem_live hlive⟩

namespace Serializer

variable {s : Serializer} {data : Record} {options : SerializeOptions}

/-! ## Before the mapping -/

/-- The record of a source in a call; no record for no source. -/
def resolved (s : Serializer) (data : Record) (options : SerializeOptions)
    (source : Option AttributeSource) : Record :=
  (source.map (·.resolve s.model data options)).getD []

/-- The enforced attributes of a call, the model's first. -/
def enforced (s : Serializer) (data : Record) (options : SerializeOptions) : List Record :=
  [s.resolved data options (s.own.bind (·.attributes)),
    s.resolved data options s.wide.attributes]

/-- The defaults of a call, the model's first, if they apply. -/
def ranksBelow (s : Serializer) (data : Record) (options : SerializeOptions) : List Record :=
  if options.serializeDefaults then
    [s.resolved data options (s.own.bind (·.defaults)), s.resolved data options s.wide.defaults]
  else []

/-- **The records that may give a field its value**, the strongest first: enforced
attributes, the caller's record, defaults. -/
def ranked (s : Serializer) (data : Record) (options : SerializeOptions) : List Record :=
  s.enforced data options ++ data :: s.ranksBelow data options

/-- What is done with one kind of record of all sources, the connector's first, is done
with both in turn. -/
theorem foldl_sources (f : AttributeSources → Option AttributeSource)
    {g : Record → Record → Record} (hg : ∀ t, g t [] = t) (s : Serializer) (data : Record)
    (options : SerializeOptions) (t : Record) :
    (s.sources.filterMap f).foldl (fun r source => g r (source.resolve s.model data options)) t =
      g (g t (s.resolved data options (f s.wide))) (s.resolved data options (s.own.bind f)) := by
  unfold sources resolved
  cases s.own with
  | none => cases hwide : f s.wide <;> simp [hwide, hg]
  | some own => cases hwide : f s.wide <;> cases hown : f own <;> simp [hwide, hown, hg]

theorem defaults_eq (s : Serializer) (data : Record) (options : SerializeOptions) :
    s.defaults data options =
      (s.ranksBelow data options).foldr (fun r t => Table.overlay t r) [] := by
  unfold defaults ranksBelow
  split
  · exact foldl_sources _ (fun _ => rfl) s data options []
  · rfl

theorem gathered_eq (s : Serializer) (data : Record) (options : SerializeOptions) :
    s.gathered data options = (s.enforced data options).foldr (fun r t => Record.mergeDeep t r)
      (Table.overlay (s.defaults data options) data) :=
  foldl_sources _ (fun t => by rw [Record.mergeDeep]) s data options _

/-- What records laid over each other read, the strongest last. -/
theorem get?_foldr_overlay {rs : List Record} (h : ∀ r ∈ rs, Table.Ordered r) (t : Record)
    (key : String) :
    Table.get? (rs.foldr (fun r t => Table.overlay t r) t) key =
      (rs.findSome? (Table.get? · key)).or (Table.get? t key) := by
  induction rs with
  | nil => rfl
  | cons r rest ih =>
    rw [List.forall_mem_cons] at h
    rw [List.foldr_cons, Table.get?_overlay _ h.1, ih h.2, List.findSome?_cons]
    cases Table.get? r key <;> rfl

/-- The strongest of merged records that has a field decides it, unless by an object. -/
theorem get?_foldr_mergeDeep {rs : List Record} (h : ∀ r ∈ rs, Table.Ordered r) (t : Record)
    {key : String} {v : Json} (hv : v.NonObject)
    (hget : (rs.findSome? (Table.get? · key)).or (Table.get? t key) = some v) :
    Table.get? (rs.foldr (fun r t => Record.mergeDeep t r) t) key = some v := by
  induction rs with
  | nil => exact hget
  | cons r rest ih =>
    rw [List.forall_mem_cons] at h
    rw [List.foldr_cons]
    rw [List.findSome?_cons] at hget
    cases hr : Table.get? r key with
    | some w =>
      rw [hr] at hget
      obtain rfl : w = v := Option.some.inj hget
      rw [Record.get?_mergeDeep_of_some _ h.1 hr, Json.mergeOver_of_nonObject hv]
    | none =>
      rw [hr] at hget
      rw [Record.get?_mergeDeep_of_none _ h.1 hr]
      exact ih h.2 hget

/-- **Before the mapping a field has its value from the strongest record** that gives
it one. -/
theorem get?_gathered (h : ∀ r ∈ s.ranked data options, Table.Ordered r) {key : String} {v : Json}
    (hv : v.NonObject) (hget : (s.ranked data options).findSome? (Table.get? · key) = some v) :
    Table.get? (s.gathered data options) key = some v := by
  obtain ⟨henforced, hbelow⟩ := List.forall_mem_append.1 h
  rw [List.forall_mem_cons] at hbelow
  rw [gathered_eq]
  refine get?_foldr_mergeDeep henforced _ hv ?_
  rw [Table.get?_overlay _ hbelow.1, defaults_eq, get?_foldr_overlay hbelow.2]
  rw [ranked, List.findSome?_append, List.findSome?_cons] at hget
  rw [← hget]
  cases (s.enforced data options).findSome? (Table.get? · key) with
  | some w => rfl
  | none =>
    cases Table.get? data key with
    | some w => rfl
    | none => exact Option.or_none

theorem wellFormed_gathered (h : ∀ r ∈ s.ranked data options, r.WellFormed) :
    (s.gathered data options).WellFormed := by
  obtain ⟨henforced, hbelow⟩ := List.forall_mem_append.1 h
  rw [List.forall_mem_cons] at hbelow
  have hdefaults : (s.defaults data options).WellFormed := by
    rw [defaults_eq]
    refine List.foldrRecOn _ _ Record.WellFormed.nil fun t ht r hr => ht.overlay (hbelow.2 r hr)
  rw [gathered_eq]
  exact List.foldrRecOn _ _ (hdefaults.overlay hbelow.1) fun t ht r hr =>
    ht.mergeDeep (henforced r hr)

/-! ## Buckets -/

theorem objectAt_of_get? {r : Record} {key : String} {inner : Record}
    (h : Table.get? r key = some (.obj inner)) : objectAt r key = inner := by
  rw [objectAt, h]
  rfl

/-- The record with both buckets put together. -/
def rebuilt (s : Serializer) (options : SerializeOptions) (mapped : Record) : Record :=
  Bucket.all.foldl (s.withBucket options) mapped

/-- **Putting a bucket together** touches no other field. -/
theorem get?_withBucket (s : Serializer) (options : SerializeOptions) (mapped : Record) (b : Bucket)
    (key : String) :
    Table.get? (s.withBucket options mapped b) key =
      if key = b.name then
        if (s.bucket mapped options b).isEmpty then none
        else some (.obj (s.bucket mapped options b))
      else Table.get? mapped key := by
  unfold withBucket
  dsimp only
  split
  · rw [Table.get?_erase]
  · rw [Table.get?_insert]

theorem get?_rebuilt_of_ne {key : String} (h : ∀ b : Bucket, b.name ≠ key) (mapped : Record) :
    Table.get? (s.rebuilt options mapped) key = Table.get? mapped key := by
  show Table.get? (s.withBucket options (s.withBucket options mapped .appMetadata)
    .userMetadata) key = _
  rw [get?_withBucket, if_neg (h .userMetadata).symm, get?_withBucket,
    if_neg (h .appMetadata).symm]

/-- **Each bucket is put together from the mapped record**, the other one having no part
in it. -/
theorem get?_rebuilt_bucket (s : Serializer) (options : SerializeOptions) (mapped : Record)
    (b : Bucket) :
    Table.get? (s.rebuilt options mapped) b.name =
      if (s.bucket mapped options b).isEmpty then none
      else some (.obj (s.bucket mapped options b)) := by
  show Table.get? (s.withBucket options (s.withBucket options mapped .appMetadata)
    .userMetadata) b.name = _
  rw [get?_withBucket]
  cases b with
  | appMetadata =>
    rw [if_neg (by decide), get?_withBucket, if_pos rfl]
  | userMetadata =>
    -- the mapped bucket is the same before and after the other one is put together
    have hsame : s.bucket (s.withBucket options mapped .appMetadata) options .userMetadata
        = s.bucket mapped options .userMetadata := by
      unfold bucket objectAt
      rw [get?_withBucket, if_neg (by decide)]
    rw [if_pos rfl, hsame]

/-- The bucket of the stored record, once it is mapped. -/
def storedBucket (s : Serializer) (options : SerializeOptions) (b : Bucket) : Record :=
  match options.instanceData with
  | some stored => objectAt (Record.extract stored s.mapping.live true) b.name
  | none => []

/-- The bucket that the model configures. -/
def ownBucket (s : Serializer) (b : Bucket) : Record := (s.own.map (·.bucket b)).getD []

theorem bucket_eq (s : Serializer) (mapped : Record) (options : SerializeOptions) (b : Bucket) :
    s.bucket mapped options b =
      [s.storedBucket options b, objectAt mapped b.name, s.wide.bucket b, s.ownBucket b,
        options.bucket b].foldl Table.overlay [] := by
  unfold bucket ownBucket
  cases s.own <;> rfl

/-- **Nothing but the mapped record gives the bucket this field**: no configured
bucket, and not the call. -/
structure LeavesOpen (s : Serializer) (options : SerializeOptions) (b : Bucket) (key : String) :
    Prop where
  wide : Table.get? (s.wide.bucket b) key = none
  own : Table.get? (s.ownBucket b) key = none
  call : Table.get? (options.bucket b) key = none

/-- **A mapped field stays in its bucket** if it is left open; the stored record lies
below it. -/
theorem get?_bucket {b : Bucket} {key : String} (hopen : s.LeavesOpen options b key)
    {mapped : Record} (hmapped : Table.Ordered (objectAt mapped b.name)) {v : Json}
    (hv : Table.get? (objectAt mapped b.name) key = some v) :
    Table.get? (s.bucket mapped options b) key = some v := by
  rw [bucket_eq, List.foldl_cons, List.foldl_cons, List.foldl_cons, List.foldl_cons,
    List.foldl_cons, List.foldl_nil, Table.get?_overlay_of_none _ hopen.call,
    Table.get?_overlay_of_none _ hopen.own, Table.get?_overlay_of_none _ hopen.wide,
    Table.get?_overlay _ hmapped, hv, Option.some_or]

/-! ## Leaving -/

/-- **The field leaves**: it is whitelisted, not omitted, and picked if some are. -/
structure Leaves (s : Serializer) (options : SerializeOptions) (key : String) : Prop where
  whitelisted : key ∈ s.whitelist
  notOmitted : ∀ names ∈ options.omitted, key ∉ names
  picked : ∀ names ∈ options.picked, key ∈ names

theorem leaves_iff {key : String} :
    s.Leaves options key ↔ (s.whitelist.contains key && !(options.omitted.any (·.contains key)) &&
      options.picked.all (·.contains key)) = true := by
  have homitted : options.omitted.any (·.contains key) = false ↔
      ∀ names ∈ options.omitted, key ∉ names := by cases options.omitted <;> simp
  have hpicked : options.picked.all (·.contains key) = true ↔
      ∀ names ∈ options.picked, key ∈ names := by cases options.picked <;> simp
  rw [Bool.and_eq_true, Bool.and_eq_true, List.contains_iff_mem, Bool.not_eq_true', homitted,
    hpicked, and_assoc]
  exact ⟨fun h => ⟨h.whitelisted, h.notOmitted, h.picked⟩, fun h => ⟨h.1, h.2.1, h.2.2⟩⟩

theorem get?_restricted_of_leaves {key : String} (h : s.Leaves options key) (r : Record) :
    Table.get? (s.restricted options r) key = Table.get? r key := by
  rw [restricted, Table.get?_restrict, if_pos (leaves_iff.1 h)]

theorem get?_restricted_of_not_leaves {key : String} (h : ¬s.Leaves options key) (r : Record) :
    Table.get? (s.restricted options r) key = none := by
  rw [restricted, Table.get?_restrict, if_neg (mt leaves_iff.2 h)]

/-- **A field that leaves does so as it is** after the buckets are put together. -/
theorem get?_serialize {key : String} (h : s.Leaves options key) :
    Table.get? (s.serialize data options) key =
      Table.get? (s.rebuilt options (Record.extract (s.gathered data options) s.mapping.live true))
        key :=
  get?_restricted_of_leaves h _

end Serializer

end UserDirectory
