import Mathlib.Data.List.Nodup
import UserDirectory.Attributes.Normalizer
import UserDirectory.Proofs.Attributes.Outbound
import UserDirectory.Proofs.Mapping.Inverse

/-!
# There and back

A record whose fields are all mapped comes back as it left, dates apart
(`Serializer.normalize_serialize`). On the way out its fields are spread over the
targets of the mapping, where each can be read again because the targets are apart;
the buckets and the whitelist leave them as they are; and on the way back they are
collected from there under names that are apart because they have no dots.

So both ways are shown to read: the body that leaves has at each target what the
record has under its name, and the record that comes back has under each name what
the body has at the target.
-/

namespace UserDirectory

namespace Serializer

variable {s : Serializer} {r : Record}

/-! ## Nothing configured -/

/-- **Nothing is added to a record**: no defaults, no attributes, no buckets. -/
def AddsNothing (s : Serializer) : Prop := ∀ sources ∈ s.sources, sources = {}

namespace AddsNothing

theorem wide (h : s.AddsNothing) : s.wide = {} := h _ List.mem_cons_self

theorem own (h : s.AddsNothing) : ∀ sources ∈ s.own, sources = {} := fun sources hown =>
  h sources (List.mem_cons_of_mem _ (Option.mem_toList.2 hown))

theorem filterMap_sources (h : s.AddsNothing) {f : AttributeSources → Option AttributeSource}
    (hf : f {} = none) : s.sources.filterMap f = [] :=
  List.filterMap_eq_nil_iff.2 fun sources hmem => h sources hmem ▸ hf

theorem gathered (h : s.AddsNothing) (hr : Table.Ordered r) (options : SerializeOptions) :
    s.gathered r options = r := by
  have hdefaults : s.defaults r options = [] := by
    unfold defaults
    rw [h.filterMap_sources rfl]
    split <;> rfl
  unfold Serializer.gathered
  rw [h.filterMap_sources rfl, hdefaults, List.foldl_nil, Table.overlay_nil hr]

/-- A bucket holds what was mapped into it. -/
theorem bucket (h : s.AddsNothing) (mapped : Record) {b : Bucket}
    (hmapped : Table.Ordered (objectAt mapped b.name)) :
    s.bucket mapped {} b = objectAt mapped b.name := by
  have hwide : s.wide.bucket b = [] := by
    rw [h.wide]
    cases b <;> rfl
  have hown : s.ownBucket b = [] := by
    unfold ownBucket
    cases ho : s.own with
    | none => rfl
    | some sources =>
      rw [h.own sources ho]
      cases b <;> rfl
  have hcall : SerializeOptions.bucket {} b = [] := by cases b <;> rfl
  rw [bucket_eq, hwide, hown, hcall]
  exact Table.overlay_nil hmapped

end AddsNothing

/-! ## What leaves -/

/-- **Putting the buckets together changes nothing below them** if each holds what was
mapped into it. -/
theorem walk?_rebuilt_eq {options : SerializeOptions} {mapped : Record}
    (hbuckets : ∀ b : Bucket, s.bucket mapped options b = objectAt mapped b.name)
    {first : String} {rest : List String} (hleads : mapped.Leads (first :: rest))
    (hbare : ∀ b : Bucket, b.name = first → rest ≠ []) :
    (Json.obj (s.rebuilt options mapped)).walk? (first :: rest) =
      (Json.obj mapped).walk? (first :: rest) := by
  rw [Json.walk?_obj_cons, Json.walk?_obj_cons]
  by_cases hbucket : ∃ b : Bucket, b.name = first
  · obtain ⟨b, rfl⟩ := hbucket
    have hrest := hbare b rfl
    rw [get?_rebuilt_bucket, hbuckets]
    rw [Record.leads_cons_iff hrest] at hleads
    cases hget : Table.get? mapped b.name with
    | none =>
      rw [objectAt, hget]
      rfl
    | some v =>
      obtain ⟨inner, rfl, -⟩ := hleads v hget
      rw [objectAt_of_get? hget]
      -- a bucket that is mapped to nothing is taken out
      split
      · next hempty =>
        rw [List.isEmpty_iff.1 hempty]
        exact (Json.walk?_obj_nil hrest).symm
      · rfl
  · rw [get?_rebuilt_of_ne fun b hb => hbucket ⟨b, hb⟩]

/-- A field that is not there before does not leave. -/
theorem get?_serialize_of_none {data : Record} {options : SerializeOptions} {key : String}
    (h : Table.get? (s.rebuilt options (Record.extract (s.gathered data options) s.mapping.live
      true)) key = none) : Table.get? (s.serialize data options) key = none := by
  show Table.get? (s.restricted options (s.rebuilt options _)) key = none
  unfold restricted
  rw [Table.get?_restrict, h, ite_self]

/-- **The mapping can be undone**: the caller's names have no dots, the targets are
apart from each other and none is a whole bucket, and they are whitelisted. -/
structure Recoverable (s : Serializer) : Prop where
  undotted : ∀ e ∈ s.mapping.live, '.' ∉ e.1.toList
  apart : TargetsApart s.mapping.live
  notBucket : ∀ e ∈ s.mapping.live, ∀ b : Bucket, e.2 ≠ b.name
  whitelisted : ∀ e ∈ s.mapping.live, ∀ first ∈ (pathSegments e.2).head?, first ∈ s.whitelist

theorem leaves_of_mem_whitelist {key : String} (h : key ∈ s.whitelist) : s.Leaves {} key :=
  ⟨h, nofun, nofun⟩

/-- No field that leaves has a dot in its name, if nothing but copies is mapped. -/
theorem get?_serialize_of_dot {data copied : Record} {options : SerializeOptions}
    (h : Record.extract (s.gathered data options) s.mapping.live true =
      Record.copyPairs copied s.mapping.live) {key : String} (hdot : '.' ∈ key.toList) :
    Table.get? (s.serialize data options) key = none := by
  refine get?_serialize_of_none ?_
  rw [h, get?_rebuilt_of_ne fun b hb => ?_]
  · refine Record.get?_copyPairs_of_ne fun pair _ _ hhead => ?_
    exact absurd hdot (dot_not_mem_of_mem_pathSegments (List.mem_of_head? hhead))
  · subst hb
    cases b <;> exact absurd hdot (by decide)

/-- **Each target in the body reads what the record has under the name**, be it a value
or nothing. -/
theorem at?_serialize (hnothing : s.AddsNothing) (h : s.Recoverable) (hr : r.WellFormed)
    (hmapped : ∀ e ∈ r, ∃ pair ∈ s.mapping.live, pair.1 = e.1) {name target : String}
    (hlive : (name, target) ∈ s.mapping.live) :
    (Json.obj (s.serialize r {})).at? target = Table.get? r name := by
  have hpair := FieldMapping.isLivePair_of_mem_live hlive
  obtain ⟨-, hname, htarget⟩ := FieldMapping.mem_live_iff.1 hlive
  have hextract : Record.extract (s.gathered r {}) s.mapping.live true =
      Record.copyPairs r s.mapping.live := by
    rw [hnothing.gathered hr.ordered, FieldMapping.extract_live hr hmapped]
  have hbuckets : ∀ b : Bucket, s.bucket (Record.copyPairs r s.mapping.live) {} b
      = objectAt (Record.copyPairs r s.mapping.live) b.name := fun b =>
    hnothing.bucket _ (Record.WellFormed.fieldsOrNone fun w hw =>
      (hr.copyPairs s.mapping.live).of_get? hw).ordered
  obtain ⟨hleads, hwalk⟩ := Record.copyPairs_of_mem r h.apart hlive hpair
  -- fields of the body have no dots, so that reading it is walking
  have hdotted : '.' ∈ target.toList → Table.get? (s.serialize r {}) target = none :=
    get?_serialize_of_dot hextract
  have hread : (Json.obj r).at? name = Table.get? r name :=
    Json.at?_of_undotted hname (h.undotted _ hlive)
  rw [Json.at?_eq_walk? htarget hdotted, ← hread, ← hwalk]
  cases hsegments : pathSegments target with
  | nil => exact absurd hsegments (pathSegments_ne_nil target)
  | cons first rest =>
    have hfirst : first ∈ s.whitelist :=
      h.whitelisted _ hlive first (by rw [hsegments]; rfl)
    rw [hsegments] at hleads
    rw [Json.walk?_obj_cons, get?_serialize (leaves_of_mem_whitelist hfirst), hextract,
      ← Json.walk?_obj_cons]
    refine walk?_rebuilt_eq hbuckets hleads ?_
    rintro b rfl rfl
    exact h.notBucket _ hlive b (eq_of_pathSegments_eq_singleton hsegments)

end Serializer

/-! ## What comes back -/

/-- Names without dots are apart if they differ. -/
theorem targetsApart_invert {m n : FieldMapping} (h : m.invert = .ok n)
    (hnames : ∀ e ∈ m.live, '.' ∉ e.1.toList) : TargetsApart n.live := by
  refine List.Nodup.pairwise_of_forall_ne n.nodup_live fun e he e' he' hne => ?_
  have hlive := (FieldMapping.mem_live_invert h).1 he
  have hlive' := (FieldMapping.mem_live_invert h).1 he'
  have hdiff : e.2 ≠ e'.2 := fun heq =>
    hne (Prod.ext (FieldMapping.live_unique hlive (heq ▸ hlive')) heq)
  rw [pathSegments_of_undotted (hnames _ hlive), pathSegments_of_undotted (hnames _ hlive')]
  constructor
  · exact fun hp => hdiff (List.singleton_inj.1 (hp.eq_of_length rfl))
  · exact fun hp => hdiff (List.singleton_inj.1 (hp.eq_of_length rfl)).symm

/-- **A record is collected again** from a body that has at each target what the record
has under the name. -/
theorem extract_invert {m n : FieldMapping} (h : m.invert = .ok n)
    (hnames : ∀ e ∈ m.live, '.' ∉ e.1.toList) {r body : Record} (hr : Table.Ordered r)
    (hmapped : ∀ e ∈ r, ∃ pair ∈ m.live, pair.1 = e.1)
    (hbody : ∀ e ∈ m.live, (Json.obj body).at? e.2 = Table.get? r e.1) :
    Record.extract body n.live false = r := by
  rw [Record.extract_false]
  refine (Record.ordered_copyPairs body n.live).ext hr fun key => ?_
  by_cases hkey : ∃ target, (key, target) ∈ m.live
  · obtain ⟨target, hlive⟩ := hkey
    have hback := (FieldMapping.mem_live_invert h).2 hlive
    obtain ⟨-, hwalk⟩ := Record.copyPairs_of_mem body (targetsApart_invert h hnames) hback
      (FieldMapping.isLivePair_of_mem_live hback)
    rw [pathSegments_of_undotted (hnames _ hlive), Json.walk?_obj_singleton, hbody _ hlive] at hwalk
    exact hwalk
  · have hnone : Table.get? r key = none := Table.get?_eq_none_iff.2 fun e he heq => by
      obtain ⟨pair, hlive, hname⟩ := hmapped e he
      exact hkey ⟨pair.2, (hname.trans heq) ▸ hlive⟩
    rw [hnone]
    refine Record.get?_copyPairs_of_ne fun pair hpair _ hhead => ?_
    have hlive := (FieldMapping.mem_live_invert h).1 hpair
    rw [pathSegments_of_undotted (hnames _ hlive)] at hhead
    obtain rfl : pair.2 = key := Option.some.inj hhead
    exact absurd ⟨pair.1, hlive⟩ hkey

/-- **A record of mapped fields comes back as it was**, with its date fields coerced at
every depth: read with the inverse of the mapping that it was written with, which adds
nothing to it and can be undone. -/
theorem Serializer.normalize_serialize {s : Serializer} (hnothing : s.AddsNothing)
    (h : s.Recoverable) {inverse : FieldMapping} (hinverse : s.mapping.invert = .ok inverse)
    {r : Record} (hr : r.WellFormed)
    (hmapped : ∀ e ∈ r, ∃ pair ∈ s.mapping.live, pair.1 = e.1) (dates : List String) :
    (Normalizer.mk inverse dates).normalize (s.serialize r {}) = Json.coerceDateFields dates r := by
  unfold Normalizer.normalize
  rw [extract_invert hinverse h.undotted hr.ordered hmapped fun e he =>
    at?_serialize hnothing h hr hmapped he]

/-- A serializer that adds nothing, for a mapping into a bucket and beside it. -/
def lookSerializer : Serializer where
  model := "user"
  wide := {}
  own := some {}
  mapping := .ofList [("color", "user_metadata.look.color"), ("gone", ""), ("id", "user_id"),
    ("joined", "created_at"), ("size", "user_metadata.look.size")]
  whitelist := ["created_at", "user_id", "user_metadata"]

theorem lookSerializer_addsNothing : lookSerializer.AddsNothing :=
  List.forall_mem_cons.2 ⟨rfl, List.forall_mem_singleton.2 rfl⟩

theorem lookSerializer_recoverable : lookSerializer.Recoverable where
  undotted := by decide +kernel
  apart := by decide +kernel
  notBucket e he b := by
    revert e
    cases b <;> decide +kernel
  whitelisted := by decide +kernel

theorem Serializer.normalize_serialize_lookSerializer :
    ∃ inverse, lookSerializer.mapping.invert = .ok inverse ∧
      let r : Record := [("color", .obj [("hex", .str "0a0"), ("since", .num (.int 0))]),
        ("id", .null), ("joined", .str "2024-05-01T00:00:00+02:00")]
      (Normalizer.mk inverse ["joined", "since"]).normalize (lookSerializer.serialize r {}) =
        [("color", .obj [("hex", .str "0a0"), ("since", .str "1970-01-01T00:00:00.000Z")]),
          ("id", .null), ("joined", .str "2024-04-30T22:00:00.000Z")] := by
  have hinverse : lookSerializer.mapping.invert = .ok (.ofList [("created_at", "joined"),
      ("user_id", "id"), ("user_metadata.look.color", "color"),
      ("user_metadata.look.size", "size")]) := by decide +kernel
  refine ⟨_, hinverse, ?_⟩
  intro r
  rw [normalize_serialize lookSerializer_addsNothing lookSerializer_recoverable hinverse
    (by decide +kernel) (by decide +kernel)]
  decide +kernel

end UserDirectory
