import UserDirectory.Proofs.Attributes.Outbound

/-!
# Which value leaves

The value of a mapped field is settled before the mapping: it is the one that the
strongest record gives, enforced attributes before the caller's record and this before
the defaults. No later stage changes it, provided that the targets of the mapping are
apart from each other, that the field's target leaves, and that nobody else defines
the target inside a bucket (`Serializer.walk?_serialize_of_ranked`). Fields that are
written under remote names lie beneath the mapped ones, and so does the stored record.

An object is different, for objects are merged: what stands at the target may then
hold fields of several records.
-/

namespace UserDirectory.Serializer

variable {s : Serializer} {data : Record} {options : SerializeOptions}

/-- **A mapped value stands at its target**, unless it is an object, and only objects
stand on the way to it. -/
theorem extract_of_mem {source : Record} (hs : source.WellFormed) {pairs : List (String × String)}
    (hpairs : TargetsApart pairs) {pair : String × String} (hmem : pair ∈ pairs)
    (hlive : isLivePair pair = true) {v : Json} (hv : v.NonObject)
    (hget : (Json.obj source).at? pair.1 = some v) :
    (Record.extract source pairs true).Leads (pathSegments pair.2) ∧
      (Json.obj (Record.extract source pairs true)).walk? (pathSegments pair.2) = some v := by
  obtain ⟨hleads, hwalk⟩ := Record.copyPairs_of_mem source hpairs hmem hlive
  rw [hget] at hwalk
  have hcopied := hs.copyPairs pairs
  rw [Record.extract_true]
  exact ⟨Record.leads_mergeDeep _ hcopied hleads hwalk,
    Record.walk?_mergeDeep (pathSegments_ne_nil pair.2) _ hcopied hv hwalk⟩

/-- **Putting the buckets together keeps what was mapped** to a place that they leave
open. -/
theorem walk?_rebuilt {mapped : Record} (hmapped : mapped.WellFormed) {first : String}
    {rest : List String} (hleads : mapped.Leads (first :: rest)) {v : Json}
    (hwalk : (Json.obj mapped).walk? (first :: rest) = some v)
    (hopen : ∀ b : Bucket, b.name = first →
      ∃ second tail, rest = second :: tail ∧ s.LeavesOpen options b second) :
    (Json.obj (s.rebuilt options mapped)).walk? (first :: rest) = some v := by
  by_cases hbucket : ∃ b : Bucket, b.name = first
  · obtain ⟨b, rfl⟩ := hbucket
    obtain ⟨second, tail, rfl, hsecond⟩ := hopen b rfl
    -- the mapped bucket is an object that holds the second segment
    obtain ⟨child, hchild, hrest⟩ := Option.bind_eq_some_iff.1 hwalk
    obtain ⟨inner, rfl, -⟩ := hleads child hchild
    have hget : Table.get? mapped b.name = some (.obj inner) := hchild
    have hat : objectAt mapped b.name = inner := objectAt_of_get? hget
    obtain ⟨w, hw, htail⟩ := Option.bind_eq_some_iff.1 hrest
    have hinner : Record.WellFormed inner := hmapped.of_get? hget
    have hfield : Table.get? (s.bucket mapped options b) second = some w :=
      get?_bucket hsecond (hat ▸ hinner.ordered) (hat ▸ hw)
    have hne : ¬(s.bucket mapped options b).isEmpty = true := by
      rw [List.isEmpty_iff]
      intro hnil
      rw [hnil] at hfield
      exact Option.some_ne_none w hfield.symm
    rw [Json.walk?_obj_cons, get?_rebuilt_bucket, if_neg hne, Option.bind_some,
      Json.walk?_obj_cons, hfield, Option.bind_some]
    exact htail
  · rw [Json.walk?_obj_cons, get?_rebuilt_of_ne (fun b hb => hbucket ⟨b, hb⟩)]
    exact hwalk

/-- **The strongest record decides.** Let the targets of a mapping be apart from each
other, and let a field with a live target have a value in some of the records that may
give it one: the model's enforced attributes, the connector's, the caller's record,
the model's defaults and the connector's. If its value in the strongest of these is no
object, the target leaves, and what is mapped into a bucket is left open there, then
exactly this value stands at the target of the record that leaves. -/
theorem walk?_serialize_of_ranked (hrecords : ∀ r ∈ s.ranked data options, r.WellFormed)
    (happart : TargetsApart s.mapping.live) {name target : String}
    (hlive : (name, target) ∈ s.mapping.live) {v : Json}
    (hget : (s.ranked data options).findSome? (Table.get? · name) = some v) (hv : v.NonObject)
    {first : String} {rest : List String} (htarget : pathSegments target = first :: rest)
    (hleaves : s.Leaves options first)
    (hopen : ∀ b : Bucket, b.name = first →
      ∃ second tail, rest = second :: tail ∧ s.LeavesOpen options b second) :
    (Json.obj (s.serialize data options)).walk? (pathSegments target) = some v := by
  have hnames := FieldMapping.isLivePair_of_mem_live hlive
  have hname : name ≠ "" := by
    rintro rfl
    exact Bool.false_ne_true hnames
  have hgathered : (Json.obj (s.gathered data options)).at? name = some v :=
    Json.at?_of_get? hname (get?_gathered (fun r hr => (hrecords r hr).ordered) hv hget)
  have hwf := wellFormed_gathered hrecords
  obtain ⟨hleads, hwalk⟩ := extract_of_mem hwf happart hlive hnames hv hgathered
  rw [htarget] at hleads hwalk ⊢
  rw [Json.walk?_obj_cons, get?_serialize hleaves, ← Json.walk?_obj_cons]
  exact walk?_rebuilt (hwf.extract _ true) hleads hwalk hopen

/-- A serializer with sources of all kinds, for a mapping into a bucket and beside
it. -/
def colorSerializer : Serializer where
  model := "staff"
  wide := { defaults := some (.fixed [("color", .str "green"), ("mail", .str "nobody@example.org")])
            attributes := some (.fixed [("color", .str "blue")])
            userMetadata := [("shoe", .num (.int 43))] }
  own := some { attributes := some (.fixed [("color", .str "red")]) }
  mapping := .ofList [("color", "user_metadata.look.color"), ("mail", "email")]
  whitelist := ["email", "user_metadata"]

theorem walk?_serialize_colorSerializer :
    let data : Record := [("color", .obj [("shade", .num (.int 1))]), ("email", .str "other"),
      ("user_metadata", .obj [("look", .str "plain"), ("shoe", .num (.int 42))])]
    let options : SerializeOptions :=
      { instanceData := some [("user_metadata", .obj [("look", .obj [("color", .null)])])]
        picked := some ["user_metadata"] }
    (colorSerializer.ranked data options).findSome? (Table.get? · "color") = some (.str "red") ∧
      (Json.obj (colorSerializer.serialize data options)).walk?
        (pathSegments "user_metadata.look.color") = some (.str "red") := by
  intro data options
  have hget : (colorSerializer.ranked data options).findSome? (Table.get? · "color")
      = some (.str "red") := by decide +kernel
  have hlive : ("color", "user_metadata.look.color") ∈ colorSerializer.mapping.live := by
    decide +kernel
  have htarget : pathSegments "user_metadata.look.color" = "user_metadata" :: ["look", "color"] := by
    decide +kernel
  refine ⟨hget, walk?_serialize_of_ranked (by decide +kernel) (by decide +kernel) hlive hget rfl
    htarget ⟨by decide, nofun, ?_⟩ fun b hb => ?_⟩
  · rintro names hnames
    obtain rfl := Option.some.inj hnames
    decide
  · refine ⟨"look", ["color"], rfl, ?_⟩
    cases b with
    | appMetadata => exact absurd hb (by decide)
    | userMetadata => exact ⟨by decide +kernel, rfl, rfl⟩

end UserDirectory.Serializer
