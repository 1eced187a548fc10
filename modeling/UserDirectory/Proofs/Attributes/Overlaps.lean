import UserDirectory.Connector.Settings
import UserDirectory.Proofs.Attributes.Outbound
import UserDirectory.Proofs.Mapping.Inverse
import UserDirectory.Proofs.Record.Commuting

/-!
# Targets that overlap

A configuration is accepted if no two names of a table share a target. Targets that
differ may still overlap: `name` and `name.first` name a place and one inside it. If a
record has fields for both, the mapping writes one value over the other, unless the
upper value holds the lower one there anyway, and which of them is lost depends on the
order of the writes (`field_lost_of_overlap`).

So no field is lost exactly if any two copies agree, and this is certain for every
record if the targets are apart from each other.
-/

namespace UserDirectory.ConnectorSettings

/-- **When the mapping of a model loses no field**, for a record whose fields are all
mapped: exactly if any two copies agree, then and only then is every field found at its
target, with the same result in every order of the pairs. Targets that are apart are
enough. -/
theorem extract_keeps_iff (s : ConnectorSettings) (model : String) {r : Record} (hr : r.WellFormed)
    (hnames : ∀ e ∈ r, ∃ target, (e.1, target) ∈ (s.mapper.table model .serialize).live) :
    let live := (s.mapper.table model .serialize).live
    ((∀ pairs, pairs.Perm live → r.extract pairs true = r.extract live true ∧
        ∀ e ∈ r, ∀ target, (e.1, target) ∈ live →
          (Json.obj (r.extract pairs true)).walk? (pathSegments target) = some e.2) ↔
      Record.CopiesAgree r live) ∧
    (TargetsApart live → Record.CopiesAgree r live) := by
  intro live
  -- nothing but copies is extracted, in whatever order
  have hextract : ∀ pairs, pairs.Perm live → r.extract pairs true = r.copyPairs pairs := by
    intro pairs hperm
    refine Record.extract_true_of_forall hr fun e he => ?_
    obtain ⟨target, hlive⟩ := hnames e he
    exact ⟨_, hperm.mem_iff.2 hlive, rfl, FieldMapping.isLivePair_of_mem_live hlive⟩
  refine ⟨⟨fun h => ?_, fun hagree pairs hperm => ?_⟩, Record.copiesAgree_of_targetsApart⟩
  · refine (Record.copyPairs_perm_iff hr).1 fun pairs hperm => ?_
    rw [← hextract pairs hperm, ← hextract live (.refl live)]
    exact (h pairs hperm).1
  · have hcopies := Record.copyPairs_perm hr hagree hperm.symm
    rw [hextract pairs hperm, hextract live (.refl live), ← hcopies]
    refine ⟨rfl, fun e he target hlive => ?_⟩
    obtain ⟨-, hname, -⟩ := FieldMapping.mem_live_iff.1 hlive
    exact hagree.walk?_copyPairs hr hlive (FieldMapping.isLivePair_of_mem_live hlive)
      (Json.at?_of_get? hname (hr.ordered.get?_of_mem he))

/-- A configuration with targets inside other ones. -/
def overlappingConfig : ConnectorConfig where
  domain := "example.org"
  clientId := "client"
  clientSecret := "secret"
  connection := "Users"
  serializeMapping := some (.ofList [("all", "tags"), ("first", "name.first"), ("head", "tags.0"),
    ("nick", "name")])
  outboundAttributes := ["name", "tags"]

/-- Its settings. -/
def overlappingSettings : ConnectorSettings where
  domain := "example.org"
  clientId := "client"
  clientSecret := "secret"
  connection := "Users"
  searchEngine := .v2
  connectionQueryScope := true
  tokenLifetime := 3600
  scopes := TokenScopes.full.merge .empty
  queryScope := none
  sources := {}
  outboundAttributes := ["name", "tags"]
  dateFields := defaultDateFields
  mapper := {
    connector := {
      serialize := .ofList [("all", "tags"), ("first", "name.first"), ("head", "tags.0"),
        ("nick", "name")]
      normalize := .ofList [("name", "nick"), ("name.first", "first"), ("tags", "all"),
        ("tags.0", "head")] }
    models := [] }
  models := []

/-- Fields whose values agree are both kept, although their targets overlap. -/
theorem extract_keeps_nested :
    let live := (overlappingSettings.mapper.table "user" .serialize).live
    let r : Record := [("first", .str "Ada"), ("nick", .obj [("first", .str "Ada")])]
    r.WellFormed ∧ (∀ e ∈ r, ∃ target, (e.1, target) ∈ live) ∧ Record.CopiesAgree r live ∧
      ∀ pairs, pairs.Perm live →
        r.extract pairs true = [("name", .obj [("first", .str "Ada")])] := by
  intro live r
  have hr : r.WellFormed := by decide +kernel
  have hnames : ∀ e ∈ r, ∃ target, (e.1, target) ∈ live :=
    List.forall_mem_cons.2 ⟨⟨"name.first", by decide +kernel⟩,
      List.forall_mem_singleton.2 ⟨"name", by decide +kernel⟩⟩
  have hagree : Record.CopiesAgree r live := by decide +kernel
  have hkept := (extract_keeps_iff overlappingSettings "user" hr hnames).1.2 hagree
  refine ⟨hr, hnames, hagree, fun pairs hperm => ?_⟩
  rw [(hkept pairs hperm).1]
  decide +kernel

/-- **An accepted mapping loses fields**, and the order decides which. Of a name and the
nickname beside it one goes in any order; a list and its head both stay if the list is
written last, and in the order of the names the list is lost. -/
theorem field_lost_of_overlap :
    let live := (overlappingSettings.mapper.table "user" .serialize).live
    let r : Record := [("first", .str "Ada"), ("nick", .str "ada")]
    let r' : Record := [("all", .arr [.str "a"]), ("head", .str "a")]
    ofConfig overlappingConfig = .ok overlappingSettings ∧
      live = [("all", "tags"), ("first", "name.first"), ("head", "tags.0"), ("nick", "name")] ∧
      (r.WellFormed ∧ r.extract live true = [("name", .str "ada")] ∧
        (Json.obj (r.extract live true)).walk? (pathSegments "name.first") ≠ some (.str "Ada") ∧
        r.extract live.reverse true = [("name", .obj [("first", .str "Ada")])]) ∧
      (r'.WellFormed ∧ r'.extract live true = [("tags", .obj [("0", .str "a")])] ∧
        (Json.obj (r'.extract live true)).walk? (pathSegments "tags") ≠ some (.arr [.str "a"]) ∧
        r'.extract live.reverse true = [("tags", .arr [.str "a"])]) :=
  ⟨rfl, by decide +kernel,
    ⟨by decide +kernel, by decide +kernel, by decide +kernel, by decide +kernel⟩,
    ⟨by decide +kernel, by decide +kernel, by decide +kernel, by decide +kernel⟩⟩

end UserDirectory.ConnectorSettings
