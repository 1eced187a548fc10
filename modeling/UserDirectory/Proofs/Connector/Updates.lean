import UserDirectory.Proofs.Attributes.Dates
import UserDirectory.Proofs.Attributes.Precedence
import UserDirectory.Proofs.Attributes.RoundTrip
import UserDirectory.Proofs.Connector.Courses

/-!
# What a partial update leaves alone

A partial update loads the stored user, lays the patch over it and writes the result
back, so that a field that the patch does not mention is written as it was read. Reading
brings every date field, at any depth, to one form, and what is no timestamp to `null`;
this is what is written back. Apart from it nothing happens to such a field: what stands
at its remote path is what stood there, with its dates coerced
(`Connector.updateAttributes_keeps`), as long as the field leaves at all.

This takes a mapping that is read with its inverse and whose targets are apart, and it
takes that nothing configured is written over the record.
-/

namespace UserDirectory

/-! ## What leaves -/

namespace Serializer

variable {s : Serializer} {r : Record} {options : SerializeOptions}

/-- **Nothing configured is written over a record**: no enforced attributes and no
buckets. Defaults lie below it. -/
def EnforcesNothing (s : Serializer) : Prop :=
  ∀ sources ∈ s.sources, sources.attributes = none ∧ ∀ b, sources.bucket b = []

namespace EnforcesNothing

theorem gathered (h : s.EnforcesNothing) (hr : Table.Ordered r)
    (hdefaults : options.serializeDefaults = false) : s.gathered r options = r := by
  have hnone : s.sources.filterMap (·.attributes) = [] :=
    List.filterMap_eq_nil_iff.2 fun sources hmem => (h sources hmem).1
  unfold Serializer.gathered defaults
  rw [hnone, hdefaults, if_neg Bool.false_ne_true, List.foldl_nil, Table.overlay_nil hr]

theorem leavesOpen (h : s.EnforcesNothing) (hcall : ∀ b, options.bucket b = []) (b : Bucket)
    (key : String) : s.LeavesOpen options b key where
  wide := by
    rw [(h s.wide List.mem_cons_self).2 b]
    rfl
  own := by
    unfold ownBucket
    cases hown : s.own with
    | none => rfl
    | some sources =>
      have hmem : sources ∈ s.sources := List.mem_cons_of_mem _ (Option.mem_toList.2 hown)
      rw [Option.map_some, (h sources hmem).2 b]
      rfl
  call := by
    rw [hcall b]
    rfl

end EnforcesNothing

/-- Without defaults, a record of mapped fields is mapped to their copies. -/
theorem extract_gathered_of_enforcesNothing (h : s.EnforcesNothing)
    (hdefaults : options.serializeDefaults = false) (hr : r.WellFormed)
    (hmapped : ∀ e ∈ r, ∃ pair ∈ s.mapping.live, pair.1 = e.1) :
    Record.extract (s.gathered r options) s.mapping.live true =
      Record.copyPairs r s.mapping.live := by
  rw [h.gathered hr.ordered hdefaults, FieldMapping.extract_live hr hmapped]

/-- **Each field leaves at its target as it is.** -/
theorem walk?_serialize_of_enforcesNothing (h : s.EnforcesNothing)
    (hdefaults : options.serializeDefaults = false) (hcall : ∀ b, options.bucket b = [])
    (happart : TargetsApart s.mapping.live) (hr : r.WellFormed)
    (hmapped : ∀ e ∈ r, ∃ pair ∈ s.mapping.live, pair.1 = e.1) {name target : String}
    (hlive : (name, target) ∈ s.mapping.live) (hbare : ∀ b : Bucket, target ≠ b.name)
    {v : Json} (hget : Table.get? r name = some v) {first : String} {rest : List String}
    (htarget : pathSegments target = first :: rest) (hleaves : s.Leaves options first) :
    (Json.obj (s.serialize r options)).walk? (pathSegments target) = some v := by
  obtain ⟨-, hname, -⟩ := FieldMapping.mem_live_iff.1 hlive
  obtain ⟨hleads, hwalk⟩ := Record.copyPairs_of_mem r happart hlive
    (FieldMapping.isLivePair_of_mem_live hlive)
  rw [Json.at?_of_get? hname hget] at hwalk
  rw [htarget] at hleads hwalk ⊢
  rw [Json.walk?_obj_cons, get?_serialize hleaves,
    extract_gathered_of_enforcesNothing h hdefaults hr hmapped, ← Json.walk?_obj_cons]
  refine walk?_rebuilt (hr.copyPairs _) hleads hwalk fun b hb => ?_
  cases rest with
  | nil => exact absurd ((eq_of_pathSegments_eq_singleton htarget).trans hb.symm) (hbare b)
  | cons second tail => exact ⟨second, tail, rfl, h.leavesOpen hcall b second⟩

end Serializer

/-! ## What was read -/

namespace ConnectorSettings

variable {s : ConnectorSettings} {model : String} {external : Record}

/-- **Records of the model can be patched**: the mapping is read with its inverse, the
caller's names have no dots, the targets are apart from each other and none is a whole
bucket, and nothing configured is written over a record. -/
structure Patchable (s : ConnectorSettings) (model : String) : Prop where
  inverse : (s.mapper.table model .serialize).invert = .ok (s.mapper.table model .normalize)
  undotted : ∀ e ∈ (s.mapper.table model .serialize).live, '.' ∉ e.1.toList
  apart : TargetsApart (s.mapper.table model .serialize).live
  notBucket : ∀ e ∈ (s.mapper.table model .serialize).live, ∀ b : Bucket, e.2 ≠ b.name
  enforcesNothing : (s.serializer model).EnforcesNothing

namespace Patchable

/-- **A field is read from its target**, with its dates coerced. -/
theorem get?_normalize (h : s.Patchable model) {name target : String}
    (hlive : (name, target) ∈ (s.mapper.table model .serialize).live) {v : Json}
    (hv : (Json.obj external).at? target = some v) :
    Table.get? (s.normalize model external) name = some (v.coerceUnder s.dateFields name) := by
  have hback := (FieldMapping.mem_live_invert h.inverse).2 hlive
  obtain ⟨-, hwalk⟩ := Record.copyPairs_of_mem external (targetsApart_invert h.inverse h.undotted)
    hback (FieldMapping.isLivePair_of_mem_live hback)
  rw [pathSegments_of_undotted (h.undotted _ hlive), Json.walk?_obj_singleton, hv] at hwalk
  have hread := (s.normalizer model).get?_normalize external name
  exact hread.trans (congrArg _ hwalk)

/-- Nothing but mapped fields is read. -/
theorem exists_of_mem_normalize (h : s.Patchable model) {e : String × Json}
    (he : e ∈ s.normalize model external) :
    ∃ pair ∈ (s.mapper.table model .serialize).live, pair.1 = e.1 := by
  by_contra hnot
  have hnone : Table.get? (Record.copyPairs external (s.mapper.table model .normalize).live) e.1
      = none := by
    refine Record.get?_copyPairs_of_ne fun pair hpair _ hhead => ?_
    have hlive := (FieldMapping.mem_live_invert h.inverse).1 hpair
    rw [pathSegments_of_undotted (h.undotted _ hlive)] at hhead
    exact absurd ⟨_, hlive, Option.some.inj hhead⟩ hnot
  have hread : Table.get? (s.normalize model external) e.1 = none :=
    ((s.normalizer model).get?_normalize external e.1).trans (congrArg _ hnone)
  exact Table.get?_eq_none_iff.1 hread e he rfl

end Patchable

end ConnectorSettings

/-! ## What is written back -/

namespace Connector

variable {H : Type} {s : ConnectorSettings} {model id : String} {cache cache' : TtlCache H}
  {turns : List (Turn H)} {data : Record} {options : SerializeOptions}
  {outcome : Except ConnectorError Record}

/-- The body of an update reads what leaves of the record, apart from the two fields that
tell who makes it. -/
theorem at?_updateBody {target : String} (htarget : target ≠ "")
    (hdotted : '.' ∈ target.toList → Table.get? (s.serialize model data options) target = none)
    {first : String} {rest : List String} (hsegments : pathSegments target = first :: rest)
    (hclient : first ≠ "client_id") (hconnection : first ≠ "connection") :
    (Json.obj ((spoken (H := H) s).updateBody model data options)).at? target =
      (Json.obj (s.serialize model data options)).walk? (pathSegments target) := by
  have hother : ∀ key, key ≠ "client_id" → key ≠ "connection" →
      Table.get? ((spoken (H := H) s).updateBody model data options) key =
        Table.get? (s.serialize model data options) key := by
    intro key hkey hkey'
    unfold updateBody
    rw [Table.get?_insert_of_ne _ _ hkey', Table.get?_insert_of_ne _ _ hkey]
    rfl
  rw [Json.at?_eq_walk? htarget, hsegments, Json.walk?_obj_cons, Json.walk?_obj_cons,
    hother first hclient hconnection]
  intro hdot
  refine (hother target ?_ ?_).trans (hdotted hdot)
  · rintro rfl
    exact absurd hdot (by decide)
  · rintro rfl
    exact absurd hdot (by decide)

/-- **A partial update leaves the rest alone.** If it sends a body, its one search, that of
the id, has found a user, the first object on the page. Take any field that the patch does not mention and
whose target has a value in this user, begins with a name that leaves, and does not begin
with one of the two that tell who makes the update. Then the body has at the target the
value of the user with its dates coerced at every depth. -/
theorem updateAttributes_keeps (hs : s.Patchable model)
    (h : Course ((spoken s).updateAttributes model id data options) cache turns outcome cache')
    (hdata : data.WellFormed)
    (hnames : ∀ e ∈ data, ∃ pair ∈ (s.mapper.table model .serialize).live, pair.1 = e.1)
    (hcall : ∀ b, options.bucket b = [])
    (hpages : ∀ query page, Turn.Finds turns query page → ∀ user ∈ page.users, user.WellFormed)
    {user : String} {body : Record} (hsent : .updateUser user body ∈ Turn.calls turns) :
    ∃ query page external,
      s.buildQuery model { condition := some (idCondition id) } = .ok query ∧
      Turn.calls turns = [.getUsers query, .updateUser id body] ∧ Turn.Finds turns query page ∧
      (page.users.filterMap Json.record?).head? = some external ∧
      ∀ name target, (name, target) ∈ (s.mapper.table model .serialize).live →
        Table.get? data name = none → ∀ v, (Json.obj external).at? target = some v →
        ∀ first ∈ (pathSegments target).head?, (s.serializer model).Leaves options first →
        first ≠ "client_id" → first ≠ "connection" →
        (Json.obj body).at? target = some (v.coerceUnder s.dateFields name) := by
  obtain ⟨rfl, query, page, stored, hquery, hcalls, hfinds, hstored, rfl⟩ :=
    sent_of_updateAttributes h hsent
  obtain ⟨external, hexternal, rfl⟩ : ∃ external,
      (page.users.filterMap Json.record?).head? = some external ∧
        s.normalize model external = stored := by
    unfold foundRecords at hstored
    rw [List.head?_map] at hstored
    exact Option.map_eq_some_iff.1 hstored
  refine ⟨query, page, external, hquery, hcalls, hfinds, hexternal, ?_⟩
  intro name target hlive hopen v hv first hfirst hleaves hclient hconnection
  -- the record that is written back: the stored one, and over it the patch
  have hwf : Record.WellFormed (Table.overlay (s.normalize model external) data) := by
    obtain ⟨user, huser, hrecord⟩ := List.mem_filterMap.1 (List.mem_of_head? hexternal)
    have huserwf := hpages query page hfinds user huser
    cases user with
    | obj fields =>
      obtain rfl := Option.some.inj hrecord
      exact (Record.WellFormed.normalize huserwf _).overlay hdata
    | _ => exact absurd hrecord nofun
  have hmapped : ∀ e ∈ Table.overlay (s.normalize model external) data,
      ∃ pair ∈ (s.mapper.table model .serialize).live, pair.1 = e.1 := fun e he =>
    (Table.mem_overlay he).elim hs.exists_of_mem_normalize (hnames e)
  have hget : Table.get? (Table.overlay (s.normalize model external) data) name
      = some (v.coerceUnder s.dateFields name) :=
    (Table.get?_overlay_of_none _ hopen).trans (hs.get?_normalize hlive hv)
  obtain ⟨rest, hsegments⟩ := List.head?_eq_some_iff.1 hfirst
  obtain ⟨-, -, htarget⟩ := FieldMapping.mem_live_iff.1 hlive
  let written : SerializeOptions :=
    { options with serializeDefaults := false, instanceData := some (s.normalize model external) }
  have hdefaults : written.serializeDefaults = false := rfl
  have hwritten : ∀ b, written.bucket b = [] := hcall
  have hleaves' : (s.serializer model).Leaves written first :=
    ⟨hleaves.whitelisted, hleaves.notOmitted, hleaves.picked⟩
  have hcopies := Serializer.extract_gathered_of_enforcesNothing hs.enforcesNothing hdefaults hwf
    hmapped
  have hwalk := Serializer.walk?_serialize_of_enforcesNothing hs.enforcesNothing hdefaults hwritten
    hs.apart hwf hmapped hlive (hs.notBucket _ hlive) hget hsegments hleaves'
  exact (at?_updateBody htarget (Serializer.get?_serialize_of_dot hcopies) hsegments hclient
    hconnection).trans hwalk

/-! ## On a directory -/

/-- Settings for a mapping into a bucket and beside it. -/
def profileSettings : ConnectorSettings where
  domain := "example.org"
  clientId := "client"
  clientSecret := "secret"
  connection := "Users"
  searchEngine := .v2
  connectionQueryScope := true
  tokenLifetime := 3600
  scopes := .empty
  queryScope := none
  sources := {}
  outboundAttributes := defaultOutboundAttributes
  dateFields := defaultDateFields
  mapper := {
    connector := {
      serialize := .ofList [("id", "user_id"), ("mail", "email"),
        ("profile", "user_metadata.profile")]
      normalize := .ofList [("email", "mail"), ("user_id", "id"),
        ("user_metadata.profile", "profile")] }
    models := [] }
  models := []

theorem patchable_profileSettings : profileSettings.Patchable "user" where
  inverse := by decide +kernel
  undotted := by decide +kernel
  apart := by decide +kernel
  notBucket e he b := by
    revert e
    cases b <;> decide +kernel
  enforcesNothing := List.forall_mem_singleton.2 ⟨rfl, fun b => by cases b <;> rfl⟩

/-- A stored user with a profile. -/
def storedUser (profile : Json) : Record :=
  [("user_id", .str "auth0|a"), ("user_metadata", .obj [("profile", profile)])]

/-- The patch of a mail address for this user. -/
def patched (profile : Json) (options : SerializeOptions) :
    List (Turn Unit) × Except ConnectorError Record × TtlCache Unit :=
  served ((spoken profileSettings).updateAttributes "user" "auth0|a"
      [("mail", .str "ada@example.org")] options)
    (.empty profileSettings.handleLifetime) { users := [.obj (storedUser profile)] }

/-- A profile that is not patched is written back with its dates in universal time. -/
theorem updateAttributes_keeps_profile :
    let data : Record := [("mail", .str "ada@example.org")]
    ∃ turns outcome cache', Course
        ((spoken profileSettings).updateAttributes "user" "auth0|a" data {})
        (.empty profileSettings.handleLifetime : TtlCache Unit) turns outcome cache' ∧
      profileSettings.Patchable "user" ∧ data.WellFormed ∧
      (∀ e ∈ data, ∃ pair ∈ (profileSettings.mapper.table "user" .serialize).live, pair.1 = e.1) ∧
      (∀ query page, Turn.Finds turns query page → ∀ user ∈ page.users, user.WellFormed) ∧
      ∃ body, .updateUser "auth0|a" body ∈ Turn.calls turns ∧
        (Json.obj body).at? "user_metadata.profile" = some (.obj
          [("createdAt", .str "2024-05-01T00:00:00.000Z"), ("size", .num (.int 1))]) := by
  intro data
  let profile : Json :=
    .obj [("createdAt", .str "2024-05-01T02:00:00+02:00"), ("size", .num (.int 1))]
  have hcourse := course_served ((spoken profileSettings).updateAttributes "user" "auth0|a" data {})
    (.empty profileSettings.handleLifetime) { users := [.obj (storedUser profile)] }
  have hcalls : ∃ query body, Turn.calls (patched profile {}).1 =
      [.getUsers query, .updateUser "auth0|a" body] :=
    ⟨{ q := some "user_id:\"auth0|a\" AND identities.connection:\"Users\""
       searchEngine := some .v2 },
      [("client_id", .str "client"), ("connection", .str "Users"),
        ("email", .str "ada@example.org"), ("user_metadata", .obj [("profile", .obj
          [("createdAt", .str "2024-05-01T00:00:00.000Z"), ("size", .num (.int 1))])])],
      by decide +kernel⟩
  have hserved : ∀ query page, Turn.Finds (patched profile {}).1 query page →
      page = { users := [.obj (storedUser profile)] } := fun _ _ => eq_of_finds_served
  unfold patched at hcalls hserved
  generalize served _ _ _ = run at hcourse hcalls hserved
  obtain ⟨turns, outcome, cache'⟩ := run
  obtain ⟨query, body, hcalls⟩ := hcalls
  have hsent : .updateUser "auth0|a" body ∈ Turn.calls turns := by
    rw [hcalls]
    exact List.mem_cons_of_mem _ List.mem_cons_self
  have hdata : data.WellFormed := by decide +kernel
  have hnames : ∀ e ∈ data,
      ∃ pair ∈ (profileSettings.mapper.table "user" .serialize).live, pair.1 = e.1 := by
    decide +kernel
  have hpages : ∀ query page, Turn.Finds turns query page → ∀ user ∈ page.users,
      user.WellFormed := by
    intro query page hfinds user huser
    rw [hserved query page hfinds] at huser
    obtain rfl := List.mem_singleton.1 huser
    exact (by decide +kernel : (storedUser profile).WellFormed)
  refine ⟨turns, outcome, cache', hcourse, patchable_profileSettings, hdata, hnames, hpages, body,
    hsent, ?_⟩
  obtain ⟨query, page, external, -, -, hfinds, hexternal, hkept⟩ := updateAttributes_keeps
    patchable_profileSettings hcourse hdata hnames (fun b => by cases b <;> rfl) hpages hsent
  obtain rfl := hserved query page hfinds
  obtain rfl : storedUser profile = external := Option.some.inj hexternal
  exact (hkept "profile" "user_metadata.profile" (by decide +kernel) rfl profile (by decide +kernel)
    "user_metadata" (by decide +kernel) ⟨by decide +kernel, nofun, nofun⟩ (by decide)
    (by decide)).trans (by decide +kernel)

/-- **A date that is none is lost**, although the patch does not mention it, and a field
that is to be omitted is not written back at all. -/
theorem updateAttributes_changes_profile :
    let profile : Json := .obj [("createdAt", .str "yesterday"), ("size", .num (.int 1))]
    profileSettings.Patchable "user" ∧
      ("profile", "user_metadata.profile") ∈ (profileSettings.mapper.table "user" .serialize).live ∧
      "user_metadata" ∈ profileSettings.outboundAttributes ∧
      (Json.obj (storedUser profile)).at? "user_metadata.profile" = some profile ∧
      (∃ body, (Turn.calls (patched profile {}).1).tail = [.updateUser "auth0|a" body] ∧
        (Json.obj body).at? "user_metadata.profile" =
          some (.obj [("createdAt", .null), ("size", .num (.int 1))])) ∧
      (∃ body, (Turn.calls (patched profile { omitted := some ["user_metadata"] }).1).tail =
          [.updateUser "auth0|a" body] ∧ (Json.obj body).at? "user_metadata.profile" = none) :=
  ⟨patchable_profileSettings, by decide +kernel, by decide +kernel, by decide +kernel,
    ⟨[("client_id", .str "client"), ("connection", .str "Users"),
      ("email", .str "ada@example.org"), ("user_metadata", .obj [("profile",
        .obj [("createdAt", .null), ("size", .num (.int 1))])])],
      by decide +kernel, by decide +kernel⟩,
    ⟨[("client_id", .str "client"), ("connection", .str "Users"),
      ("email", .str "ada@example.org")], by decide +kernel, by decide +kernel⟩⟩

end Connector

end UserDirectory
