import UserDirectory.Proofs.Attributes.Dates
import UserDirectory.Proofs.Connector.Courses
import UserDirectory.Proofs.Record.Copies

/-!
# What a deletion reaches

Deleting all matches of a condition has two ways to the directory. A condition that
names an id deletes this id and asks for nothing, so that neither the scopes nor the
rest of the condition have a say. Any other condition is searched for, narrowed by the
scopes, and what is deleted was found (`Connector.destroyAll_reaches`).

What was found is deleted by its id on the caller's side. This is the id on the
directory's side if nothing else is read into that field and no date is made of it
(`ConnectorSettings.ReadsIds`).
-/

namespace UserDirectory

/-! ## Ids of found records -/

/-- A value that is kept as it is under a name that holds no dates. -/
theorem Json.eq_of_coerceUnder_eq_str {dates : List String} {key : String} (h : key ∉ dates)
    {v : Json} {text : String} (hv : v.coerceUnder dates key = .str text) : v = .str text := by
  unfold coerceUnder at hv
  rw [if_neg (by simpa using h)] at hv
  cases v with
  | obj fields => exact absurd hv nofun
  | arr items => exact absurd hv nofun
  | _ => exact hv

namespace ConnectorSettings

variable {s : ConnectorSettings} {model : String}

/-- **The id of a record is the user's own**: no other remote field is read under its
name, and it holds no dates. -/
structure ReadsIds (s : ConnectorSettings) (model : String) : Prop where
  alone : ∀ e ∈ (s.mapper.table model .normalize).live, e.2 = s.idField model → e.1 = remoteId
  undated : s.idField model ∉ s.dateFields

/-- **The id that a record has was the user's.** -/
theorem ReadsIds.get?_remoteId (h : s.ReadsIds model) {external : Record} {id : String}
    (hid : Record.string? (s.normalize model external) (s.idField model) = some id) :
    Table.get? external remoteId = some (.str id) := by
  obtain ⟨v, hv, htext⟩ := Option.bind_eq_some_iff.1 hid
  have hstr : v = .str id := by
    cases v with
    | str text => exact congrArg Json.str (Option.some.inj htext)
    | _ => exact absurd htext nofun
  have hread : Table.get? ((s.normalizer model).normalize external) (s.idField model) =
      some (.str id) := hstr ▸ hv
  rw [Normalizer.get?_normalize] at hread
  obtain ⟨w, hw, hcoerced⟩ := Option.map_eq_some_iff.1 hread
  obtain rfl := Json.eq_of_coerceUnder_eq_str h.undated hcoerced
  -- only the pair of the remote id can have written it
  have hnonObject : (Json.str id).NonObject := rfl
  obtain ⟨pair, hmem, -, htarget, hsource⟩ := Record.exists_of_get?_copyPairs hnonObject hw
  rwa [h.alone pair hmem htarget, Json.at?_of_undotted (by decide) (by decide)] at hsource

end ConnectorSettings

/-! ## The two ways -/

namespace Connector

variable {H : Type} {s : ConnectorSettings} {model : String} {condition : Option Json}
  {cache cache' : TtlCache H} {turns : List (Turn H)} {outcome : Except ConnectorError Nat}

/-- **What deleting all matches of a condition reaches.** A condition that names an id
reaches this id alone, by one call at most and without a search. Any other makes one
search at most, with the query of the narrowed condition, and after it nothing but
deletions; each reaches a user on a page that answered the search, if ids are read as
they are. -/
theorem destroyAll_reaches
    (h : Course ((spoken s).destroyAll model condition) cache turns outcome cache') :
    (∀ id, conditionId? condition = some id →
      Turn.calls turns = [] ∨ Turn.calls turns = [.deleteUser id]) ∧
    (conditionId? condition = none → Turn.calls turns = [] ∨ ∃ query deletions,
      s.buildQuery model { condition, fields := some [s.idField model] } = .ok query ∧
      Turn.calls turns = .getUsers query :: deletions ∧
      ∀ call ∈ deletions, ∃ id, call = .deleteUser id ∧
        (s.ReadsIds model → ∃ page, Turn.Finds turns query page ∧
          ∃ user ∈ page.users, user.field? remoteId = some (.str id))) := by
  have hcourse := course_destroyAll h
  refine ⟨fun id hid => ?_, fun hnone => ?_⟩
  · rwa [hid] at hcourse
  rw [hnone] at hcourse
  refine hcourse.imp_right ?_
  rintro ⟨query, deletions, hquery, hcalls, hdeletions⟩
  refine ⟨query, deletions, hquery, hcalls, fun call hcall => ?_⟩
  obtain ⟨page, stored, id, hfinds, hstored, hid, rfl⟩ := hdeletions call hcall
  obtain ⟨external, huser, rfl⟩ := mem_foundRecords_iff.1 hstored
  exact ⟨id, rfl, fun hreads => ⟨page, hfinds, _, huser, hreads.get?_remoteId hid⟩⟩

/-! ## Both ways on a directory -/

/-- A configuration with a scope, for a table of names and the fields that hold dates. -/
def guardedConfig (names : List (String × String)) (dates : List String) : ConnectorConfig where
  domain := "example.org"
  clientId := "client"
  clientSecret := "secret"
  connection := "Users"
  queryScope := { condition := some (.obj [("blocked", .bool false)]) }
  serializeMapping := some (.ofList names)
  dateFields := dates

/-- Its settings, where the table of names can be inverted. -/
def guardedSettings (names back : List (String × String)) (dates : List String) :
    ConnectorSettings where
  domain := "example.org"
  clientId := "client"
  clientSecret := "secret"
  connection := "Users"
  searchEngine := .v2
  connectionQueryScope := true
  tokenLifetime := 3600
  scopes := TokenScopes.full.merge .empty
  queryScope := some (.obj [("blocked", .bool false)])
  sources := {}
  outboundAttributes := defaultOutboundAttributes
  dateFields := dates
  mapper := { connector := { serialize := .ofList names, normalize := .ofList back }, models := [] }
  models := []

/-- A deletion on a directory that answers every search with one page. -/
def deleted (s : ConnectorSettings) (condition : Option Json) (page : UserPage) :
    List (Turn Unit) × Except ConnectorError Nat × TtlCache Unit :=
  served ((spoken s).destroyAll "user" condition) (.empty s.handleLifetime) page

/-- A user that the search has found is deleted by the id that it has there. -/
theorem destroyAll_reaches_found :
    let s := guardedSettings [("id", "user_id")] [("user_id", "id")] []
    let condition := some (singleCondition "name" (.str "Ada"))
    ∃ turns cache', Course ((spoken s).destroyAll "user" condition)
        (.empty s.handleLifetime : TtlCache Unit) turns (.ok 1) cache' ∧
      conditionId? condition = none ∧ s.ReadsIds "user" ∧
      .deleteUser "auth0|a" ∈ Turn.calls turns ∧
      ∃ query page, Turn.Finds turns query page ∧
        ∃ user ∈ page.users, user.field? remoteId = some (.str "auth0|a") := by
  intro s condition
  have hcourse := course_served ((spoken s).destroyAll "user" condition) (.empty s.handleLifetime)
    { users := [.obj [("user_id", .str "auth0|a")]] }
  have hrun : (deleted s condition { users := [.obj [("user_id", .str "auth0|a")]] }).2.1 = .ok 1
      ∧ Turn.calls (deleted s condition { users := [.obj [("user_id", .str "auth0|a")]] }).1 =
        [.getUsers { q := some "name:\"Ada\" AND blocked:false AND identities.connection:\"Users\""
                     searchEngine := some .v2
                     fields := some "user_id" },
          .deleteUser "auth0|a"] := by decide +kernel
  have hreads : s.ReadsIds "user" := ⟨by decide +kernel, by decide +kernel⟩
  unfold deleted at hrun
  generalize served _ _ _ = run at hcourse hrun
  obtain ⟨turns, outcome, cache'⟩ := run
  obtain ⟨rfl, hcalls⟩ := hrun
  refine ⟨turns, cache', hcourse, rfl, hreads, ?_⟩
  obtain ⟨-, hsearch⟩ := destroyAll_reaches hcourse
  rcases hsearch rfl with hnone | ⟨query, deletions, -, hcalls', hdeletions⟩
  · exact absurd (hcalls.symm.trans hnone) (List.cons_ne_nil _ _)
  · obtain ⟨-, rfl⟩ := List.cons.inj (hcalls.symm.trans hcalls')
    obtain ⟨id, hid, hfound⟩ := hdeletions _ List.mem_cons_self
    obtain rfl := DirectoryCall.deleteUser.inj hid
    refine ⟨?_, query, hfound hreads⟩
    rw [hcalls]
    exact List.mem_cons_of_mem _ List.mem_cons_self

/-- **A condition that names an id reaches a user that its search does not find**: a
directory that finds nobody is told to delete it. And a user that is found is deleted by
another id if another field is read into that of the id, or if a date is made of it. -/
theorem destroyAll_past_search :
    let guarded := guardedSettings [("id", "user_id")] [("user_id", "id")] []
    let naming := some (singleCondition "id" (.str "auth0|b"))
    let other := guardedSettings [("user_id", "external_id")] [("external_id", "user_id")] []
    let dated := guardedSettings [("id", "user_id")] [("user_id", "id")] ["id"]
    let condition := some (singleCondition "name" (.str "Ada"))
    (ConnectorSettings.ofConfig (guardedConfig [("id", "user_id")] []) = .ok guarded ∧
      guarded.buildWhere "user" naming = .ok
        (some "user_id:\"auth0|b\" AND blocked:false AND identities.connection:\"Users\"") ∧
      Turn.calls (deleted guarded naming {}).1 = [.deleteUser "auth0|b"]) ∧
    (ConnectorSettings.ofConfig (guardedConfig [("user_id", "external_id")] []) = .ok other ∧
      (Turn.calls (deleted other condition { users := [.obj
        [("external_id", .str "auth0|b"), ("user_id", .str "auth0|a")]] }).1).tail =
          [.deleteUser "auth0|b"]) ∧
    (ConnectorSettings.ofConfig (guardedConfig [("id", "user_id")] ["id"]) = .ok dated ∧
      (Turn.calls (deleted dated condition { users := [.obj
        [("user_id", .str "2024-05-01T00:00:00Z")]] }).1).tail =
          [.deleteUser "2024-05-01T00:00:00.000Z"]) :=
  ⟨⟨rfl, by decide +kernel, by decide +kernel⟩, ⟨rfl, by decide +kernel⟩, ⟨rfl, by decide +kernel⟩⟩

end Connector

end UserDirectory
