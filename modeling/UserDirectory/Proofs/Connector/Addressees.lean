import UserDirectory.Proofs.Connector.Deletions
import UserDirectory.Proofs.Search.Layers

/-!
# Whom a partial update reaches

The id of a partial update goes to the directory twice: as a condition, by which the
stored user is found, and as the address of the update. The address is the id as it was
given. The condition is written under the name that the directory has for ids, and this
name is not always that of ids: an id that looks like an email address is searched among
the addresses, and the mapping may send the name on to another field. So the user that
was loaded and the user that is updated are one only if the search was for ids, and if
the directory has answered it with users of this id (`Connector.updateAttributes_reaches`).
-/

namespace UserDirectory

/-! ## The search for an id -/

namespace ConnectorSettings

variable {s : ConnectorSettings} {model id : String}

/-- The query text of a request is that of its condition. -/
theorem buildWhere_of_buildQuery {bundle : SearchBundle} {query : UserQuery}
    (h : s.buildQuery model bundle = .ok query) :
    s.buildWhere model bundle.condition = .ok query.q := by
  obtain ⟨q, hq, h⟩ := bind_eq_ok_iff.1 h
  rw [hq, ← Except.ok.inj h]

/-- The condition on an id is renamed with its key. -/
theorem renameCondition_idCondition (rename : String → Json → String) (id : String) :
    renameCondition rename (idCondition id) =
      singleCondition (rename "id" (.str id)) (.str id) := rfl

/-- A condition on one field reads as one clause. -/
theorem ofJson_singleCondition {key : String} (hkey : FilterKey.ofKey key = .field)
    (text : String) :
    Filter.ofJson (singleCondition key (.str text)) =
      .ok [.field key (.literal (.string text))] := by
  have hclause : Clause.ofField 0 key (.str text) =
      .ok (.field key (.literal (.string text))) := by
    obtain ⟨nested, hnested⟩ := Clause.ofField_eq_map 0 (.str text)
    exact hnested key hkey
  rw [singleCondition, Filter.ofJson, Filter.ofFields, hclause]
  rfl

/-- **A search for an id** asks first that the field it is searched under holds this id. -/
theorem exists_clauses_of_idCondition
    (hkey : FilterKey.ofKey (s.remoteKey model "id" (.str id)) = .field) {query : UserQuery}
    (h : s.buildQuery model { condition := some (idCondition id) } = .ok query) :
    ∃ clauses, query.q = some (Query.conjoin
      (Query.equals (s.remoteKey model "id" (.str id)) (.string id) :: clauses)) := by
  obtain ⟨compiled, hcompiled, hq⟩ := bind_eq_ok_iff.1 (buildWhere_of_buildQuery h)
  obtain ⟨fs, hreads, hfiltered⟩ := exists_filters_of_compileWhere hcompiled
  rw [layers_eq] at hreads
  -- the caller's layer comes first, and it reads as one clause
  obtain ⟨f, rest, hread, -, rfl⟩ : ∃ f rest, s.readLayer model (idCondition id) = .ok f ∧
      s.Reads model (s.scopeConditions model) rest ∧ fs = f :: rest := by
    rcases hreads with _ | ⟨hread, hrest⟩
    exact ⟨_, _, hread, hrest, rfl⟩
  unfold readLayer at hread
  rw [renameCondition_idCondition, ofJson_singleCondition hkey] at hread
  obtain rfl := Except.ok.inj hread
  generalize s.remoteKey model "id" (.str id) = key at hfiltered ⊢
  let text := Query.equals key (.string id)
  let clauses := ((rest.map Filter.compile).map (·.query)).filter (!·.isEmpty)
  have htext : text.isEmpty = false := String.isEmpty_eq_false_iff.2 (Query.equals_ne_empty _ _)
  have hfirst : (Filter.compile [.field key (.literal (.string id))]).query = text :=
    Query.conjoin_singleton _
  rw [compile_flatten, List.map_cons, List.map_cons, hfirst,
    List.filter_cons_of_pos (by rw [htext]; rfl)] at hfiltered
  have hstated : AllNonempty (text :: clauses) := List.forall_mem_cons.2
    ⟨Query.equals_ne_empty _ _, fun t ht hempty => by
      have hkept := (List.mem_filter.1 ht).2
      rw [hempty] at hkept
      exact absurd hkept (by decide)⟩
  have hquery : (Query.conjoin (text :: clauses)).isEmpty = false :=
    String.isEmpty_eq_false_iff.2 fun hempty =>
      List.cons_ne_nil _ _ ((Query.conjoin_eq_empty_iff hstated).1 hempty)
  rw [Option.filter_some_pos (by rw [CompiledQuery.isEmpty, hquery]; rfl)] at hfiltered
  subst hfiltered
  exact ⟨clauses, (Except.ok.inj hq).symm⟩

end ConnectorSettings

/-! ## The update -/

namespace Connector

variable {H : Type} {s : ConnectorSettings} {model id : String} {cache cache' : TtlCache H}
  {turns : List (Turn H)}

/-- **The directory knows its ids**: a search that asks first for an id among ids is
answered with users of this id. -/
def KnowsId (id : String) (turns : List (Turn H)) : Prop :=
  ∀ query page clauses, Turn.Finds turns query page →
    query.q = some (Query.conjoin (Query.equals remoteId (.string id) :: clauses)) →
    ∀ user ∈ page.users, user.field? remoteId = some (.str id)

/-- **Whom a partial update reaches.** If it sends anything, it has searched for the id,
the first object on the page is the user that it has loaded, and the update is addressed
to the id as it was given. So it reaches the user that was loaded exactly if this user
has that id. What the user was searched by is whatever field the id is renamed to; only if
this is the field for ids, and the directory knows them, the user has it. -/
theorem updateAttributes_reaches {data : Record} {options : SerializeOptions}
    {outcome : Except ConnectorError Record}
    (h : Course ((spoken s).updateAttributes model id data options) cache turns outcome cache')
    {addressee : String} {body : Record}
    (hsent : .updateUser addressee body ∈ Turn.calls turns) :
    addressee = id ∧ ∃ query page loaded,
      s.buildQuery model { condition := some (idCondition id) } = .ok query ∧
      Turn.calls turns = [.getUsers query, .updateUser addressee body] ∧
      Turn.Finds turns query page ∧
      (page.users.filterMap Json.record?).head? = some loaded ∧
      (FilterKey.ofKey (s.remoteKey model "id" (.str id)) = .field →
        ∃ clauses, query.q = some (Query.conjoin
          (Query.equals (s.remoteKey model "id" (.str id)) (.string id) :: clauses))) ∧
      (s.remoteKey model "id" (.str id) = remoteId → KnowsId id turns →
        Table.get? loaded remoteId = some (.str addressee)) := by
  obtain ⟨rfl, query, page, stored, hquery, hcalls, hfinds, hstored, -⟩ :=
    sent_of_updateAttributes h hsent
  obtain ⟨loaded, hloaded, -⟩ := head?_foundRecords_eq_some_iff.1 hstored
  refine ⟨rfl, query, page, loaded, hquery, hcalls, hfinds, hloaded,
    fun hfield => ConnectorSettings.exists_clauses_of_idCondition hfield hquery, ?_⟩
  intro hkey hknows
  have hfield : FilterKey.ofKey (s.remoteKey model "id" (.str addressee)) = .field := by
    rw [hkey]
    decide +kernel
  obtain ⟨clauses, hclauses⟩ := ConnectorSettings.exists_clauses_of_idCondition hfield hquery
  rw [hkey] at hclauses
  obtain ⟨user, huser, hrecord⟩ := List.mem_filterMap.1 (List.mem_of_head? hloaded)
  have hid := hknows query page clauses hfinds hclauses user huser
  unfold Json.field? at hid
  rwa [hrecord, Option.bind_some] at hid

/-! ## On a directory -/

/-- A partial update on a directory that answers every search with one page. -/
def renamed (s : ConnectorSettings) (id : String) (page : UserPage) :
    List (Turn Unit) × Except ConnectorError Record × TtlCache Unit :=
  served ((spoken s).updateAttributes "user" id [("name", .str "Ada")] {})
    (spoken s).noHandles page

/-- An id that is searched among ids is what the search asks for first, and reaches the user
that has it. -/
theorem updateAttributes_reaches_loaded :
    let s := guardedSettings [("id", "user_id")] [("user_id", "id")] []
    ∃ turns outcome cache', Course
        ((spoken s).updateAttributes "user" "auth0|a" [("name", .str "Ada")] {})
        ((spoken s).noHandles : TtlCache Unit) turns outcome cache' ∧
      s.remoteKey "user" "id" (.str "auth0|a") = remoteId ∧ KnowsId "auth0|a" turns ∧
      (∃ query clauses, .getUsers query ∈ Turn.calls turns ∧
        query.q = some (Query.conjoin (Query.equals "user_id" (.string "auth0|a") :: clauses))) ∧
      ∃ body, ∃ loaded : Record, .updateUser "auth0|a" body ∈ Turn.calls turns ∧
        Table.get? loaded remoteId = some (.str "auth0|a") := by
  intro s
  let page : UserPage := { users := [.obj [("user_id", .str "auth0|a")]] }
  have hcourse := course_served
    ((spoken s).updateAttributes "user" "auth0|a" [("name", .str "Ada")] {})
    (spoken s).noHandles page
  have hcalls : ∃ query body, Turn.calls (renamed s "auth0|a" page).1 =
      [.getUsers query, .updateUser "auth0|a" body] :=
    ⟨{ q := some "user_id:\"auth0|a\" AND blocked:false AND identities.connection:\"Users\""
       searchEngine := some .v2 },
      [("client_id", .str "client"), ("connection", .str "Users")], by decide +kernel⟩
  have hserved : ∀ query found, Turn.Finds (renamed s "auth0|a" page).1 query found →
      found = page := fun _ _ => eq_of_finds_served
  unfold renamed at hcalls hserved
  generalize served _ _ _ = run at hcourse hcalls hserved
  obtain ⟨turns, outcome, cache'⟩ := run
  obtain ⟨query, body, hcalls⟩ := hcalls
  have hkey : s.remoteKey "user" "id" (.str "auth0|a") = remoteId := by decide +kernel
  have hknows : KnowsId "auth0|a" turns := by
    intro query found clauses hfinds _ user huser
    rw [hserved query found hfinds] at huser
    rw [List.mem_singleton.1 huser]
    rfl
  have hsent : .updateUser "auth0|a" body ∈ Turn.calls turns := by
    rw [hcalls]
    exact List.mem_cons_of_mem _ List.mem_cons_self
  obtain ⟨-, search, _, loaded, -, hsearch, -, -, hfirst, hreached⟩ :=
    updateAttributes_reaches hcourse hsent
  rw [hkey] at hfirst
  obtain ⟨clauses, hclauses⟩ := hfirst (by decide +kernel)
  have hsearched : .getUsers search ∈ Turn.calls turns := by
    rw [hsearch]
    exact List.mem_cons_self
  exact ⟨turns, outcome, cache', hcourse, hkey, hknows, ⟨search, clauses, hsearched, hclauses⟩,
    body, loaded, hsent, hreached hkey hknows⟩

/-- **The user that is loaded is not the one that is updated** if the id is searched among
email addresses, or if the mapping sends the name of ids on to another field, although
the tables are each other's inverse. -/
theorem updateAttributes_reaches_other :
    let plain := guardedSettings [("id", "user_id")] [("user_id", "id")] []
    let twice := guardedSettings [("id", "user_id"), ("user_id", "external_id")]
      [("external_id", "user_id"), ("user_id", "id")] []
    let scopes := " AND blocked:false AND identities.connection:\"Users\""
    let body : Record := [("client_id", .str "client"), ("connection", .str "Users")]
    (ConnectorSettings.ofConfig (guardedConfig [("id", "user_id")] []) = .ok plain ∧
      (plain.mapper.table "user" .serialize).invert =
        .ok (plain.mapper.table "user" .normalize) ∧
      Turn.calls (renamed plain "ada@example.org" { users :=
          [.obj [("email", .str "ada@example.org"), ("user_id", .str "auth0|a")]] }).1 =
        [.getUsers { q := some ("email:\"ada@example.org\"" ++ scopes), searchEngine := some .v2 },
          .updateUser "ada@example.org" body]) ∧
    (ConnectorSettings.ofConfig
        (guardedConfig [("id", "user_id"), ("user_id", "external_id")] []) = .ok twice ∧
      (twice.mapper.table "user" .serialize).invert =
        .ok (twice.mapper.table "user" .normalize) ∧
      Turn.calls (renamed twice "7" { users :=
          [.obj [("external_id", .str "7"), ("user_id", .str "auth0|a")]] }).1 =
        [.getUsers { q := some ("external_id:\"7\"" ++ scopes), searchEngine := some .v2 },
          .updateUser "7" body]) :=
  ⟨⟨rfl, by decide +kernel, by decide +kernel⟩, ⟨rfl, by decide +kernel, by decide +kernel⟩⟩

end Connector

end UserDirectory
