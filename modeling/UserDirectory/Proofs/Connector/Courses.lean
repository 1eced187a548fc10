import UserDirectory.Proofs.Connector.Handles

/-!
# What the operations ask

Each operation is known here by its courses: which calls it makes of the directory, in
which order and with what in them, and what it returns. A search makes one call at most,
and what it returns comes from the page that answers it. A write makes one call at most,
for the id that it was given. The operations that search first and write afterwards say
in their calls what they have found.
-/

namespace UserDirectory.Connector

variable {H : Type} {s : ConnectorSettings} {model id : String} {cache cache' : TtlCache H}
  {turns : List (Turn H)}

/-- **The records that a page gives**: its users in the caller's form, items that are no
objects left out. -/
def foundRecords (s : ConnectorSettings) (model : String) (page : UserPage) : List Record :=
  (page.users.filterMap Json.record?).map (s.normalize model)

/-- Each record of a page is one of its users. -/
theorem mem_foundRecords_iff {page : UserPage} {r : Record} :
    r ∈ foundRecords s model page ↔
      ∃ external, .obj external ∈ page.users ∧ s.normalize model external = r := by
  unfold foundRecords
  rw [List.mem_map]
  refine exists_congr fun external => and_congr_left fun _ => ?_
  rw [List.mem_filterMap]
  constructor
  · rintro ⟨user, huser, hrecord⟩
    cases user with
    | obj fields =>
      obtain rfl := Option.some.inj hrecord
      exact huser
    | _ => exact absurd hrecord nofun
  · exact fun huser => ⟨_, huser, rfl⟩

/-- The first record of a page is its first object. -/
theorem head?_foundRecords_eq_some_iff {page : UserPage} {r : Record} :
    (foundRecords s model page).head? = some r ↔
      ∃ external, (page.users.filterMap Json.record?).head? = some external ∧
        s.normalize model external = r := by
  unfold foundRecords
  rw [List.head?_map]
  exact Option.map_eq_some_iff

/-! ## Searches -/

/-- **A search makes one call at most**, that of the query of its bundle, and returns
what is on the page. -/
theorem course_all {bundle : SearchBundle} {outcome : Except ConnectorError (List Record)}
    (h : Course ((spoken s).all model bundle) cache turns outcome cache') :
    (Turn.calls turns = [] ∧ ∃ e, outcome = .error e) ∨
      ∃ query, s.buildQuery model bundle = .ok query ∧ Turn.calls turns = [.getUsers query] ∧
        ∀ stored, outcome = .ok stored →
          ∃ page, Turn.Finds turns query page ∧ stored = foundRecords s model page := by
  rcases course_bind_iff.1 h with
    ⟨e, rfl, hfilter⟩ | ⟨filtering, rest, query, _, rfl, hfilter, hrest⟩
  · obtain ⟨rfl, -, -⟩ := course_ofFilter_iff.1 hfilter
    exact .inl ⟨rfl, e, rfl⟩
  obtain ⟨rfl, hquery, -⟩ := course_ofFilter_iff.1 hfilter
  rcases course_client_bind hrest with
    ⟨hnone, he⟩ | ⟨handling, asking, handle, _, rfl, hhandling, hsearch⟩
  · exact .inl ⟨hnone, he⟩
  refine .inr ⟨query, mapError_eq_ok_iff.1 hquery, ?_⟩
  rw [List.nil_append, Turn.calls_append, hhandling, List.nil_append]
  obtain ⟨asking, rest, answer, rfl, htakes, hanswer⟩ := course_ask_bind hsearch
  obtain rfl := Dialogue.takes_put_iff.1 htakes
  rcases hanswer with ⟨e, -, rfl, rfl⟩ | ⟨page, rfl, hpure⟩
  · exact ⟨rfl, nofun⟩
  · obtain ⟨rfl, rfl, -⟩ := course_pure_iff.1 hpure
    refine ⟨rfl, fun stored hstored => ⟨page, ⟨handle, ?_⟩, (Except.ok.inj hstored).symm⟩⟩
    exact List.mem_append_right handling (List.mem_append_left [] List.mem_cons_self)

/-- **Looking an id up** returns the first record on the page of its search. -/
theorem course_find {outcome : Except ConnectorError (Option Record)}
    (h : Course ((spoken s).find model id) cache turns outcome cache') :
    (Turn.calls turns = [] ∧ ∃ e, outcome = .error e) ∨
      ∃ query, s.buildQuery model { condition := some (idCondition id) } = .ok query ∧
        Turn.calls turns = [.getUsers query] ∧
        ∀ found, outcome = .ok found →
          ∃ page, Turn.Finds turns query page ∧ found = (foundRecords s model page).head? := by
  rcases course_bind_iff.1 h with ⟨e, rfl, hall⟩ | ⟨searching, rest, stored, _, rfl, hall, hpure⟩
  · rcases course_all hall with ⟨hnone, he⟩ | ⟨query, hquery, hcalls, -⟩
    · exact .inl ⟨hnone, e, rfl⟩
    · exact .inr ⟨query, hquery, hcalls, nofun⟩
  · obtain ⟨rfl, rfl, -⟩ := course_pure_iff.1 hpure
    rw [List.append_nil]
    rcases course_all hall with ⟨-, e, he⟩ | ⟨query, hquery, hcalls, hpage⟩
    · exact absurd he nofun
    · refine .inr ⟨query, hquery, hcalls, fun found hfound => ?_⟩
      obtain ⟨page, hfinds, rfl⟩ := hpage stored rfl
      exact ⟨page, hfinds, (Except.ok.inj hfound).symm⟩

/-! ## Writes -/

theorem calls_normalizeResponse {answer : Json} {outcome : Except ConnectorError Record}
    (h : Course ((spoken s).normalizeResponse model answer) cache turns outcome cache') :
    Turn.calls turns = [] := by
  unfold normalizeResponse at h
  split at h
  · obtain ⟨rfl, -, -⟩ := course_pure_iff.1 h
    rfl
  · obtain ⟨rfl, -, -⟩ := course_throw_iff.1 h
    rfl

/-- **An update makes one call at most**, for its id and with its body. -/
theorem calls_update {data : Record} {options : SerializeOptions}
    {outcome : Except ConnectorError Record}
    (h : Course ((spoken s).update model id data options) cache turns outcome cache') :
    Turn.calls turns = [] ∨
      Turn.calls turns = [.updateUser id ((spoken (H := H) s).updateBody model data options)] := by
  unfold update at h
  split at h
  · obtain ⟨rfl, -, -⟩ := course_throw_iff.1 h
    exact .inl rfl
  rcases course_client_bind h with ⟨hnone, -⟩ | ⟨handling, rest, handle, _, rfl, hhandling, hrest⟩
  · exact .inl hnone
  right
  rw [Turn.calls_append, hhandling, List.nil_append]
  obtain ⟨rest, hcalls, rfl | ⟨answer, hread⟩⟩ :=
    calls_ask_bind (Turn.calls_of_takes_put handle (.updateUser id _)) hrest
  · exact hcalls
  · rw [hcalls, calls_normalizeResponse hread]

/-- **A partial update sends what it has found**, with the patch laid over it. If it sends
anything, it has made one search, and what goes to the id comes from the first record on
the page that answered. -/
theorem sent_of_updateAttributes {data : Record} {options : SerializeOptions}
    {outcome : Except ConnectorError Record}
    (h : Course ((spoken s).updateAttributes model id data options) cache turns outcome cache')
    {user : String} {body : Record} (hsent : .updateUser user body ∈ Turn.calls turns) :
    user = id ∧ ∃ query page stored,
      s.buildQuery model { condition := some (idCondition id) } = .ok query ∧
      Turn.calls turns = [.getUsers query, .updateUser id body] ∧
      Turn.Finds turns query page ∧ (foundRecords s model page).head? = some stored ∧
      body = (spoken (H := H) s).updateBody model (Table.overlay stored data)
        { options with serializeDefaults := false, instanceData := some stored } := by
  rcases course_bind_iff.1 h with ⟨e, -, hfind⟩ | ⟨finding, rest, found, _, rfl, hfind, hrest⟩
  · -- a lookup sends nothing
    rcases course_find hfind with ⟨hnone, -⟩ | ⟨query, -, hcalls, -⟩
    · rw [hnone] at hsent
      exact absurd hsent List.not_mem_nil
    · rw [hcalls] at hsent
      exact absurd (List.mem_singleton.1 hsent) nofun
  rcases course_find hfind with ⟨-, e, he⟩ | ⟨query, hquery, hcalls, hpage⟩
  · exact absurd he nofun
  obtain ⟨page, hfinds, rfl⟩ := hpage found rfl
  rw [Turn.calls_append, hcalls, List.singleton_append] at hsent ⊢
  have hsent := (List.mem_cons.1 hsent).resolve_left nofun
  cases hstored : (foundRecords s model page).head? with
  | none =>
    rw [hstored] at hrest
    obtain ⟨rfl, -, -⟩ := course_throw_iff.1 hrest
    exact absurd hsent List.not_mem_nil
  | some stored =>
    rw [hstored] at hrest
    rcases calls_update hrest with hnone | hcall
    · rw [hnone] at hsent
      exact absurd hsent List.not_mem_nil
    · rw [hcall, List.mem_singleton] at hsent
      obtain ⟨rfl, rfl⟩ := DirectoryCall.updateUser.inj hsent
      rw [hcall]
      exact ⟨rfl, query, page, stored, hquery, rfl, hfinds.append_left rest, hstored, rfl⟩

/-! ## Deletions -/

/-- **A deletion makes one call at most**, for its id. -/
theorem calls_destroy {outcome : Except ConnectorError Nat}
    (h : Course ((spoken s).destroy model id) cache turns outcome cache') :
    Turn.calls turns = [] ∨ Turn.calls turns = [.deleteUser id] := by
  rcases course_client_bind h with ⟨hnone, -⟩ | ⟨handling, rest, handle, _, rfl, hhandling, hrest⟩
  · exact .inl hnone
  right
  rw [Turn.calls_append, hhandling, List.nil_append]
  obtain ⟨rest, hcalls, rfl | ⟨answer, hpure⟩⟩ :=
    calls_ask_bind (Turn.calls_of_takes_put handle (.deleteUser id)) hrest
  · exact hcalls
  · obtain ⟨rfl, -, -⟩ := course_pure_iff.1 hpure
    exact hcalls

theorem course_recordId {r : Record} {outcome : Except ConnectorError String}
    (h : Course ((spoken s).recordId model r) cache turns outcome cache') :
    turns = [] ∧ ∀ id, outcome = .ok id → Record.string? r (s.idField model) = some id := by
  unfold recordId at h
  split at h
  · next id hid =>
    obtain ⟨rfl, rfl, -⟩ := course_pure_iff.1 h
    exact ⟨rfl, fun id' heq => hid.trans (congrArg some (Except.ok.inj heq))⟩
  · obtain ⟨rfl, rfl, -⟩ := course_throw_iff.1 h
    exact ⟨rfl, nofun⟩

/-- **A stored record is deleted by its id**, if it has one. -/
theorem calls_destroyStored {handle : H} {stored : Record} {outcome : Except ConnectorError Unit}
    (h : Course ((spoken s).destroyStored model (spokenDirectory handle) stored) cache turns outcome
      cache') :
    Turn.calls turns = [] ∨ ∃ id, Record.string? stored (s.idField model) = some id ∧
      Turn.calls turns = [.deleteUser id] := by
  rcases course_bind_iff.1 h with ⟨e, -, hrecord⟩ | ⟨reading, rest, id, _, rfl, hrecord, hask⟩
  · obtain ⟨rfl, -⟩ := course_recordId hrecord
    exact .inl rfl
  · obtain ⟨rfl, hid⟩ := course_recordId hrecord
    obtain ⟨answer, htakes, -, -⟩ := course_ask_iff.1 hask
    exact .inr ⟨id, hid id rfl, Turn.calls_of_takes_put handle _ rest answer htakes⟩

/-- **Deleting all matches of a condition.** A condition that names an id makes no search
and one deletion at most, that of this id. Any other makes one search at most, and then
deletes records of its page by their ids. -/
theorem course_destroyAll {condition : Option Json} {outcome : Except ConnectorError Nat}
    (h : Course ((spoken s).destroyAll model condition) cache turns outcome cache') :
    match conditionId? condition with
    | some id => Turn.calls turns = [] ∨ Turn.calls turns = [.deleteUser id]
    | none => Turn.calls turns = [] ∨ ∃ query deletions,
        s.buildQuery model { condition, fields := some [s.idField model] } = .ok query ∧
        Turn.calls turns = .getUsers query :: deletions ∧
        ∀ call ∈ deletions, ∃ page stored id, Turn.Finds turns query page ∧
          stored ∈ foundRecords s model page ∧
          Record.string? stored (s.idField model) = some id ∧ call = .deleteUser id := by
  unfold destroyAll at h
  cases hid : conditionId? condition with
  | some id =>
    rw [hid] at h
    exact calls_destroy h
  | none =>
    rw [hid] at h
    rcases course_client_bind h with ⟨hnone, -⟩ | ⟨handling, rest, handle, _, rfl, hhandling, hrest⟩
    · exact .inl hnone
    rw [Turn.calls_append, hhandling, List.nil_append]
    rcases course_bind_iff.1 hrest with
      ⟨e, -, hall⟩ | ⟨searching, rest, stored, _, rfl, hall, hloop⟩
    · rcases course_all hall with ⟨hnone, -⟩ | ⟨query, hquery, hcalls, -⟩
      · exact .inl hnone
      · exact .inr ⟨query, [], hquery, hcalls, nofun⟩
    rcases course_all hall with ⟨-, e, he⟩ | ⟨query, hquery, hcalls, hpage⟩
    · exact absurd he nofun
    obtain ⟨page, hfinds, rfl⟩ := hpage stored rfl
    refine .inr ⟨query, Turn.calls rest, hquery, ?_, fun call hcall => ?_⟩
    · rw [Turn.calls_append, hcalls]
      rfl
    have hround : ∃ stored ∈ foundRecords s model page, ∃ before round result after,
        Course ((spoken s).destroyStored model (spokenDirectory handle) stored) before round result
          after ∧ call ∈ Turn.calls round := by
      rcases course_bind_iff.1 hloop with
        ⟨e, -, hrounds⟩ | ⟨rounds, rest, _, _, rfl, hrounds, hpure⟩
      · exact mem_calls_forM hrounds hcall
      · obtain ⟨rfl, -, -⟩ := course_pure_iff.1 hpure
        rw [List.append_nil] at hcall
        exact mem_calls_forM hrounds hcall
    obtain ⟨stored, hstored, _, round, _, _, hdestroy, hcall⟩ := hround
    rcases calls_destroyStored hdestroy with hnone | ⟨id, hid, hdeleted⟩
    · rw [hnone] at hcall
      exact absurd hcall List.not_mem_nil
    · rw [hdeleted, List.mem_singleton] at hcall
      exact ⟨page, stored, id, (hfinds.append_left rest).append_right handling, hstored, hid, hcall⟩

end UserDirectory.Connector
