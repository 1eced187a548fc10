import UserDirectory.Proofs.Attributes.Outbound
import UserDirectory.Proofs.Connector.Accepted
import UserDirectory.Proofs.Connector.Deletions
import UserDirectory.Proofs.Mapping.Directions
import UserDirectory.Proofs.Mapping.Duplicates
import UserDirectory.Proofs.Record.Lenses

/-!
# Ids that come back

Deleting all matches of a condition asks the directory for ids and reads them off the
records that come back. Both go by the caller's name of the id: it is asked for under
the name that this name has on the way out, and read where the way in has put it. The
two ways are tables of their own, and nothing ties either of them to the id.

* The search asks for `user_id` if the way out sends the name to it, or knows nothing
  of the name and the name is `user_id` itself (`ConnectorSettings.AsksForIds`).
* A record keeps its id if the way in has an entry for `user_id`, a name without dots
  that holds no dates, and no later entry whose target begins with this name
  (`ConnectorSettings.KeepsIds`). Entries are copied in the order of their remote
  names, so that an earlier one is written over by the id and does no harm.

Both conditions are exact. Without an entry of its own the id keeps its name, and then
it is read from a field that no record has, since the way in leaves behind what it has
no entry for.
-/

namespace UserDirectory

/-! ## Flat records -/

/-- **No value of the record can be descended into.** -/
def Record.Flat (r : Record) : Prop := ∀ e ∈ r, ∀ segment, e.2.child? segment = none

/-- A path into a flat record is the name of a field. -/
theorem Record.Flat.at?_eq {r : Record} (h : r.Flat) {path : String} (hne : path ≠ "") :
    (Json.obj r).at? path = Table.get? r path := by
  rw [Json.at?_eq_or hne]
  cases hget : Table.get? r path with
  | some v => rfl
  | none =>
    show (Json.obj r).walk? (pathSegments path) = none
    match hpath : pathSegments path with
    | [] => exact absurd hpath (pathSegments_ne_nil path)
    | [segment] =>
      rw [Json.walk?_obj_singleton, ← eq_of_pathSegments_eq_singleton hpath, hget]
    | segment :: next :: below =>
      rw [Json.walk?_obj_cons]
      cases hchild : Table.get? r segment with
      | none => rfl
      | some v =>
        show (v.child? next).bind _ = none
        rw [h _ (Table.mem_of_get? hchild), Option.bind_none]

theorem Record.string?_eq_some_iff {r : Record} {key text : String} :
    r.string? key = some text ↔ Table.get? r key = some (.str text) := by
  rw [Record.string?]
  cases Table.get? r key with
  | none => simp
  | some v => cases v <;> simp [Json.string?]

/-! ## A field that is written last -/

namespace Record

theorem writes_append (source : Record) (pairs pairs' : List (String × String)) :
    writes source (pairs ++ pairs') = writes source pairs ++ writes source pairs' := by
  unfold writes usedPairs
  rw [List.filter_append, List.filterMap_append]

/-- The copies of a list of pairs, one of which has a value. -/
theorem copyPairs_append_cons {source : Record} {pair : String × String} {v : Json}
    (hlive : isLivePair pair = true) (hv : (Json.obj source).at? pair.1 = some v)
    (before after : List (String × String)) :
    copyPairs source (before ++ pair :: after)
      = setAll (setAt (copyPairs source before) (pathSegments pair.2) v) (writes source after) := by
  have hpair : writes source [pair] = [(pathSegments pair.2, v)] := by
    simp [writes, usedPairs, hlive, hv]
  rw [List.append_cons, copyPairs_eq_setAll, writes_append, writes_append, setAll_append,
    setAll_append, ← copyPairs_eq_setAll, hpair]
  rfl

/-- What stands under the first segment of a path after a write: the value, or an object on the
way to it. -/
theorem get?_setAt_head (r : Record) {path : List String} {key : String} (h : path.head? = some key)
    (v : Json) : Table.get? (setAt r path v) key = some v ∨
      ∃ fields, Table.get? (setAt r path v) key = some (.obj fields) := by
  match path with
  | [segment] =>
    obtain rfl := Option.some.inj h
    exact .inl (by rw [setAt_singleton, Table.get?_insert_self])
  | segment :: next :: below =>
    obtain rfl := Option.some.inj h
    rw [setAt_cons r segment (List.cons_ne_nil next below), Table.get?_insert_self]
    exact .inr ⟨_, rfl⟩

/-- **The last copy that reaches a field counts.** -/
theorem get?_copyPairs_of_last {source : Record} {pair : String × String} {v : Json}
    {before after : List (String × String)} (hlive : isLivePair pair = true)
    (hdot : '.' ∉ pair.2.toList) (hv : (Json.obj source).at? pair.1 = some v)
    (hlast : ∀ e ∈ after, (pathSegments e.2).head? = some pair.2 →
      (Json.obj source).at? e.1 = none) :
    Table.get? (copyPairs source (before ++ pair :: after)) pair.2 = some v := by
  rw [copyPairs_append_cons hlive hv, get?_setAll_of_ne, pathSegments_of_undotted hdot,
    setAt_singleton, Table.get?_insert_self]
  intro w hw hhead
  obtain ⟨e, he, -, hpath, hread⟩ := mem_writes_iff.1 hw
  exact Option.some_ne_none _ (hread.symm.trans (hlast e he (hpath ▸ hhead)))

/-- **A field that is there** has been reached by a copy. -/
theorem exists_copy_of_get? {source : Record} {pairs : List (String × String)} {key : String}
    {v : Json} (h : Table.get? (copyPairs source pairs) key = some v) :
    ∃ pair ∈ pairs, (pathSegments pair.2).head? = some key ∧
      (Json.obj source).at? pair.1 ≠ none := by
  by_contra hnone
  refine Option.some_ne_none v (h.symm.trans (get?_copyPairs_of_ne fun pair hmem _ hhead => ?_))
  by_contra hread
  exact hnone ⟨pair, hmem, hhead, hread⟩

end Record

namespace ConnectorSettings

variable {s : ConnectorSettings} {model : String}

/-! ## Asking for ids -/

/-- **The search asks for ids**: the way out sends the caller's name of the id to `user_id`, or
knows nothing of the name and it is `user_id` itself. -/
def AsksForIds (s : ConnectorSettings) (model : String) : Prop :=
  (s.idField model, remoteId) ∈ (s.mapper.table model .serialize).live ∨
    s.idField model = remoteId ∧
      ∀ target, (s.idField model, target) ∉ (s.mapper.table model .serialize).live

/-- The caller's name of the id is that of its live entry, or stays as it is. -/
theorem idField_eq_iff {name : String} : s.idField model = name ↔
    (remoteId, name) ∈ (s.mapper.table model .normalize).live ∨
      remoteId = name ∧ ∀ other, (remoteId, other) ∉ (s.mapper.table model .normalize).live :=
  FieldMapping.apply_eq_iff (by decide)

theorem idField_ne_empty : s.idField model ≠ "" := by
  intro h
  rcases idField_eq_iff.1 h with hlive | ⟨hempty, -⟩
  · exact (FieldMapping.mem_live_iff_get?.1 hlive).2.2 rfl
  · exact absurd hempty (by decide)

/-- **A search for the caller's name of the id** asks for `user_id` exactly then. -/
theorem fields_eq_remoteId_iff {condition : Option Json} {query : UserQuery}
    (h : s.buildQuery model { condition, fields := some [s.idField model] } = .ok query) :
    query.fields = some remoteId ↔ s.AsksForIds model := by
  obtain ⟨_, -, h⟩ := bind_eq_ok_iff.1 h
  obtain rfl := Except.ok.inj h
  have hfields : s.buildFields model [s.idField model]
      = some ((s.mapper.table model .serialize).apply (s.idField model)) := by
    simp [buildFields]
  show s.buildFields model [s.idField model] = some remoteId ↔ _
  rw [hfields, Option.some_inj]
  exact FieldMapping.apply_eq_iff idField_ne_empty

/-! ## Reading ids -/

/-- **Records keep their ids**: the way in has an entry for `user_id`, whose name has no dots and
holds no dates, and no later entry writes into the field of this name. -/
structure KeepsIds (s : ConnectorSettings) (model : String) : Prop where
  mapped : (remoteId, s.idField model) ∈ (s.mapper.table model .normalize).live
  undotted : '.' ∉ (s.idField model).toList
  undated : s.idField model ∉ s.dateFields
  last : ∀ e ∈ (s.mapper.table model .normalize).live, remoteId < e.1 →
    (pathSegments e.2).head? ≠ some (s.idField model)

/-- The entries of the way in, cut at one of them: those behind it have later names. -/
theorem exists_live_split {e : String × String}
    (h : e ∈ (s.mapper.table model .normalize).live) :
    ∃ before after, (s.mapper.table model .normalize).live = before ++ e :: after ∧
      ∀ e' ∈ after, e.1 < e'.1 := by
  obtain ⟨before, after, hsplit⟩ := List.append_of_mem h
  have hordered := (s.mapper.table model .normalize).ordered_live
  rw [hsplit] at hordered
  exact ⟨before, after, hsplit, (List.pairwise_cons.1 (List.pairwise_append.1 hordered).2.1).1⟩

/-- **The id is copied** under its caller's name, if no later entry has a value to write there. -/
theorem get?_copyPairs_idField
    (hmapped : (remoteId, s.idField model) ∈ (s.mapper.table model .normalize).live)
    (hdot : '.' ∉ (s.idField model).toList) {external : Record} {v : Json}
    (hid : Table.get? external remoteId = some v)
    (hlast : ∀ e ∈ (s.mapper.table model .normalize).live, remoteId < e.1 →
      (pathSegments e.2).head? = some (s.idField model) → (Json.obj external).at? e.1 = none) :
    Table.get? (Record.copyPairs external (s.mapper.table model .normalize).live)
      (s.idField model) = some v := by
  have hlive : isLivePair (remoteId, s.idField model) = true :=
    FieldMapping.isLivePair_of_mem_live hmapped
  have hread : (Json.obj external).at? remoteId = some v := Json.at?_of_get? (by decide) hid
  obtain ⟨before, after, hsplit, hafter⟩ := exists_live_split hmapped
  rw [hsplit] at hlast ⊢
  exact Record.get?_copyPairs_of_last hlive hdot hread fun e he => hlast e (List.mem_append_right before (List.mem_cons_of_mem _ he)) (hafter e he)

/-- The text under the name of the id is made of what was copied there. -/
theorem string?_normalize_iff {external : Record} {id : String} :
    Record.string? (s.normalize model external) (s.idField model) = some id ↔
      ∃ v, Table.get? (Record.copyPairs external (s.mapper.table model .normalize).live)
        (s.idField model) = some v ∧ v.coerceUnder s.dateFields (s.idField model) = .str id := by
  rw [Record.string?_eq_some_iff, normalize, Normalizer.get?_normalize, Option.map_eq_some_iff]
  rfl

/-- **A record that keeps its id** has it under the caller's name. -/
theorem KeepsIds.string?_normalize (h : s.KeepsIds model) {external : Record} {id : String}
    (hid : Table.get? external remoteId = some (.str id)) :
    Record.string? (s.normalize model external) (s.idField model) = some id := by
  have hcopied := get?_copyPairs_idField h.mapped h.undotted hid
    fun e he hlater hhead => absurd hhead (h.last e he hlater)
  refine string?_normalize_iff.2 ⟨_, hcopied, ?_⟩
  show (if s.dateFields.contains (s.idField model) then _ else _) = _
  rw [if_neg (by simpa using h.undated)]
  rfl

/-- A record with an id that is no timestamp, and other fields of no value. -/
def idBeside (names : List String) : Record := (remoteId, .str "x") :: names.map (·, .null)

theorem at?_idBeside {names : List String} {path : String} (hpath : path ≠ "") :
    (Json.obj (idBeside names)).at? path = if path = remoteId then some (.str "x")
      else if path ∈ names then some .null else none := by
  have hothers : ∀ names : List String, Table.get? (names.map (·, Json.null)) path
      = if path ∈ names then some .null else none := fun names => by
    induction names with
    | nil => rfl
    | cons name rest ih =>
      rw [List.map_cons, Table.get?_cons, ih]
      by_cases hname : path = name <;> simp [hname]
  have hflat : Record.Flat (idBeside names) := fun e he segment => by
    rcases List.mem_cons.1 he with rfl | he
    · rfl
    · obtain ⟨name, -, rfl⟩ := List.mem_map.1 he
      rfl
  rw [hflat.at?_eq hpath, idBeside, Table.get?_cons, hothers]

/-- **Records that keep their ids do so for these reasons.** Each shows on a record that has an id
and one field besides at most. -/
theorem KeepsIds.of_string?_normalize
    (h : ∀ (external : Record) (id : String), external.WellFormed →
      Table.get? external remoteId = some (.str id) →
      Record.string? (s.normalize model external) (s.idField model) = some id) :
    s.KeepsIds model := by
  have hpath : ∀ e ∈ (s.mapper.table model .normalize).live, e.1 ≠ "" := fun e he =>
    (FieldMapping.mem_live_iff_get?.1 he).2.1
  -- nothing but the id can be copied from a record that has nothing else
  have hother : ∀ e ∈ (s.mapper.table model .normalize).live, e.1 ≠ remoteId →
      (Json.obj (idBeside [])).at? e.1 = none := fun e he hne => by
    rw [at?_idBeside (hpath e he), if_neg hne, if_neg List.not_mem_nil]
  obtain ⟨v, hv, hcoerced⟩ := string?_normalize_iff.1 (h (idBeside []) "x" (by decide) rfl)
  obtain ⟨⟨source, target⟩, he, hhead, hcopy⟩ := Record.exists_copy_of_get? hv
  obtain rfl : source = remoteId := by_contra fun hne => hcopy (hother _ he hne)
  obtain rfl : s.idField model = target := idField_eq_iff.2 (.inl he)
  have hdot : '.' ∉ (s.idField model).toList := fun hdot =>
    Record.head?_pathSegments_ne hdot hhead
  have hdate : s.idField model ∉ s.dateFields := fun hdate => by
    have hid : Table.get? (idBeside []) remoteId = some (.str "x") := rfl
    have hcopied := get?_copyPairs_idField he hdot hid
      fun e he hlater _ => hother e he fun heq => String.lt_irrefl _ (heq ▸ hlater)
    obtain rfl := Option.some.inj (hv.symm.trans hcopied)
    rw [Json.coerceUnder, if_pos (by simpa using hdate)] at hcoerced
    exact absurd hcoerced (by decide)
  refine ⟨he, hdot, hdate, fun e he hlater hhead => ?_⟩
  -- a record with a value for the later entry loses its id to it
  have hwf : Record.WellFormed (idBeside [e.1]) :=
    ⟨List.pairwise_pair.2 hlater, trivial, trivial, trivial⟩
  obtain ⟨v, hv, hcoerced⟩ := string?_normalize_iff.1 (h (idBeside [e.1]) "x" hwf rfl)
  obtain rfl := Json.eq_of_coerceUnder_eq_str hdate hcoerced
  have hne : e.1 ≠ remoteId := fun heq => String.lt_irrefl _ (heq ▸ hlater)
  have hcopy : (Json.obj (idBeside [e.1])).at? e.1 = some .null := by
    rw [at?_idBeside (hpath e he), if_neg hne, if_pos List.mem_cons_self]
  obtain ⟨before, after, hsplit, hafter⟩ := exists_live_split he
  rw [hsplit, Record.copyPairs_append_cons (FieldMapping.isLivePair_of_mem_live he) hcopy] at hv
  have hstr : (Json.str "x").NonObject := rfl
  rcases Record.mem_of_get?_setAll hstr hv with hwritten | hwritten
  · rcases Record.get?_setAt_head (Record.copyPairs (idBeside [e.1]) before) hhead .null with
      hnull | ⟨fields, hfields⟩
    · exact absurd (hwritten.symm.trans hnull) nofun
    · exact absurd (hwritten.symm.trans hfields) nofun
  · obtain ⟨e', he', -, -, hread⟩ := Record.mem_writes_iff.1 hwritten
    have hmem : e' ∈ (s.mapper.table model .normalize).live :=
      hsplit ▸ List.mem_append_right before (List.mem_cons_of_mem e he')
    rw [at?_idBeside (hpath e' hmem)] at hread
    have hlast : remoteId < e'.1 := String.lt_trans hlater (hafter e' he')
    rw [if_neg fun heq => String.lt_irrefl _ (heq ▸ hlast)] at hread
    split at hread <;> exact absurd hread nofun

end ConnectorSettings

/-! ## Where the ways mirror each other -/

/-- **Only ways out are stated**, for the connector and for every model. -/
def ConnectorConfig.StatesWaysOut (c : ConnectorConfig) : Prop :=
  c.normalizeMapping = none ∧ ∀ e ∈ c.models, e.2.normalizeMapping = none

namespace ConnectorSettings

variable {c : ConnectorConfig} {s : ConnectorSettings}

/-- **A way in that is not stated** is the inverse of the way out. -/
theorem mirrors_of_ofConfig (hs : ofConfig c = .ok s) (hout : c.StatesWaysOut) (model : String) :
    (s.mapper.table model .serialize).Mirrors (s.mapper.table model .normalize) := by
  obtain ⟨-, hmapper, -, -⟩ := of_ofConfig hs
  obtain ⟨scope, hscope, hresolve⟩ := FieldMapper.exists_resolve hmapper model
  have hmodel : (scope.getD {}).normalize = none := by
    cases scope with
    | none => rfl
    | some own =>
      obtain ⟨e, he, rfl⟩ := hscope own rfl
      obtain ⟨e', he', rfl⟩ := List.mem_map.1 he
      exact hout.2 e' he'
  obtain ⟨-, -, hinverse, -⟩ := ResolvedMappings.resolve_directions hresolve
  exact .of_invert (hinverse hout.1 hmodel).1

/-- **A name that is sent to `user_id`** is the caller's name of the id, and asked for. -/
theorem idField_of_mirrors {model name : String}
    (hmirrors : (s.mapper.table model .serialize).Mirrors (s.mapper.table model .normalize))
    (hname : (name, remoteId) ∈ (s.mapper.table model .serialize).live) :
    s.idField model = name ∧ s.AsksForIds model := by
  have hid : s.idField model = name := idField_eq_iff.2 (.inl ((hmirrors name remoteId).2 hname))
  exact ⟨hid, .inl (hid ▸ hname)⟩

end ConnectorSettings

/-! ## Deleting all matches -/

namespace Connector

variable {H : Type} {c : ConnectorConfig} {s : ConnectorSettings}

/-- Whatever the condition, a deletion searches for the caller's name of the id. -/
theorem searches_of_destroyAll {model : String} {condition : Option Json}
    {cache cache' : TtlCache H} {turns : List (Turn H)} {outcome : Except ConnectorError Nat}
    (h : Course ((spoken s).destroyAll model condition) cache turns outcome cache')
    {query : UserQuery} (hcall : .getUsers query ∈ Turn.calls turns) :
    s.buildQuery model { condition, fields := some [s.idField model] } = .ok query := by
  have hcourse := course_destroyAll h
  cases hid : conditionId? condition with
  | some id =>
    rw [hid] at hcourse
    rcases hcourse with hnone | hone
    · exact absurd (hnone ▸ hcall) List.not_mem_nil
    · rw [hone] at hcall
      exact absurd (List.mem_singleton.1 hcall) nofun
  | none =>
    rw [hid] at hcourse
    rcases hcourse with hnone | ⟨query', deletions, hquery, hcalls, hdeletions⟩
    · exact absurd (hnone ▸ hcall) List.not_mem_nil
    rcases List.mem_cons.1 (hcalls ▸ hcall) with hfirst | hlater
    · rw [DirectoryCall.getUsers.inj hfirst]
      exact hquery
    · obtain ⟨_, _, _, -, -, -, hdelete⟩ := hdeletions _ hlater
      exact absurd hdelete nofun

/-- **When a deletion can read the ids that it has asked for.** The search of the deletion asks for
`user_id` exactly if the way out knows the caller's name of the id, and every user that comes back
has its id under this name exactly if the way in has put it there last, and as it is. Where only
ways out are stated, a name that is sent to `user_id` is asked for, and read if it has no dots, is
no date field, and begins no name with a later target. -/
theorem destroyAll_ids (hs : ConnectorSettings.ofConfig c = .ok s) (model : String) :
    (∀ {condition : Option Json} {cache cache' : TtlCache H} {turns : List (Turn H)}
        {outcome : Except ConnectorError Nat},
      Course ((spoken s).destroyAll model condition) cache turns outcome cache' →
      ∀ query, .getUsers query ∈ Turn.calls turns →
        (query.fields = some remoteId ↔ s.AsksForIds model)) ∧
    ((∀ (external : Record) (id : String), external.WellFormed →
        Table.get? external remoteId = some (.str id) →
        Record.string? (s.normalize model external) (s.idField model) = some id) ↔
      s.KeepsIds model) ∧
    (c.StatesWaysOut → ∀ name, (name, remoteId) ∈ (s.mapper.table model .serialize).live →
      s.AsksForIds model ∧
        ('.' ∉ name.toList → name ∉ s.dateFields →
          (∀ e ∈ (s.mapper.table model .serialize).live, remoteId < e.2 →
            (pathSegments e.1).head? ≠ some name) →
          s.KeepsIds model)) := by
  refine ⟨fun h query hcall => ?_, ?_, fun hout name hname => ?_⟩
  · exact ConnectorSettings.fields_eq_remoteId_iff (searches_of_destroyAll h hcall)
  · exact ⟨.of_string?_normalize, fun hkeeps external id _ hid => hkeeps.string?_normalize hid⟩
  · have hmirrors := ConnectorSettings.mirrors_of_ofConfig hs hout model
    obtain ⟨rfl, hasks⟩ := ConnectorSettings.idField_of_mirrors hmirrors hname
    refine ⟨hasks, fun hdot hdate hlast => ⟨(hmirrors _ _).2 hname, hdot, hdate, ?_⟩⟩
    exact fun e he => hlast (e.2, e.1) ((hmirrors e.2 e.1).1 he)

/-- A deletion that asks for the id of a user and reads it. -/
theorem destroyAll_ids_guarded :
    let s := guardedSettings [("id", "user_id")] [("user_id", "id")] []
    let condition := some (singleCondition "name" (.str "Ada"))
    (∃ turns outcome cache' query, Course ((spoken s).destroyAll "user" condition)
        (.empty s.handleLifetime : TtlCache Unit) turns outcome cache' ∧
      .getUsers query ∈ Turn.calls turns ∧ query.fields = some remoteId) ∧
      s.KeepsIds "user" ∧
      Record.string? (s.normalize "user" [("user_id", .str "auth0|a")]) (s.idField "user")
        = some "auth0|a" := by
  intro s condition
  have hs : ConnectorSettings.ofConfig (guardedConfig [("id", "user_id")] []) = .ok s := rfl
  have hcourse := course_served ((spoken s).destroyAll "user" condition)
    (.empty s.handleLifetime) { users := [.obj [("user_id", .str "auth0|a")]] }
  have hcalls : Turn.calls (deleted s condition
      { users := [.obj [("user_id", .str "auth0|a")]] }).1 =
        [.getUsers { q := some "name:\"Ada\" AND blocked:false AND identities.connection:\"Users\""
                     searchEngine := some .v2
                     fields := some "user_id" },
          .deleteUser "auth0|a"] := by decide +kernel
  unfold deleted at hcalls
  generalize served _ _ _ = run at hcourse hcalls
  obtain ⟨turns, outcome, cache'⟩ := run
  obtain ⟨hasks, hreads, hout⟩ := destroyAll_ids (H := Unit) hs "user"
  have hstates : (guardedConfig [("id", "user_id")] []).StatesWaysOut :=
    ⟨rfl, fun e he => absurd he List.not_mem_nil⟩
  have hname : ("id", remoteId) ∈ (s.mapper.table "user" .serialize).live := by decide +kernel
  have hids := hout hstates "id" hname
  have hkept : s.KeepsIds "user" :=
    hids.2 (by decide) List.not_mem_nil (by decide +kernel)
  have hcall := hcalls ▸ List.mem_cons_self
  exact ⟨⟨turns, outcome, cache', _, hcourse, hcall, (hasks hcourse _ hcall).2 hids.1⟩, hkept,
    hreads.2 hkept _ _ (by decide) rfl⟩

/-- **Accepted configurations under which ids are not asked for, or not read**: the two ways name
the id differently; no name is sent to `user_id`; the name has a dot; it holds dates; or it begins
another name. -/
theorem destroyAll_ids_lost :
    let condition := some (singleCondition "name" (.str "Ada"))
    let user : Record := [("user_id", .str "auth0|a"), ("user_name", .str "ada")]
    let apart := guardedSettings [("id", "user_id")] [("user_id", "uid")] []
    let unnamed := guardedSettings [("mail", "email")] [("email", "mail")] []
    let dotted := guardedSettings [("account.id", "user_id")] [("user_id", "account.id")] []
    let dated := guardedSettings [("id", "user_id")] [("user_id", "id")] ["id"]
    let nested := guardedSettings [("id", "user_id"), ("id.name", "user_name")]
      [("user_id", "id"), ("user_name", "id.name")] []
    (ConnectorSettings.ofConfig { guardedConfig [("id", "user_id")] [] with
        normalizeMapping := some (.ofList [("user_id", "uid")]) } = .ok apart ∧
      (Turn.calls (deleted apart condition { users := [.obj user] }).1).head? = some (.getUsers {
        q := some "name:\"Ada\" AND blocked:false AND identities.connection:\"Users\""
        searchEngine := some .v2
        fields := some "uid" })) ∧
    (ConnectorSettings.ofConfig (guardedConfig [("mail", "email")] []) = .ok unnamed ∧
      Record.string? (unnamed.normalize "user" user) (unnamed.idField "user") = none) ∧
    (ConnectorSettings.ofConfig (guardedConfig [("account.id", "user_id")] []) = .ok dotted ∧
      Record.string? (dotted.normalize "user" user) (dotted.idField "user") = none) ∧
    (ConnectorSettings.ofConfig (guardedConfig [("id", "user_id")] ["id"]) = .ok dated ∧
      Record.string? (dated.normalize "user" user) (dated.idField "user") = none) ∧
    (ConnectorSettings.ofConfig
        (guardedConfig [("id", "user_id"), ("id.name", "user_name")] []) = .ok nested ∧
      Record.string? (nested.normalize "user" user) (nested.idField "user") = none) :=
  ⟨⟨rfl, by decide +kernel⟩, ⟨rfl, by decide +kernel⟩, ⟨rfl, by decide +kernel⟩,
    ⟨rfl, by decide +kernel⟩, ⟨rfl, by decide +kernel⟩⟩

end Connector

end UserDirectory
