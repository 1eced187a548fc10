import UserDirectory.Connector.Search
import UserDirectory.Proofs.Filter.Pieces
import UserDirectory.Proofs.Filter.Reading

/-!
# Layers of a search

What a caller asks is narrowed by nesting: each scope encloses the condition so
far in a conjunction of two, and an empty condition on either side leaves no
trace. The keys are renamed only afterwards, in the whole tree, and the filter
that results is compiled at once.

None of this can be seen in the query. A conjunction of two conditions is renamed
side by side, is read side by side, and has no text of its own outside any field;
so nesting a layer adds its pieces after the pieces that were there, and its
dropped clauses after theirs. A search is therefore compiled layer by layer
(`ConnectorSettings.compileWhere_eq_conjoin`), and no layer can tell what another
one holds.
-/

namespace UserDirectory

/-! ## Filters side by side -/

/-- **The pieces of a filter** are those of its clauses. -/
theorem Filter.pieces_eq_flatMap (scope : Option String) (f : Filter) :
    Filter.pieces scope f = f.flatMap (Clause.pieces scope) := by
  induction f with
  | nil => rfl
  | cons clause rest ih => rw [Filter.pieces, ih, List.flatMap_cons]

/-- **The dropped clauses of a filter** are those of its clauses. -/
theorem Filter.dropped_eq_flatMap (scope : Option String) (f : Filter) :
    Filter.dropped scope f = f.flatMap (Clause.dropped scope) := by
  induction f with
  | nil => rfl
  | cons clause rest ih => rw [Filter.dropped, ih, List.flatMap_cons]

theorem Filter.pieces_append (scope : Option String) (f g : Filter) :
    Filter.pieces scope (f ++ g) = Filter.pieces scope f ++ Filter.pieces scope g := by
  simp only [Filter.pieces_eq_flatMap, List.flatMap_append]

theorem Filter.dropped_append (scope : Option String) (f g : Filter) :
    Filter.dropped scope (f ++ g) = Filter.dropped scope f ++ Filter.dropped scope g := by
  simp only [Filter.dropped_eq_flatMap, List.flatMap_append]

theorem Filter.pieces_flatten (scope : Option String) (fs : List Filter) :
    Filter.pieces scope fs.flatten = (fs.map (Filter.pieces scope)).flatten := by
  induction fs with
  | nil => rfl
  | cons f rest ih => rw [List.flatten_cons, Filter.pieces_append, ih, List.map_cons,
      List.flatten_cons]

theorem Filter.dropped_flatten (scope : Option String) (fs : List Filter) :
    Filter.dropped scope fs.flatten = fs.flatMap (Filter.dropped scope) := by
  induction fs with
  | nil => rfl
  | cons f rest ih => rw [List.flatten_cons, Filter.dropped_append, ih, List.flatMap_cons]

theorem Filter.droppedAll_eq_flatten (scope : Option String) (fs : List Filter) :
    Filter.droppedAll scope fs = (fs.map (Filter.dropped scope)).flatten := by
  induction fs with
  | nil => rfl
  | cons f rest ih => rw [Filter.droppedAll, ih, List.map_cons, List.flatten_cons]

theorem Filter.flatPieces_eq_flatten (fs : List Filter) :
    Filter.flatPieces fs = (fs.map (Filter.pieces none)).flatten := by
  induction fs with
  | nil => rfl
  | cons f rest ih => rw [Filter.flatPieces, ih, List.map_cons, List.flatten_cons]

theorem Filter.groups_eq_flatMap (scope : Option String) (fs : List Filter) :
    Filter.groups scope fs = (fs.map (Filter.pieces scope)).flatMap groupPieces := by
  induction fs with
  | nil => rfl
  | cons f rest ih => rw [Filter.groups, ih, List.map_cons, List.flatMap_cons]

/-- **Two filters that compile alike** outside any field: the same pieces, and the
same clauses dropped. -/
structure Filter.SameText (f g : Filter) : Prop where
  pieces : Filter.pieces none f = Filter.pieces none g
  dropped : Filter.dropped none f = Filter.dropped none g

namespace Filter.SameText

variable {f g k : Filter}

theorem refl (f : Filter) : f.SameText f := ⟨rfl, rfl⟩

theorem trans (h : f.SameText g) (h' : g.SameText k) : f.SameText k :=
  ⟨h.pieces.trans h'.pieces, h.dropped.trans h'.dropped⟩

theorem compile_eq (h : f.SameText g) : f.compile = g.compile := by
  unfold Filter.compile
  rw [h.pieces, h.dropped]

theorem append {f' g' : Filter} (h : f.SameText g) (h' : f'.SameText g') :
    SameText (f ++ f') (g ++ g') := by
  constructor
  · rw [pieces_append, pieces_append, h.pieces, h'.pieces]
  · rw [dropped_append, dropped_append, h.dropped, h'.dropped]

/-- **A conjunction outside any field has no text of its own**, but that of its filters
side by side. -/
theorem and_flatten (fs : List Filter) : SameText [.and fs] fs.flatten := by
  constructor
  · show Filter.flatPieces fs ++ [] = _
    rw [List.append_nil, flatPieces_eq_flatten, pieces_flatten]
  · show Filter.droppedAll none fs ++ [] = _
    rw [List.append_nil, droppedAll_eq_flatten, dropped_flatten, List.flatMap_def]

theorem and_pair (f g : Filter) : SameText [.and [f, g]] (f ++ g) := by
  have hflatten := and_flatten [f, g]
  rwa [List.flatten_cons, List.flatten_singleton] at hflatten

end Filter.SameText

/-! ## Reading layers -/

/-- **A reading that goes through conjunctions**: a condition that asks nothing is the
filter without clauses, and two conditions are read each on its own. -/
structure ReadsConjunctions (read : Json → FilterResult Filter) : Prop where
  empty : ∀ {v}, isEmptyCondition v = true → read v = .ok []
  pair : ∀ {v w f}, read (.obj [("and", .arr [v, w])]) = .ok f →
    ∃ g k, read v = .ok g ∧ read w = .ok k ∧ f = [.and [g, k]]

/-- What asks nothing is `null`, or the object without fields. -/
theorem eq_of_isEmptyCondition {v : Json} (h : isEmptyCondition v = true) :
    v = .null ∨ v = .obj [] := by
  cases v with
  | null => exact .inl rfl
  | obj fields => exact .inr (congrArg Json.obj (List.isEmpty_iff.1 h))
  | _ => exact absurd h nofun

theorem readsConjunctions_ofJson : ReadsConjunctions Filter.ofJson where
  empty h := by rcases eq_of_isEmptyCondition h with rfl | rfl <;> rfl
  pair := Filter.ofJson_pair

/-- Conditions are renamed side by side, and one that asks nothing asks nothing under
other names. -/
theorem readsConjunctions_rename (rename : String → Json → String) :
    ReadsConjunctions fun v => Filter.ofJson (renameCondition rename v) where
  empty h := by rcases eq_of_isEmptyCondition h with rfl | rfl <;> rfl
  pair := Filter.ofJson_pair

namespace ReadsConjunctions

variable {read : Json → FilterResult Filter}

/-- **One layer more**: the conjunction reads as both conditions do, one after the
other. -/
theorem conjunction (hr : ReadsConjunctions read) {v w : Json} {f : Filter}
    (h : read (conjunction v w) = .ok f) :
    ∃ g k, read v = .ok g ∧ read w = .ok k ∧ f.SameText (g ++ k) := by
  -- an empty condition on either side leaves the other one as it is
  unfold UserDirectory.conjunction at h
  by_cases hw : isEmptyCondition w = true
  · rw [if_pos hw] at h
    refine ⟨f, [], h, hr.empty hw, ?_⟩
    rw [List.append_nil]
    exact .refl f
  · rw [if_neg hw] at h
    by_cases hv : isEmptyCondition v = true
    · rw [if_pos hv] at h
      exact ⟨[], f, hr.empty hv, h, .refl f⟩
    · rw [if_neg hv] at h
      obtain ⟨g, k, hg, hk, rfl⟩ := hr.pair h
      exact ⟨g, k, hg, hk, .and_pair g k⟩

/-- **Layer upon layer**: a condition narrowed by any number of others reads as all
of them do, in order. -/
theorem foldl (hr : ReadsConjunctions read) {layers : List Json} {v : Json} {f : Filter}
    (h : read (layers.foldl UserDirectory.conjunction v) = .ok f) :
    ∃ g fs, read v = .ok g ∧ List.Forall₂ (fun w k => read w = .ok k) layers fs ∧
      f.SameText (g ++ fs.flatten) := by
  induction layers generalizing v with
  | nil =>
    refine ⟨f, [], h, .nil, ?_⟩
    rw [List.flatten_nil, List.append_nil]
    exact .refl f
  | cons w rest ih =>
    obtain ⟨g', fs, hg', hfs, hsame'⟩ := ih h
    obtain ⟨g, k, hg, hk, hsame⟩ := hr.conjunction hg'
    refine ⟨g, k :: fs, hg, .cons hk hfs, hsame'.trans ?_⟩
    rw [List.flatten_cons, ← List.append_assoc]
    exact hsame.append (.refl fs.flatten)

/-- **The conditions that ask nothing** may be left out. -/
theorem forall₂_filter (hr : ReadsConjunctions read) {layers : List Json} {fs : List Filter}
    (h : List.Forall₂ (fun w k => read w = .ok k) layers fs) :
    ∃ gs, List.Forall₂ (fun w k => read w = .ok k)
        (layers.filter fun w => !isEmptyCondition w) gs ∧ gs.flatten = fs.flatten := by
  induction h with
  | nil => exact ⟨[], .nil, rfl⟩
  | @cons w k rest ks hk _ ih =>
    obtain ⟨gs, hgs, hflatten⟩ := ih
    by_cases hw : isEmptyCondition w = true
    · obtain rfl : [] = k := Except.ok.inj ((hr.empty hw).symm.trans hk)
      exact ⟨gs, by simpa [hw] using hgs, hflatten⟩
    · refine ⟨k :: gs, ?_, by rw [List.flatten_cons, hflatten, List.flatten_cons]⟩
      rw [List.filter_cons_of_pos (by simpa using hw)]
      exact .cons hk hgs

end ReadsConjunctions

namespace ConnectorSettings

variable {s : ConnectorSettings} {model : String} {condition : Option Json}

/-! ## The layers of a search -/

/-- **The conditions that a search is made of**, in order: the caller's, the
connector's scope, the model's scope and the connection. -/
def layers (s : ConnectorSettings) (model : String) (condition : Option Json) : List Json :=
  [condition, s.queryScope, (s.model? model).bind (·.queryScope),
    if s.scopesConnection model then
      some (singleCondition "connection" (.str (s.connectionOf model)))
    else none].reduceOption

/-- A condition read on its own, in the remote names of a model. -/
def readLayer (s : ConnectorSettings) (model : String) (condition : Json) : FilterResult Filter :=
  Filter.ofJson (renameCondition (s.remoteKey model) condition)

/-- **The filters are what the conditions read as**, each on its own. -/
def Reads (s : ConnectorSettings) (model : String) (vs : List Json) (fs : List Filter) : Prop :=
  List.Forall₂ (fun v f => s.readLayer model v = .ok f) vs fs

/-- A condition compiled on its own, in the remote names of a model. -/
def compileLayer (s : ConnectorSettings) (model : String) (condition : Json) :
    FilterResult CompiledQuery :=
  (s.readLayer model condition).map Filter.compile

theorem layers_eq (s : ConnectorSettings) (model : String) (condition : Option Json) :
    s.layers model condition = condition.toList ++ s.scopeConditions model := by
  unfold layers scopeConditions
  cases condition <;> cases s.queryScope <;> cases (s.model? model).bind (·.queryScope) <;>
    cases s.scopesConnection model <;> rfl

/-- **What a search compiles** is the filter of its narrowed condition, unless
nothing is left of it. -/
theorem compileWhere_eq_ok {r : Option CompiledQuery} (h : s.compileWhere model condition = .ok r) :
    ∃ f, s.readLayer model (s.scopedWhere model condition) = .ok f ∧
      r = (some f.compile).filter (!·.isEmpty) := by
  obtain ⟨compiled, hcompiled, hr⟩ := bind_eq_ok_iff.1 h
  obtain rfl := Except.ok.inj hr
  unfold compileScoped at hcompiled
  -- a search for nothing is not read at all, but would be read as the empty filter
  by_cases hempty : isEmptyCondition (s.scopedWhere model condition) = true
  · rw [if_pos hempty] at hcompiled
    obtain rfl := Except.ok.inj hcompiled
    exact ⟨[], (readsConjunctions_rename _).empty hempty, rfl⟩
  · rw [if_neg hempty] at hcompiled
    obtain ⟨f, hf, hcompiled⟩ := bind_eq_ok_iff.1 hcompiled
    obtain rfl := Except.ok.inj hcompiled
    exact ⟨f, hf, rfl⟩

/-- **A search reads layer by layer**: each layer is a filter on its own, and the
query is that of all these filters side by side. -/
theorem exists_filters_of_compileWhere {r : Option CompiledQuery}
    (h : s.compileWhere model condition = .ok r) :
    ∃ fs, s.Reads model (s.layers model condition) fs ∧
      r = (some (Filter.compile fs.flatten)).filter (!·.isEmpty) := by
  obtain ⟨f, hf, hr⟩ := compileWhere_eq_ok h
  obtain ⟨g, fs, hg, hfs, hsame⟩ := (readsConjunctions_rename _).foldl hf
  rw [hsame.compile_eq] at hr
  rw [layers_eq]
  cases condition with
  | none =>
    -- no caller at all reads as the empty filter
    obtain rfl : [] = g := Except.ok.inj hg
    exact ⟨fs, hfs, hr⟩
  | some own => exact ⟨g :: fs, .cons hg hfs, hr⟩

/-- **The query of filters side by side** joins the queries that they have on their
own, less the empty ones, and leaves out what they leave out. -/
theorem compile_flatten (fs : List Filter) :
    Filter.compile fs.flatten =
      { query := Query.conjoin (((fs.map Filter.compile).map (·.query)).filter (!·.isEmpty))
        dropped := (fs.map Filter.compile).flatMap (·.dropped) } := by
  unfold Filter.compile
  rw [Filter.pieces_flatten, Filter.dropped_flatten, Query.conjoin_flatten, List.flatMap_map,
    List.map_map, List.map_map]
  · rfl
  · rintro ts hts
    obtain ⟨f, -, rfl⟩ := List.mem_map.1 hts
    exact Filter.pieces_nonempty none f

/-- **A search is compiled layer by layer.** Whenever a search has a query, the query
is the join, in this order, of the queries that the caller's condition, the
connector's scope, the model's scope and the connection have when each is renamed,
read and compiled on its own, less the empty ones; and what was dropped is what was
dropped from each, in the same order. -/
theorem compileWhere_eq_conjoin {q : CompiledQuery}
    (h : s.compileWhere model condition = .ok (some q)) :
    ∃ parts, List.Forall₂ (fun layer part => s.compileLayer model layer = .ok part)
        (s.layers model condition) parts ∧
      q.query = Query.conjoin ((parts.map (·.query)).filter (!·.isEmpty)) ∧
      q.dropped = parts.flatMap (·.dropped) := by
  obtain ⟨fs, hfs, hq⟩ := exists_filters_of_compileWhere h
  refine ⟨fs.map Filter.compile, ?_, ?_⟩
  · refine List.forall₂_map_right_iff.2 (hfs.imp fun layer f hf => ?_)
    exact map_eq_ok_iff.2 ⟨f, hf, rfl⟩
  · obtain ⟨hq, -⟩ := Option.filter_eq_some_iff.1 hq.symm
    rw [compile_flatten] at hq
    obtain rfl := Option.some.inj hq
    exact ⟨rfl, rfl⟩

/-- Settings with a scope of the connector, one of a model and the connection. -/
def threeScopes : ConnectorSettings where
  domain := "example.org"
  clientId := "client"
  clientSecret := "secret"
  connection := "Users"
  searchEngine := .v2
  connectionQueryScope := true
  tokenLifetime := 3600
  scopes := .full
  queryScope := some (.obj [("blocked", .bool false), ("near", .str "here")])
  sources := {}
  outboundAttributes := []
  dateFields := []
  mapper := { connector := { serialize := .ofList [("givenName", "given_name")],
                             normalize := .ofList [("given_name", "givenName")] }, models := [] }
  models := [("staff", { connection := some "Staff",
                         queryScope := some (.obj [("or", .arr [.obj [("plan", .null)],
                           .obj [("givenName", .str "Ada")]])]) })]

theorem compileWhere_threeScopes :
    let caller := Json.obj [("gt", .str "lost"), ("id", .str "ada@example.org")]
    let q : CompiledQuery := {
      query := "email:\"ada@example.org\" AND blocked:false AND " ++
        "((plan:\"\" OR plan:0 OR _missing_:plan) OR given_name:\"Ada\") AND " ++
        "identities.connection:\"Staff\""
      dropped := [⟨"gt", none, .missingField⟩, ⟨"near", none, .unsupportedOperator⟩] }
    threeScopes.compileWhere "staff" (some caller) = .ok (some q) ∧
      ∃ parts, List.Forall₂ (fun layer part => threeScopes.compileLayer "staff" layer = .ok part)
          (threeScopes.layers "staff" (some caller)) parts ∧
        q.query = Query.conjoin ((parts.map (·.query)).filter (!·.isEmpty)) ∧
        q.dropped = parts.flatMap (·.dropped) := by
  intro caller q
  have h : threeScopes.compileWhere "staff" (some caller) = .ok (some q) := by decide +kernel
  exact ⟨h, compileWhere_eq_conjoin h⟩

end ConnectorSettings

end UserDirectory
