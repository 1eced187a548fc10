import UserDirectory.Proofs.Filter.Parts
import UserDirectory.Proofs.Filter.Visits

/-!
# What becomes of every clause

A clause is looked at where a walk of the filter meets it. Either there is a note on it, or
it is one piece of its level, or there is nothing to say of it. But a piece of a level is
not yet part of the query: the level may lie in an object, in a branch or in an inequality,
and there the text of the clause is up to the clause around it.

What lies right below a clause are levels, and the piece of the clause is written out of
the texts of these levels (`Visit.composed`). So what a clause is for its level stands in
what the clause around this level is for its own, and from there on in the query, at any
depth (`Visit.exists_pieces_of_below`, `Visit.standsIn_query`). Nothing is lost without a
note (`compile_notes_losses`).
-/

namespace UserDirectory

/-! ## Levels within clauses -/

namespace Visit

/-- What the walk meets below the clause. -/
def below (v : Visit) : List Visit := v.clause.visitsBelow v.path

/-- **The levels right below a clause**, each with the clauses that the walk meets in it. -/
def levels (v : Visit) : List (List Visit) :=
  match v.clause with
  | .and children | .or children => children.map fun level => level.map (Visit.mk v.path)
  | .field name (.nested level) => [level.map (Visit.mk (v.path ++ [name]))]
  | .operator (.neq (.nested level)) => if v.path = [] then [] else [level.map (Visit.mk v.path)]
  | _ => []

/-- The texts of the levels right below a clause, as far as they have one. -/
def levelTexts (v : Visit) : List String :=
  v.levels.filterMap fun level => levelText? (level.flatMap pieces)

/-- The terms that the clause is written with: its field and its values, or its own text. -/
def terms (v : Visit) : List String := v.clause.terms (dottedPath? v.path)

/-- **A clause is made of the levels right below it**: the walk goes through these levels,
one after another, and the piece of the clause is written out of their texts. -/
structure Composed (v : Visit) : Prop where
  walk : v.below = v.levels.flatten.flatMap fun u => u :: u.below
  /-- A nested object is the text of its level. -/
  nested : ∀ name level, v.clause = .field name (.nested level) → v.pieces = v.levelTexts
  /-- So is an inequality, but negated. -/
  negated : ∀ level, v.path ≠ [] → v.clause = .operator (.neq (.nested level)) →
    v.pieces = v.levelTexts.map fun text => "-(" ++ text ++ ")"
  /-- Any inequality negates what its field would be with the operand itself. -/
  inequality : ∀ path name operand, v.path = path ++ [name] →
    v.clause = .operator (.neq operand) →
    v.pieces = (pieces ⟨path, .field name operand⟩).map fun text => "-(" ++ text ++ ")"
  /-- A conjunction outside any field is the pieces of its branches. -/
  flat : ∀ children, v.path = [] → v.clause = .and children →
    v.pieces = v.levels.flatten.flatMap pieces
  /-- Inside a field it has the texts of its branches in parentheses. -/
  conjunction : ∀ children, v.path ≠ [] → v.clause = .and children →
    v.pieces = if v.levelTexts = [] then []
      else ["(" ++ " AND ".intercalate v.levelTexts ++ ")"]
  /-- A disjunction has parentheses inside a field, and for more than one branch. -/
  disjunction : ∀ children, v.clause = .or children →
    v.pieces = if v.levelTexts = [] then []
      else if v.path ≠ [] ∨ 1 < v.levelTexts.length then
        ["(" ++ " OR ".intercalate v.levelTexts ++ ")"]
      else [" OR ".intercalate v.levelTexts]

end Visit

/-- The pieces of a level are those of its clauses where they stand. -/
theorem Filter.pieces_eq_visits (path : List String) (level : Filter) :
    Filter.pieces (dottedPath? path) level = (level.map (Visit.mk path)).flatMap Visit.pieces := by
  rw [pieces_eq_flatMap, List.flatMap_map]
  rfl

theorem Filter.visits_eq_flatMap (path : List String) (level : Filter) :
    Filter.visits path level =
      (level.map (Visit.mk path)).flatMap fun u => u :: u.below := by
  induction level with
  | nil => rfl
  | cons clause rest ih =>
    rw [Filter.visits, ih, List.map_cons, List.flatMap_cons]
    rfl

theorem Filter.visitsAll_eq_flatMap (path : List String) (levels : List Filter) :
    Filter.visitsAll path levels =
      (levels.map fun level => level.map (Visit.mk path)).flatten.flatMap
        fun u => u :: u.below := by
  induction levels with
  | nil => rfl
  | cons level rest ih =>
    rw [Filter.visitsAll, ih, Filter.visits_eq_flatMap, List.map_cons, List.flatten_cons,
      List.flatMap_append]

namespace Visit

theorem levels_neq {path : List String} (hpath : path ≠ []) (level : Filter) :
    levels ⟨path, .operator (.neq (.nested level))⟩ = [level.map (Visit.mk path)] := if_neg hpath

theorem below_eq_flatMap (v : Visit) :
    v.below = v.levels.flatten.flatMap fun u => u :: u.below := by
  have hlevel (path : List String) (level : Filter) : Filter.visits path level =
      [level.map (Visit.mk path)].flatten.flatMap fun u => u :: u.below := by
    rw [List.flatten_singleton]
    exact Filter.visits_eq_flatMap path level
  obtain ⟨path, clause⟩ := v
  match clause with
  | .raw _ | .exists _ | .missing _ | .unsupported _ => rfl
  | .and children | .or children => exact Filter.visitsAll_eq_flatMap path children
  | .field name (.nested level) => exact hlevel (path ++ [name]) level
  | .field _ (.literal _) | .field _ .null | .field _ (.list _) => rfl
  | .operator (.neq (.nested level)) =>
    by_cases hpath : path = []
    · rw [hpath]
      rfl
    · rw [below, Clause.visitsBelow, if_neg hpath, levels_neq hpath]
      exact hlevel path level
  | .operator (.neq (.literal _)) | .operator (.neq .null) | .operator (.neq (.list _))
  | .operator (.inq _) | .operator (.nin _) | .operator (.gt _) | .operator (.gte _)
  | .operator (.lt _) | .operator (.lte _) | .operator (.between _ _) | .operator (.like _)
  | .operator (.nlike _) | .operator (.exists _) | .operator (.missing _) => exact ite_self _

/-- The text of a single level. -/
theorem filterMap_levelText? (path : List String) (level : Filter) :
    [level.map (Visit.mk path)].filterMap (fun us => levelText? (us.flatMap pieces)) =
      groupPieces (Filter.pieces (dottedPath? path) level) := by
  rw [groupPieces_eq_levelText?, Filter.pieces_eq_visits, List.filterMap_eq_flatMap_toList,
    List.flatMap_singleton]

/-- The texts of the branches of a group are its groups. -/
theorem levelTexts_eq_groups {v : Visit} {children : List Filter}
    (h : v.levels = children.map fun level => level.map (Visit.mk v.path)) :
    v.levelTexts = Filter.groups (dottedPath? v.path) children := by
  rw [levelTexts, h, List.filterMap_map, Filter.groups_eq_filterMap]
  refine congrArg (fun text => children.filterMap text) (funext fun level => ?_)
  rw [Filter.pieces_eq_visits]
  rfl

theorem composed (v : Visit) : v.Composed where
  walk := v.below_eq_flatMap
  nested := by
    obtain ⟨path, clause⟩ := v
    rintro name level rfl
    show groupPieces (Filter.pieces (some (scopedPath (dottedPath? path) name)) level) = _
    rw [← dottedPath?_append, ← filterMap_levelText?]
    rfl
  negated := by
    obtain ⟨path, clause⟩ := v
    rintro level hpath rfl
    rw [levelTexts, levels_neq hpath, filterMap_levelText?, pieces, dottedPath?_of_ne_nil hpath]
    rfl
  inequality := by
    obtain ⟨_, _⟩ := v
    rintro path name operand rfl rfl
    rw [pieces, dottedPath?_append]
    rfl
  flat := by
    obtain ⟨_, _⟩ := v
    rintro children rfl rfl
    show Filter.flatPieces children = _
    -- the branches are one level, that of the clause itself
    rw [Filter.flatPieces_eq_flatten, ← Filter.pieces_flatten]
    show Filter.pieces (dottedPath? []) children.flatten = _
    rw [Filter.pieces_eq_visits, List.map_flatten]
    rfl
  conjunction := by
    obtain ⟨path, _⟩ := v
    rintro children hpath rfl
    rw [levelTexts_eq_groups rfl, pieces, dottedPath?_of_ne_nil hpath]
    show joinGroups true Query.conjoin _ = _
    split
    · next hnone => rw [hnone]; rfl
    · next hsome => exact joinGroups_of_ne_nil hsome true _
  disjunction := by
    obtain ⟨path, _⟩ := v
    rintro children rfl
    rw [levelTexts_eq_groups rfl]
    let groups := Filter.groups (dottedPath? path) children
    show joinGroups ((dottedPath? path).isSome || 1 < groups.length) Query.disjoin groups = _
    split
    · next hnone => rw [show groups = [] from hnone]; rfl
    · next hsome =>
      rw [joinGroups_of_ne_nil hsome]
      refine if_congr ?_ rfl rfl
      rw [Bool.or_eq_true, decide_eq_true_iff]
      exact or_congr dottedPath?_isSome_iff Iff.rfl

/-! ## Clauses in the text -/

variable {v u : Visit} {level : List Visit} {piece : String}

/-- **Each piece of a level stands in the text of the level**, which the clause around it
is written out of. -/
theorem exists_levelTexts (hlevel : level ∈ v.levels) (hu : u ∈ level) (h : piece ∈ u.pieces) :
    ∃ text ∈ v.levelTexts, StandsIn piece text := by
  obtain ⟨text, htext, hstands⟩ := exists_levelText? (List.mem_flatMap.2 ⟨u, hu, h⟩)
  exact ⟨text, List.mem_filterMap.2 ⟨level, hlevel, htext⟩, hstands⟩

/-- Only groups, nested objects and inequalities have levels right below them. -/
theorem levels_cases (h : v.levels ≠ []) :
    (∃ children, v.clause = .and children) ∨ (∃ children, v.clause = .or children) ∨
      (∃ name nested, v.clause = .field name (.nested nested)) ∨
      (v.path ≠ [] ∧ ∃ nested, v.clause = .operator (.neq (.nested nested))) := by
  obtain ⟨path, clause⟩ := v
  match clause with
  | .and children => exact .inl ⟨children, rfl⟩
  | .or children => exact .inr (.inl ⟨children, rfl⟩)
  | .field name (.nested nested) => exact .inr (.inr (.inl ⟨name, nested, rfl⟩))
  | .operator (.neq (.nested nested)) =>
    exact .inr (.inr (.inr ⟨fun hpath => h (if_pos hpath), nested, rfl⟩))
  | .raw _ | .exists _ | .missing _ | .unsupported _ => exact absurd rfl h
  | .field _ (.literal _) | .field _ .null | .field _ (.list _) => exact absurd rfl h
  | .operator (.neq (.literal _)) | .operator (.neq .null) | .operator (.neq (.list _))
  | .operator (.inq _) | .operator (.nin _) | .operator (.gt _) | .operator (.gte _)
  | .operator (.lt _) | .operator (.lte _) | .operator (.between _ _) | .operator (.like _)
  | .operator (.nlike _) | .operator (.exists _) | .operator (.missing _) => exact absurd rfl h

/-- **A clause loses none of the levels right below it.** -/
theorem exists_pieces_of_levels (hlevel : level ∈ v.levels) (hu : u ∈ level)
    (h : piece ∈ u.pieces) : ∃ text ∈ v.pieces, StandsIn piece text := by
  obtain ⟨text, htext, hstands⟩ := exists_levelTexts hlevel hu h
  have hsome : v.levelTexts ≠ [] := List.ne_nil_of_mem htext
  have hjoined (separator : String) : StandsIn piece (separator.intercalate v.levelTexts) :=
    hstands.trans (.intercalate htext separator)
  have henclosed (separator : String) :
      StandsIn piece ("(" ++ separator.intercalate v.levelTexts ++ ")") :=
    (hjoined separator).trans (.between "(" _ ")")
  have hcomposed := v.composed
  rcases levels_cases (List.ne_nil_of_mem hlevel) with
    ⟨children, hclause⟩ | ⟨children, hclause⟩ | ⟨name, nested, hclause⟩ | ⟨hpath, nested, hclause⟩
  · by_cases hpath : v.path = []
    · rw [hcomposed.flat children hpath hclause]
      exact ⟨piece, List.mem_flatMap.2 ⟨u, List.mem_flatten.2 ⟨level, hlevel, hu⟩, h⟩, .refl _⟩
    · rw [hcomposed.conjunction children hpath hclause, if_neg hsome]
      exact ⟨_, List.mem_singleton_self _, henclosed " AND "⟩
  · rw [hcomposed.disjunction children hclause, if_neg hsome]
    split
    · exact ⟨_, List.mem_singleton_self _, henclosed " OR "⟩
    · exact ⟨_, List.mem_singleton_self _, hjoined " OR "⟩
  · rw [hcomposed.nested name nested hclause]
    exact ⟨text, htext, hstands⟩
  · rw [hcomposed.negated nested hpath hclause]
    exact ⟨_, List.mem_map_of_mem htext, hstands.trans (.between "-(" _ ")")⟩

/-- A clause has more below it than the clauses of its levels have below them. -/
theorem length_below_lt (hlevel : level ∈ v.levels) (hu : u ∈ level) :
    u.below.length < v.below.length := by
  have hmem : u :: u.below ∈ v.levels.flatten.map fun u => u :: u.below :=
    List.mem_map_of_mem (List.mem_flatten.2 ⟨level, hlevel, hu⟩)
  rw [v.composed.walk, List.flatMap_def]
  exact (List.sublist_flatten_of_mem hmem).length_le

/-- **Whatever the walk meets below a clause stands in a piece of the clause.** -/
theorem exists_pieces_of_below (v : Visit) :
    ∀ w ∈ v.below, ∀ piece ∈ w.pieces, ∃ text ∈ v.pieces, StandsIn piece text := by
  intro w hw piece h
  -- the walk first goes to a clause of a level right below, and from there on further down
  rw [v.composed.walk] at hw
  obtain ⟨u, hu, hw⟩ := List.mem_flatMap.1 hw
  obtain ⟨level, hlevel, hu⟩ := List.mem_flatten.1 hu
  rcases List.mem_cons.1 hw with rfl | hw
  · exact exists_pieces_of_levels hlevel hu h
  · obtain ⟨text, htext, hstands⟩ := exists_pieces_of_below u w hw piece h
    obtain ⟨outer, houter, houterStands⟩ := exists_pieces_of_levels hlevel hu htext
    exact ⟨outer, houter, hstands.trans houterStands⟩
termination_by v.below.length
decreasing_by exact length_below_lt hlevel hu

/-- **Whatever the walk meets stands in the query.** -/
theorem standsIn_query {filter : Filter} (hv : v ∈ Filter.visits [] filter)
    (h : piece ∈ v.pieces) : StandsIn piece filter.compile.query := by
  have hlevel : ∀ u ∈ filter.map (Visit.mk []), ∀ text ∈ u.pieces,
      StandsIn text filter.compile.query := by
    intro u hu text htext
    have hpieces : text ∈ Filter.pieces (dottedPath? []) filter := by
      rw [Filter.pieces_eq_visits]
      exact List.mem_flatMap.2 ⟨u, hu, htext⟩
    exact .intercalate hpieces " AND "
  rw [Filter.visits_eq_flatMap] at hv
  obtain ⟨u, hu, hv⟩ := List.mem_flatMap.1 hv
  rcases List.mem_cons.1 hv with rfl | hv
  · exact hlevel v hu piece h
  · obtain ⟨text, htext, hstands⟩ := exists_pieces_of_below u v hv piece h
    exact hstands.trans (hlevel u hu text htext)

end Visit

/-- **Nothing is lost without a note.** What a compiled filter lists as dropped are the
notes on the clauses that a walk of it meets, each once and in its order, and a clause
with a note has no text. The text of a level is that of its clauses, and any clause
without a note is exactly one piece of it, which is not empty; except that a conjunction
outside any field is the pieces of its children, and that a clause is none if it is
silent: an empty list, blank query text, or a group, a nested object or an inequality all
of whose parts are none.

A group, a nested object and an inequality are written out of the texts of the levels in
them. So a piece is not lost further out either: whatever the walk meets below a clause
stands in what this clause is for its level, and whatever it meets stands in the query,
with the terms that it is written with. -/
theorem compile_notes_losses (filter : Filter) :
    filter.compile.dropped = (Filter.visits [] filter).filterMap Visit.note? ∧
      filter.compile.query = " AND ".intercalate (Filter.pieces none filter) ∧
      (∀ path level, Filter.pieces (dottedPath? path) level =
        level.flatMap fun clause => Visit.pieces ⟨path, clause⟩) ∧
      (∀ v : Visit, v.Composed) ∧
      ∀ v ∈ Filter.visits [] filter,
        (v.note? ≠ none → v.pieces = []) ∧
        (v.note? = none →
          (∃ children, v.path = [] ∧ v.clause = .and children ∧
            v.pieces = children.flatMap (Filter.pieces none)) ∨
          (v.Silent ∧ v.pieces = []) ∨ (¬ v.Silent ∧ ∃ text ≠ "", v.pieces = [text])) ∧
        (∀ w ∈ v.below, ∀ piece ∈ w.pieces, ∃ text ∈ v.pieces, StandsIn piece text) ∧
        ∀ piece ∈ v.pieces, Mentions piece v.terms ∧ StandsIn piece filter.compile.query := by
  refine ⟨Filter.dropped_visits [] filter, rfl, fun path level => Filter.pieces_eq_flatMap _ level,
    Visit.composed, fun v hv => ⟨fun hnote => ?_, fun _ => v.pieces_cases,
      Visit.exists_pieces_of_below v,
      fun piece hpiece => ⟨Clause.mentions_terms _ v.clause piece hpiece,
        Visit.standsIn_query hv hpiece⟩⟩⟩
  obtain ⟨note, hnote⟩ := Option.ne_none_iff_exists'.1 hnote
  exact Visit.pieces_of_note hnote

/-- An object with three clauses, one of which has no text. -/
def addressClause : Clause :=
  .field "address" (.nested [.field "city" (.literal (.string "Paris")), .unsupported "near",
    .field "floor" (.literal (.number (.int 2)))])

/-- A filter with losses at every depth: below a field, in an inequality of a field, and
in a conjunction outside any field, where an inequality hides another. One of its branches
has two clauses. -/
def lossyFilter : Filter :=
  [.and [[.operator (.neq (.nested [.unsupported "hidden"]))], [.raw " "]],
    .field "name" (.nested [.unsupported "ilike",
      .operator (.neq (.nested [.unsupported "regexp", .operator (.gt (.number (.int 3)))])),
      .field "first" (.nested [.unsupported "near"])]),
    addressClause,
    .or [[.field "tags" (.list [])], [.exists "email", .missing "blocked"], [.exists "phone"]]]

/-- The notes on it and its text; what its inequality inside a field is for its level; and
that a clause of its object is in the text of the object, and one of a branch in the
query. -/
theorem compile_notes_losses_lossy :
    lossyFilter.compile.dropped =
        [⟨"neq", none, .missingField⟩, ⟨"ilike", some "name", .unsupportedOperator⟩,
          ⟨"regexp", some "name", .unsupportedOperator⟩,
          ⟨"near", some "name.first", .unsupportedOperator⟩,
          ⟨"near", some "address", .unsupportedOperator⟩] ∧
      lossyFilter.compile.query = "-(name:\x7b3 TO *]) AND " ++
        "(address.city:\"Paris\" AND address.floor:2) AND " ++
        "((_exists_:email AND _missing_:blocked) OR _exists_:phone)" ∧
      (∃ text ≠ "", Visit.pieces ⟨["name"], .operator (.neq (.nested
        [.unsupported "regexp", .operator (.gt (.number (.int 3)))]))⟩ = [text]) ∧
      Visit.pieces ⟨[], addressClause⟩ = ["(address.city:\"Paris\" AND address.floor:2)"] ∧
      StandsIn "address.floor:2" "(address.city:\"Paris\" AND address.floor:2)" ∧
      StandsIn "_missing_:blocked" lossyFilter.compile.query := by
  obtain ⟨hdropped, hquery, -, hcomposed, hvisits⟩ := compile_notes_losses lossyFilter
  have hvisit := hvisits ⟨["name"], .operator (.neq (.nested
    [.unsupported "regexp", .operator (.gt (.number (.int 3)))]))⟩
    (by simp [lossyFilter, Filter.visits, Filter.visitsAll, Clause.visitsBelow, Operand.visits,
      Operator.visits])
  have haddress := hvisits ⟨[], addressClause⟩ (by simp [lossyFilter, Filter.visits])
  have hblocked := hvisits ⟨[], .missing "blocked"⟩
    (by simp [lossyFilter, Filter.visits, Filter.visitsAll, Clause.visitsBelow])
  have htexts : Visit.pieces ⟨[], addressClause⟩ =
      ["(address.city:\"Paris\" AND address.floor:2)"] :=
    ((hcomposed _).nested "address" _ rfl).trans (by decide +kernel)
  refine ⟨hdropped.trans (by decide +kernel), hquery.trans (by decide +kernel), ?_, htexts, ?_,
    (hblocked.2.2.2 _ (List.mem_singleton_self _)).2⟩
  · rcases hvisit.2.1 rfl with ⟨_, hpath, -⟩ | ⟨hsilent, -⟩ | ⟨-, hstated⟩
    · exact absurd hpath (List.cons_ne_nil _ _)
    · exact absurd hsilent (by simp [Visit.Silent, Clause.Silent, Operator.Silent, Operand.Silent,
        Filter.Silent, dottedPath?])
    · exact hstated
  · obtain ⟨text, htext, hstands⟩ := haddress.2.2.1
      ⟨["address"], .field "floor" (.literal (.number (.int 2)))⟩
      (by simp [Visit.below, addressClause, Clause.visitsBelow, Operand.visits, Filter.visits])
      "address.floor:2" (by decide +kernel)
    rw [htexts] at htext
    rwa [List.mem_singleton.1 htext] at hstands

end UserDirectory
