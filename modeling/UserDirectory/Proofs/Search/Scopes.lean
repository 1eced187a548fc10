import UserDirectory.Proofs.Connector.Accepted
import UserDirectory.Proofs.Filter.Losses
import UserDirectory.Proofs.Search.Layers

/-!
# What becomes of a scope

A configuration is accepted when its scopes are filters, not when the query language
can state them. A scope may ask for what has no counterpart there; it then says less
in the query than it was meant to, or nothing (`scope_dropped_of_unsupported`).

Nothing else takes a clause away from a scope. What is dropped from it are its own
inexpressible operators, whatever the caller asks; and it is without a text only if
it is silent by itself (`scopes_contribute`).
-/

namespace UserDirectory

/-- **The scopes that a configuration states** for the searches of a model: the
connector's and the model's. -/
def ConnectorConfig.searchScopes (c : ConnectorConfig) (model : String) : List Json :=
  c.queryScope.condition.toList ++
    ((Table.get? c.models model).bind (·.queryScope.condition)).toList

namespace ConnectorSettings

variable {c : ConnectorConfig} {s : ConnectorSettings} {model : String} {condition : Option Json}

/-- The condition on the connection, if searches keep to one. -/
def connectionScope (s : ConnectorSettings) (model : String) : List Json :=
  if s.scopesConnection model then
    [singleCondition "connection" (.str (s.connectionOf model))]
  else []

theorem layers_of_ofConfig (h : ofConfig c = .ok s) :
    s.layers model condition =
      condition.toList ++ (c.searchScopes model ++ s.connectionScope model) := by
  obtain ⟨-, -, hscope, hmodels⟩ := of_ofConfig h
  have hmodel : (s.model? model).bind (·.queryScope)
      = (Table.get? c.models model).bind (·.queryScope.condition) := by
    rw [model?, hmodels, Table.get?_mapValues, Option.bind_map]
    rfl
  rw [layers_eq, scopeConditions, hscope, hmodel]
  rfl

/-- **What scopes contribute to a query.** Under an accepted configuration, a search
reads the caller's condition, each scope and the condition on the connection as
filters on their own; its query joins the pieces of all their clauses, and what it
drops are the dropped parts of all their clauses, in order. Nothing of a scope's
clause is dropped if and only if every operator in it is expressible and stands in a
field; the clause has a piece in the query unless it is silent; and with a scope that
is not silent there is a query. -/
theorem scopes_contribute (h : ofConfig c = .ok s) {r : Option CompiledQuery}
    (hr : s.compileWhere model condition = .ok r) :
    ∃ own scopes pin, s.Reads model condition.toList own ∧
      s.Reads model (c.searchScopes model) scopes ∧
      s.Reads model (s.connectionScope model) pin ∧
      (∀ q ∈ r, q.query = Query.conjoin
          ((own ++ (scopes ++ pin)).flatten.flatMap (Clause.pieces none)) ∧
        q.dropped = (own ++ (scopes ++ pin)).flatten.flatMap (Clause.dropped none)) ∧
      ∀ k ∈ scopes, (∀ clause ∈ k, (clause.dropped none = [] ↔ clause.Expressible false) ∧
          (clause.pieces none = [] ↔ clause.Silent false)) ∧
        (¬Filter.Silent false k → ∃ q, r = some q) := by
  obtain ⟨fs, hfs, rfl⟩ := exists_filters_of_compileWhere hr
  rw [layers_of_ofConfig h] at hfs
  obtain ⟨own, rest, hown, hrest, rfl⟩ := exists_append_of_forall₂ hfs
  obtain ⟨scopes, pin, hscopes, hpin, rfl⟩ := exists_append_of_forall₂ hrest
  refine ⟨own, scopes, pin, hown, hscopes, hpin, fun q hq => ?_, fun k hk =>
    ⟨fun clause _ => ⟨Clause.dropped_eq_nil_iff none clause, Clause.pieces_eq_nil_iff none clause⟩,
      fun hloud => ?_⟩⟩
  · obtain ⟨hq, -⟩ := Option.filter_eq_some_iff.1 hq
    obtain rfl := Option.some.inj hq
    rw [← Filter.pieces_eq_flatMap, ← Filter.dropped_eq_flatMap]
    exact ⟨rfl, rfl⟩
  · -- a scope that is not silent has a piece, and it is one of the query's
    have hne : Filter.pieces none (own ++ (scopes ++ pin)).flatten ≠ [] := by
      rw [Filter.pieces_flatten, Ne, List.flatten_eq_nil_iff]
      intro hall
      have hmem : Filter.pieces none k ∈ (own ++ (scopes ++ pin)).map (Filter.pieces none) :=
        List.mem_map_of_mem (List.mem_append_right _ (List.mem_append_left _ hk))
      exact hloud ((Filter.pieces_eq_nil_iff none k).1 (hall _ hmem))
    refine ⟨Filter.compile (own ++ (scopes ++ pin)).flatten,
      Option.filter_eq_some_iff.2 ⟨rfl, ?_⟩⟩
    rw [Bool.not_eq_true', Bool.eq_false_iff, Ne, Filter.compile_isEmpty_iff]
    exact hne

/-! ## A scope that says less -/

/-- A configuration with a scope and no mapping. -/
def scopedConfig (scope : Json) : ConnectorConfig where
  domain := "example.org"
  clientId := "client"
  clientSecret := "secret"
  connection := "Users"
  serializeMapping := some .empty
  queryScope := { condition := some scope }

/-- Its settings. -/
def scopedSettings (scope : Json) : ConnectorSettings where
  domain := "example.org"
  clientId := "client"
  clientSecret := "secret"
  connection := "Users"
  searchEngine := .v2
  connectionQueryScope := true
  tokenLifetime := 3600
  scopes := TokenScopes.full.merge .empty
  queryScope := some scope
  sources := {}
  outboundAttributes := defaultOutboundAttributes
  dateFields := defaultDateFields
  mapper := { connector := { serialize := .empty, normalize := .empty }, models := [] }
  models := []

/-- The name matches a pattern, in either case: an operator without a counterpart. -/
def patternScope : Json := .obj [("name", .obj [("ilike", .str "jo%")])]

/-- **An accepted scope may be lost entirely**: it says nothing in the query, and its
only clause is dropped. -/
theorem scope_dropped_of_unsupported :
    let lost : List DroppedClause := [⟨"ilike", some "name", .unsupportedOperator⟩]
    ofConfig (scopedConfig patternScope) = .ok (scopedSettings patternScope) ∧
      (scopedConfig patternScope).searchScopes "user" = [patternScope] ∧
      (scopedSettings patternScope).compileLayer "user" patternScope = .ok ⟨"", lost⟩ ∧
      (scopedSettings patternScope).compileWhere "user" none =
        .ok (some ⟨"identities.connection:\"Users\"", lost⟩) :=
  ⟨rfl, rfl, by decide +kernel, by decide +kernel⟩

/-- A scope of which one clause is lost and one is not. -/
def halfScope : Json := .obj [("blocked", .bool false), ("name", .obj [("ilike", .str "jo%")])]

theorem scopes_contribute_halfScope :
    let caller : Json := .obj [("plan", .str "pro")]
    let q : CompiledQuery := {
      query := "plan:\"pro\" AND blocked:false AND identities.connection:\"Users\""
      dropped := [⟨"ilike", some "name", .unsupportedOperator⟩] }
    ofConfig (scopedConfig halfScope) = .ok (scopedSettings halfScope) ∧
      (scopedSettings halfScope).compileWhere "user" (some caller) = .ok (some q) ∧
      ∃ own scopes pin, (scopedSettings halfScope).Reads "user" [caller] own ∧
        (scopedSettings halfScope).Reads "user" [halfScope] scopes ∧
        (scopedSettings halfScope).Reads "user"
          ((scopedSettings halfScope).connectionScope "user") pin ∧
        (q.query = Query.conjoin
            ((own ++ (scopes ++ pin)).flatten.flatMap (Clause.pieces none)) ∧
          q.dropped = (own ++ (scopes ++ pin)).flatten.flatMap (Clause.dropped none)) ∧
        ∀ k ∈ scopes, ∀ clause ∈ k,
          (clause.dropped none = [] ↔ clause.Expressible false) ∧
            (clause.pieces none = [] ↔ clause.Silent false) := by
  intro caller q
  have h : ofConfig (scopedConfig halfScope) = .ok (scopedSettings halfScope) := rfl
  have hr : (scopedSettings halfScope).compileWhere "user" (some caller) = .ok (some q) := by
    decide +kernel
  obtain ⟨own, scopes, pin, hown, hscopes, hpin, hq, hk⟩ := scopes_contribute h hr
  exact ⟨h, hr, own, scopes, pin, hown, hscopes, hpin, hq q rfl, fun k hk' => (hk k hk').1⟩

end ConnectorSettings

end UserDirectory
