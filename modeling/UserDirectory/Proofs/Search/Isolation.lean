import UserDirectory.Proofs.Connector.Accepted
import UserDirectory.Proofs.Filter.Names
import UserDirectory.Proofs.Mapping.Names
import UserDirectory.Proofs.Query.Prefix
import UserDirectory.Proofs.Search.Layers

/-!
# Tenants kept apart

A search that keeps to a connection is narrowed by a condition on it, whose clause
comes last in the query. It keeps the tenants apart if it is a conjunct of the
whole query, for then no record of another connection can match.

Whether it is one depends on the caller. Values are quoted and escaped, but the
names of fields, and the fields that tests of existence name, reach the query as
they are, and a name may hold query syntax: the condition `a:1 OR b` equals `2` is
the query `a:1 OR b:2`, and behind it the clause on the connection belongs to the
second alternative alone (`not_isolated_of_syntax_in_name`). What can be said is
said by `tenant_enforced_iff`: the clause is a conjunct of the whole query exactly
when the caller's own query, compiled alone, is empty or reads as one group; and
this is always so when the caller's keys are plain.
-/

namespace UserDirectory

open Query (Atom Conjunct Formula PlainName Level)

namespace Query

/-- **The clause is a conjunct of the whole query**, `AND` binding tighter than
`OR`. -/
def Enforces (text : String) (a : Atom) : Prop :=
  ∃ f, read? .and text = some f ∧ .atom a ∈ f

/-- **A clause that a query enforces** holds of every record that the query
matches. -/
theorem Enforces.of_holds {text : String} {a : Atom} (h : Enforces text a) {f : Formula}
    (hf : read? .and text = some f) {v : Atom → Prop} (hv : Formula.Holds v f) : v a := by
  obtain ⟨g, hg, hmem⟩ := h
  obtain rfl : f = g := Option.some.inj (hf.symm.trans hg)
  exact hv.of_mem hmem

/-- A level enforces the clauses that are conjuncts of it. -/
theorem Level.enforces {ts : List String} {f : Formula} (h : Level .and ts f) {a : Atom}
    (ha : .atom a ∈ f) : Enforces (conjoin ts) a := by
  obtain ⟨fs, hfs, -, rfl⟩ := h
  exact ⟨fs.flatten, read?_conjoin hfs, ha⟩

/-- **A level behind a text** enforces its clauses exactly when the text is a query
of one group. -/
theorem Level.enforces_append_iff {ts : List String} {f : Formula} (h : Level .and ts f) {a : Atom}
    (ha : .atom a ∈ f) (text : String) :
    Enforces (text ++ " AND " ++ conjoin ts) a ↔ ∃ g, groups? .and text = some [g] := by
  have hts : ts ≠ [] := h.ne_nil (List.ne_nil_of_mem ha)
  obtain ⟨fs, hfs, -, rfl⟩ := h
  exact exists_read?_append_iff hfs hts ha

/-- **A filter with a level behind it** enforces the level's clauses exactly when its
own query is empty or of one group. -/
theorem Level.enforces_compile_iff {rest : Filter} {f : Formula}
    (h : Level .and (Filter.pieces none rest) f) {a : Atom} (ha : .atom a ∈ f) (own : Filter) :
    Enforces (Filter.compile (own ++ rest)).query a ↔
      own.compile.query = "" ∨ ∃ g, groups? .and own.compile.query = some [g] := by
  show Enforces (conjoin (Filter.pieces none (own ++ rest))) a ↔ _
  rw [Filter.pieces_append]
  by_cases hnil : Filter.pieces none own = []
  · -- without a text of its own there is only the level
    rw [hnil, List.nil_append]
    exact iff_of_true (h.enforces ha) (.inl (own.query_eq_empty_iff.2 hnil))
  · have hown : own.compile.query ≠ "" := mt own.query_eq_empty_iff.1 hnil
    rw [conjoin_append hnil (h.ne_nil (List.ne_nil_of_mem ha)), or_iff_right hown]
    exact h.enforces_append_iff ha own.compile.query

end Query

/-! ## The condition on the connection -/

/-- **A configuration with plain names**: in the tables, and in the search scopes,
which hold no query text either. -/
structure ConnectorConfig.PlainNames (c : ConnectorConfig) : Prop where
  mappings : ∀ m ∈ c.mappings, m.Plain
  scopes : ∀ o ∈ c.queryScopes, ∀ v ∈ o.2.condition, v.PlainKeys

/-- **Searches of the model keep to its connection**, by the directory's own name for
it, under a configuration with plain names. -/
structure ConnectorSettings.Isolates (c : ConnectorConfig) (s : ConnectorSettings)
    (model : String) : Prop where
  accepted : ofConfig c = .ok s
  names : c.PlainNames
  unmapped : (s.mapper.table model .serialize).get? "identities.connection" = none
  keeps : s.scopesConnection model = true

namespace ConnectorSettings

variable {c : ConnectorConfig} {s : ConnectorSettings} {model : String}

/-- The clause on the connection of a model. -/
def tenantAtom (s : ConnectorSettings) (model : String) : Atom :=
  .equals "identities.connection" (.phrase (s.connectionOf model))

/-- Plain tables rename plain keys to plain keys. -/
theorem Isolates.plainName_remoteKey (h : Isolates c s model) (key : String) (v : Json)
    (hkey : PlainName key) : PlainName (s.remoteKey model key v) := by
  obtain ⟨-, hmapper, -⟩ := of_ofConfig h.accepted
  have htable : (s.mapper.table model .serialize).Plain :=
    ConnectorConfig.table_of_mappings FieldMapping.kept_plain FieldMapping.plain_builtin
      h.names.mappings hmapper model .serialize
  refine htable.apply ?_
  -- what the aliases stand for is plain
  unfold searchAlias
  split
  · split
    · split <;> decide
    · decide
  · split
    · decide
    · exact hkey

/-- **The condition on the connection** is read as the clause on it. -/
theorem Isolates.readLayer_connection (h : Isolates c s model) :
    s.readLayer model (singleCondition "connection" (.str (s.connectionOf model))) =
      .ok [.field "identities.connection" (.literal (.string (s.connectionOf model)))] := by
  have hkey : s.remoteKey model "connection" (.str (s.connectionOf model))
      = "identities.connection" := by
    show (s.mapper.table model .serialize).apply "identities.connection" = _
    rw [FieldMapping.apply, h.unmapped]
    rfl
  have hrename : renameCondition (s.remoteKey model)
      (singleCondition "connection" (.str (s.connectionOf model)))
      = .obj [("identities.connection", .str (s.connectionOf model))] := by
    show Json.obj [(s.remoteKey model "connection" (.str (s.connectionOf model)),
      .str (s.connectionOf model))] = _
    rw [hkey]
  rw [readLayer, hrename]
  rfl

/-- A layer with plain keys is read as a plain filter. -/
theorem Isolates.plain_of_readLayer (h : Isolates c s model) {v : Json} (hv : v.PlainKeys)
    {f : Filter} (hf : s.readLayer model v = .ok f) : Filter.Plain f :=
  Filter.plain_of_ofJson (Json.PlainKeys.renameCondition h.plainName_remoteKey v hv) hf

/-- All that narrows a search has plain keys. -/
theorem Isolates.plainKeys_scopeConditions (h : Isolates c s model) {v : Json}
    (hv : v ∈ s.scopeConditions model) : v.PlainKeys := by
  rcases mem_scopeConditions h.accepted hv with ⟨o, ho, hcond⟩ | rfl
  · exact h.names.scopes o ho v hcond
  · have hname : PlainName "connection" := by decide
    exact PlainEntry.singleCondition (e := ("connection", .str _)) ⟨hname.plainKey _, trivial⟩

/-! ## The clause in the query -/

/-- **What narrows a search is a level of its own**, and the clause on the connection
is one of its conjuncts. -/
theorem Isolates.exists_level (h : Isolates c s model) {gs : List Filter}
    (hgs : s.Reads model (s.scopeConditions model) gs) :
    ∃ f, Level .and (Filter.pieces none gs.flatten) f ∧ .atom (s.tenantAtom model) ∈ f := by
  have hplain : Filter.Plain gs.flatten := by
    refine Filter.plain_iff.2 fun clause hclause => ?_
    obtain ⟨g, hg, hclause⟩ := List.mem_flatten.1 hclause
    obtain ⟨layer, hlayer, hread⟩ := exists_left_of_mem hgs hg
    exact Filter.plain_iff.1
      (h.plain_of_readLayer (h.plainKeys_scopeConditions hlayer) hread) clause hclause
  refine ⟨_, Query.level_filter Query.PlainScope.none gs.flatten hplain, ?_⟩
  have hmem : singleCondition "connection" (.str (s.connectionOf model))
      ∈ s.scopeConditions model := by
    rw [scopeConditions, if_pos h.keeps]
    exact List.mem_append_right _ (List.mem_singleton.2 rfl)
  obtain ⟨g, hg, hread⟩ := exists_right_of_mem hgs hmem
  obtain rfl := Except.ok.inj (hread.symm.trans h.readLayer_connection)
  exact Filter.mem_formula_iff.2
    ⟨_, List.mem_flatten.2 ⟨_, hg, List.mem_singleton.2 rfl⟩, List.mem_singleton.2 rfl⟩

/-- **When tenants are kept apart.** Under a configuration with plain names that
does not map the name of the connection, every search that keeps to a connection
has a query, and the clause on the connection is a conjunct of the whole query if
and only if the caller's own query, compiled alone, is empty or reads as one group:
no `OR` outside parentheses, and nothing left open. This holds whenever the caller's
keys are plain. -/
theorem tenant_enforced_iff (h : Isolates c s model) {v : Json} {r : Option CompiledQuery}
    (hr : s.compileWhere model (some v) = .ok r) :
    ∃ q p, r = some q ∧ s.compileLayer model v = .ok p ∧
      (Query.Enforces q.query (s.tenantAtom model) ↔
        p.query = "" ∨ ∃ f, Query.groups? .and p.query = some [f]) ∧
      (v.PlainKeys → Query.Enforces q.query (s.tenantAtom model)) := by
  obtain ⟨fs, hfs, rfl⟩ := exists_filters_of_compileWhere hr
  rw [layers_eq] at hfs
  cases hfs with
  | @cons _ g _ gs hg hgs =>
  obtain ⟨f, hlevel, hmem⟩ := h.exists_level hgs
  have hstated : (Filter.compile (g :: gs).flatten).isEmpty = false := by
    rw [Bool.eq_false_iff, Ne, Filter.compile_isEmpty_iff, List.flatten_cons,
      Filter.pieces_append]
    exact List.append_ne_nil_of_right_ne_nil _ (hlevel.ne_nil (List.ne_nil_of_mem hmem))
  refine ⟨Filter.compile (g :: gs).flatten, g.compile, ?_, map_eq_ok_iff.2 ⟨g, hg, rfl⟩,
    hlevel.enforces_compile_iff hmem g, fun hv => ?_⟩
  · rw [Option.filter_some, hstated]
    rfl
  · -- plain keys make the caller's filter a level, too
    have hown : Level .and (Filter.pieces none g) (Filter.formula none g) :=
      Query.level_filter Query.PlainScope.none g (h.plain_of_readLayer hv hg)
    show Query.Enforces (Query.conjoin (Filter.pieces none (g ++ gs.flatten))) _
    rw [Filter.pieces_append]
    exact (hown.append hlevel).enforces (List.mem_append_right _ hmem)

/-! ## Both sides of the condition -/

/-- A configuration with one mapping and one scope, all of it in plain names. -/
def plainConfig : ConnectorConfig where
  domain := "example.org"
  clientId := "client"
  clientSecret := "secret"
  connection := "Users"
  serializeMapping := some (.ofList [("givenName", "given_name")])
  queryScope := { condition := some (.obj [("blocked", .bool false)]) }

/-- Its settings. -/
def plainSettings : ConnectorSettings where
  domain := "example.org"
  clientId := "client"
  clientSecret := "secret"
  connection := "Users"
  searchEngine := .v2
  connectionQueryScope := true
  tokenLifetime := 3600
  scopes := TokenScopes.full.merge .empty
  queryScope := some (.obj [("blocked", .bool false)])
  sources := {}
  outboundAttributes := defaultOutboundAttributes
  dateFields := defaultDateFields
  mapper := { connector := { serialize := .ofList [("givenName", "given_name")],
                             normalize := .ofList [("given_name", "givenName")] }, models := [] }
  models := []

theorem isolates_plainSettings : Isolates plainConfig plainSettings "user" where
  accepted := rfl
  names := by
    refine ⟨by decide +kernel, fun o ho v hv => ?_⟩
    obtain rfl : o = ("connector", plainConfig.queryScope) := List.mem_singleton.1 ho
    obtain rfl := Option.some.inj hv
    refine Json.plainKeys_obj.2 fun e he => ?_
    obtain rfl := List.mem_singleton.1 he
    exact ⟨by decide +kernel, trivial⟩
  unmapped := by decide +kernel
  keeps := by decide +kernel

/-- A condition without query text whose only key holds some. -/
def syntaxInName : Json := .obj [("a:1 OR b", .num (.int 2))]

/-- **Syntax in a name takes a search out of its connection**: the clause on the
connection narrows the second alternative only. -/
theorem not_isolated_of_syntax_in_name :
    let text := "a:1 OR b:2 AND blocked:false AND identities.connection:\"Users\""
    Isolates plainConfig plainSettings "user" ∧
      (syntaxInName.AllEntries fun key _ => key ≠ "$where" ∧ key ≠ "$search") ∧
      plainSettings.compileWhere "user" (some syntaxInName) = .ok (some ⟨text, []⟩) ∧
      ¬Query.Enforces text (plainSettings.tenantAtom "user") := by
  intro text
  refine ⟨isolates_plainSettings, ⟨⟨by decide, trivial⟩, trivial⟩, by decide +kernel, ?_⟩
  rintro ⟨f, hf, hmem⟩
  -- two groups: the whole query is a disjunction
  have hlen : (Query.groups? .and text).map List.length = some 2 := by decide +kernel
  obtain ⟨gs, hgs, hlen⟩ := Option.map_eq_some_iff.1 hlen
  rw [Query.read?_of_two_le hgs (Nat.le_of_eq hlen.symm)] at hf
  obtain rfl := Option.some.inj hf
  exact Conjunct.noConfusion (List.mem_singleton.1 hmem)

/-- A name with a parenthesis and an `AND` in it stays in the connection: for all
its syntax, the caller's query is of one group. -/
theorem tenant_enforced_of_one_group :
    let caller : Json := .obj [("(a:1 OR b:1) AND c", .num (.int 2))]
    let own := "(a:1 OR b:1) AND c:2"
    let text := own ++ " AND blocked:false AND identities.connection:\"Users\""
    Isolates plainConfig plainSettings "user" ∧
      plainSettings.compileWhere "user" (some caller) = .ok (some ⟨text, []⟩) ∧
      plainSettings.compileLayer "user" caller = .ok ⟨own, []⟩ ∧
      (Query.Enforces text (plainSettings.tenantAtom "user") ↔
        own = "" ∨ ∃ f, Query.groups? .and own = some [f]) ∧
      Query.Enforces text (plainSettings.tenantAtom "user") := by
  intro caller own text
  have hr : plainSettings.compileWhere "user" (some caller) = .ok (some ⟨text, []⟩) := by
    decide +kernel
  have hown : plainSettings.compileLayer "user" caller = .ok ⟨own, []⟩ := by decide +kernel
  obtain ⟨q, p, hq, hp, hiff, -⟩ := tenant_enforced_iff isolates_plainSettings hr
  obtain rfl := Option.some.inj hq
  obtain rfl := Except.ok.inj (hown.symm.trans hp)
  have hlen : (Query.groups? .and own).map List.length = some 1 := by decide +kernel
  obtain ⟨gs, hgs, hlen⟩ := Option.map_eq_some_iff.1 hlen
  obtain ⟨f, rfl⟩ := List.length_eq_one_iff.1 hlen
  exact ⟨isolates_plainSettings, hr, hown, hiff, hiff.2 (.inr ⟨f, hgs⟩)⟩

end ConnectorSettings

end UserDirectory
