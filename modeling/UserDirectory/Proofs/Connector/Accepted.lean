import UserDirectory.Connector.Search
import UserDirectory.Proofs.Results
import UserDirectory.Proofs.Table

/-!
# Settings of an accepted configuration

What settings owe to the configuration that they come from: it has been
validated, their tables are its resolved tables, and every condition that narrows
a search is one of its scopes or the condition on the connection.
-/

namespace UserDirectory.ConnectorSettings

variable {c : ConnectorConfig} {s : ConnectorSettings}

/-- **Settings are those of a valid configuration with its resolved tables.** -/
theorem of_ofConfig (h : ofConfig c = .ok s) :
    c.validate = .ok () ∧ c.fieldMapper = .ok s.mapper ∧
      s.queryScope = c.queryScope.condition ∧
      s.models = Table.mapValues ModelSettings.ofConfig c.models := by
  obtain ⟨_, hvalid, h⟩ := bind_eq_ok_iff.1 h
  obtain ⟨mapper, hmapper, h⟩ := bind_eq_ok_iff.1 h
  obtain rfl := Except.ok.inj h
  refine ⟨hvalid, ?_, rfl, rfl⟩
  unfold ConnectorConfig.mapper at hmapper
  split at hmapper
  · next m hm => rw [hm, Except.ok.inj hmapper]
  · exact absurd hmapper nofun

/-- The scope of a model is one that the configuration states. -/
theorem mem_queryScopes_of_model (h : ofConfig c = .ok s) {model : String} {v : Json}
    (hv : (s.model? model).bind (·.queryScope) = some v) :
    ∃ o ∈ c.queryScopes, o.2.condition = some v := by
  obtain ⟨-, -, -, hmodels⟩ := of_ofConfig h
  obtain ⟨own, hown, hscope⟩ := Option.bind_eq_some_iff.1 hv
  rw [model?, hmodels, Table.get?_mapValues] at hown
  obtain ⟨m, hm, rfl⟩ := Option.map_eq_some_iff.1 hown
  refine ⟨(model, m.queryScope), List.mem_cons_of_mem _ ?_, hscope⟩
  exact List.mem_map.2 ⟨(model, m), Table.mem_of_get? hm, rfl⟩

/-- **What narrows a search** is a scope of the configuration, or the condition on
the connection. -/
theorem mem_scopeConditions (h : ofConfig c = .ok s) {model : String} {v : Json}
    (hv : v ∈ s.scopeConditions model) :
    (∃ o ∈ c.queryScopes, o.2.condition = some v) ∨
      v = singleCondition "connection" (.str (s.connectionOf model)) := by
  rcases List.mem_append.1 hv with hv | hv
  · rcases List.mem_append.1 hv with hv | hv
    · obtain ⟨-, -, hscope, -⟩ := of_ofConfig h
      exact .inl ⟨_, List.mem_cons_self, hscope ▸ Option.mem_toList.1 hv⟩
    · exact .inl (mem_queryScopes_of_model h (Option.mem_toList.1 hv))
  · split at hv
    · exact .inr (List.mem_singleton.1 hv)
    · exact absurd hv List.not_mem_nil

/-- **Every scope is a filter** in a valid configuration. -/
theorem exists_filter_of_validate (h : c.validate = .ok ()) {owner : String}
    {scope : SearchBundle} (hmem : (owner, scope) ∈ c.queryScopes) {v : Json}
    (hv : scope.condition = some v) : ∃ f, Filter.ofJson v = .ok f := by
  obtain ⟨_, -, h⟩ := bind_eq_ok_iff.1 h
  split at h
  · obtain ⟨_, hrefused, -⟩ := bind_eq_ok_iff.1 h
    exact absurd hrefused nofun
  · obtain ⟨_, -, hscopes⟩ := bind_eq_ok_iff.1 h
    have hscope := forall_of_forM hscopes (owner, scope) hmem
    cases hread : Filter.ofJson v with
    | ok f => exact ⟨f, rfl⟩
    | error e => simp [hv, hread] at hscope

/-- **What narrows a search is a filter** on its own. -/
theorem exists_filter_of_scope (h : ofConfig c = .ok s) {model : String} {v : Json}
    (hv : v ∈ s.scopeConditions model) : ∃ f, Filter.ofJson v = .ok f := by
  rcases mem_scopeConditions h hv with ⟨o, ho, hcondition⟩ | rfl
  · exact exists_filter_of_validate (of_ofConfig h).1 ho hcondition
  · exact ⟨_, rfl⟩

end UserDirectory.ConnectorSettings
