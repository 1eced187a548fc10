import UserDirectory.Config.Basic
import UserDirectory.Proofs.Results
import UserDirectory.Proofs.Table

/-!
# Resolved tables

Resolving starts from the tables that the scopes state and does two things with
them: it lays one table over another, and it inverts a table. Whatever both of
these keep is therefore true of every resolved table as soon as it is true of
every stated one (`FieldMapper.table_of_stated`), in either direction and for
every model.
-/

namespace UserDirectory

/-- **A property that resolving keeps.** -/
structure FieldMapping.Kept (P : FieldMapping → Prop) : Prop where
  empty : P .empty
  extend : ∀ {m n : FieldMapping}, P m → P n → P (m.extend n)
  invert : ∀ {m n : FieldMapping}, P m → m.invert = .ok n → P n

/-- Every table that the scope states has the property. -/
def MappingScope.AllStated (P : FieldMapping → Prop) (s : MappingScope) : Prop :=
  ∀ d, ∀ m ∈ s.stated d, P m

/-- **The tables of a model** are resolved from the connector's and its own, or from the
connector's alone. -/
theorem FieldMapper.exists_resolve {connector : MappingScope} {models : Table MappingScope}
    {mapper : FieldMapper} (h : resolve connector models = .ok mapper) (model : String) :
    ∃ scope : Option MappingScope, (∀ s ∈ scope, ∃ e ∈ models, e.2 = s) ∧
      ResolvedMappings.resolve connector scope = .ok (mapper.tables model) := by
  obtain ⟨resolved, hresolved, h⟩ := bind_eq_ok_iff.1 h
  obtain ⟨r, hr, h⟩ := bind_eq_ok_iff.1 h
  obtain rfl := Except.ok.inj h
  unfold FieldMapper.tables
  -- a model without tables of its own has the connector's
  cases hget : Table.get? resolved model with
  | none => exact ⟨none, nofun, hr⟩
  | some own =>
    obtain ⟨e, he, hown⟩ :=
      exists_left_of_mem (forall₂_of_mapM hresolved) (Table.mem_of_get? hget)
    obtain ⟨r', hr', hown⟩ := bind_eq_ok_iff.1 hown
    obtain rfl : r' = own := congrArg Prod.snd (Except.ok.inj hown)
    exact ⟨some e.2, fun s hs => ⟨e, he, Option.some.inj hs⟩, hr'⟩

section

variable {P : FieldMapping → Prop} (hP : FieldMapping.Kept P)

include hP

/-- The table of a direction is a stated one, or the inverse of one. -/
theorem MappingScope.table_of_stated {s : MappingScope} (hs : s.AllStated P) {d : Direction}
    {m : FieldMapping} (h : s.table d = .ok (some m)) : P m := by
  unfold table at h
  split at h
  · next n hn =>
    obtain rfl := Option.some.inj (Except.ok.inj h)
    exact hs d n hn
  · -- no table of its own: the one of the other direction is inverted
    split at h
    · next n hn =>
      obtain ⟨k, hk, hkm⟩ := map_eq_ok_iff.1 h
      obtain rfl := Option.some.inj hkm
      exact hP.invert (hs d.opposite n hn) hk
    · exact absurd h nofun

/-- The model's table over the connector's. -/
theorem ResolvedMappings.merged_of_stated {connector : MappingScope} (hc : connector.AllStated P)
    {model : Option MappingScope} (hm : ∀ s ∈ model, s.AllStated P) {d : Direction}
    {m : FieldMapping} (h : merged connector model d = .ok m) : P m := by
  obtain ⟨wide?, hwide, h⟩ := bind_eq_ok_iff.1 h
  have hP' : P (wide?.getD .empty) := by
    cases wide? with
    | none => exact hP.empty
    | some wide => exact MappingScope.table_of_stated hP hc hwide
  cases model with
  | none =>
    obtain rfl := Except.ok.inj h
    exact hP'
  | some scope =>
    obtain ⟨narrow?, hnarrow, h⟩ := bind_eq_ok_iff.1 h
    cases narrow? with
    | none =>
      obtain rfl := Except.ok.inj h
      exact hP'
    | some narrow =>
      obtain rfl := Except.ok.inj h
      exact hP.extend hP' (MappingScope.table_of_stated hP (hm scope rfl) hnarrow)

/-- **Both tables of a model.** -/
theorem ResolvedMappings.table_of_stated {connector : MappingScope} (hc : connector.AllStated P)
    {model : Option MappingScope} (hm : ∀ s ∈ model, s.AllStated P) {r : ResolvedMappings}
    (h : resolve connector model = .ok r) (d : Direction) : P (r.table d) := by
  obtain ⟨serialize, hser, h⟩ := bind_eq_ok_iff.1 h
  have hser' := merged_of_stated hP hc hm hser
  split at h
  · obtain ⟨normalize, hnorm, h⟩ := bind_eq_ok_iff.1 h
    obtain ⟨_, -, h⟩ := bind_eq_ok_iff.1 h
    obtain ⟨_, -, h⟩ := bind_eq_ok_iff.1 h
    obtain rfl := Except.ok.inj h
    cases d with
    | serialize => exact hser'
    | normalize => exact merged_of_stated hP hc hm hnorm
  · obtain ⟨normalize, hnorm, h⟩ := bind_eq_ok_iff.1 h
    obtain rfl := Except.ok.inj h
    cases d with
    | serialize => exact hser'
    | normalize => exact hP.invert hser' hnorm

/-- **What all stated tables have, all resolved tables have.** -/
theorem FieldMapper.table_of_stated {connector : MappingScope} (hc : connector.AllStated P)
    {models : Table MappingScope} (hm : ∀ e ∈ models, e.2.AllStated P) {mapper : FieldMapper}
    (h : resolve connector models = .ok mapper) (model : String) (d : Direction) :
    P (mapper.table model d) := by
  obtain ⟨scope, hscope, hresolve⟩ := exists_resolve h model
  refine ResolvedMappings.table_of_stated hP hc (fun s hs => ?_) hresolve d
  obtain ⟨e, he, rfl⟩ := hscope s hs
  exact hm e he

end

/-! ## The tables of a configuration -/

/-- The tables that the settings of a model state. -/
def ModelConfig.mappings (m : ModelConfig) : List FieldMapping :=
  m.mapping.toList ++ m.serializeMapping.toList ++ m.normalizeMapping.toList

/-- **The tables that a configuration states**, the connector's first. -/
def ConnectorConfig.mappings (c : ConnectorConfig) : List FieldMapping :=
  c.mapping :: (c.serializeMapping.toList ++ c.normalizeMapping.toList ++
    c.models.flatMap fun e => e.2.mappings)

section

variable {P : FieldMapping → Prop} {c : ConnectorConfig}

theorem ConnectorConfig.allStated_mappingScope (hP : FieldMapping.Kept P)
    (hbuiltin : P .builtin) (h : ∀ m ∈ c.mappings, P m) : c.mappingScope.AllStated P := by
  intro d m hm
  cases d with
  | serialize =>
    obtain rfl := Option.some.inj hm
    cases hser : c.serializeMapping with
    | none => exact hP.extend hbuiltin (h _ List.mem_cons_self)
    | some n => exact h n (by simp [mappings, hser])
  | normalize =>
    have hnorm : c.normalizeMapping = some m := hm
    exact h m (by simp [mappings, hnorm])

theorem ConnectorConfig.allStated_modelMappingScope (h : ∀ m ∈ c.mappings, P m)
    {e : String × ModelConfig} (he : e ∈ c.models) : e.2.mappingScope.AllStated P := by
  intro d m hm
  have hmem : m ∈ e.2.mappings := by
    cases d with
    | serialize =>
      rcases Option.or_eq_some_iff.1 (show e.2.serializeMapping.or e.2.mapping = some m from hm)
        with hm | ⟨-, hm⟩
      · simp [ModelConfig.mappings, hm]
      · simp [ModelConfig.mappings, hm]
    | normalize =>
      have hnorm : e.2.normalizeMapping = some m := hm
      simp [ModelConfig.mappings, hnorm]
  exact h m (List.mem_cons_of_mem _ (List.mem_append_right _ (List.mem_flatMap.2 ⟨e, he, hmem⟩)))

/-- **What the tables of a configuration have**, and the built-in one, every
resolved table has. -/
theorem ConnectorConfig.table_of_mappings (hP : FieldMapping.Kept P) (hbuiltin : P .builtin)
    (h : ∀ m ∈ c.mappings, P m) {mapper : FieldMapper} (hm : c.fieldMapper = .ok mapper)
    (model : String) (d : Direction) : P (mapper.table model d) := by
  refine FieldMapper.table_of_stated hP (allStated_mappingScope hP hbuiltin h) (fun e he => ?_) hm
    model d
  obtain ⟨e', he', rfl⟩ := List.mem_map.1 he
  exact allStated_modelMappingScope h he'

end

end UserDirectory
