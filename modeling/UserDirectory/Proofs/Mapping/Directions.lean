import Mathlib.Data.List.Nodup
import UserDirectory.Proofs.Mapping.Inverse

/-!
# Both directions of a resolved mapping

Each direction of a model is resolved on its own: the connector's table of that
direction with the model's laid over it, where a table that a scope leaves out is the
inverse of its other one. Nothing but two checks ties the directions together, namely
that both results can be inverted. They are enough.

Suppose that every scope states one direction at most, so that its two tables mirror
each other (`FieldMapping.Mirrors`). Laying one mirrored pair over another could leave
a stale entry behind: the model sends a name elsewhere, while the connector's entry
for the way back, under its old target, is not covered. But then two targets read as
one name, and the check refuses the table (`FieldMapping.Mirrors.extend`). The one
thing that the check does not see is a dropped entry, which covers a name in one
direction and is not there in the other; hence the condition on the model's table.
-/

namespace UserDirectory

namespace FieldMapping

/-! ## Live entries -/

/-- **No two live entries share a target.** -/
def TargetsDistinct (m : FieldMapping) : Prop := (m.live.map (·.2)).Nodup

instance (m : FieldMapping) : Decidable m.TargetsDistinct :=
  inferInstanceAs (Decidable (List.Nodup _))

/-- **No entry is dropped** by an empty target. -/
def Undropped (m : FieldMapping) : Prop := ∀ e ∈ m.entries, e.2 ≠ ""

instance (m : FieldMapping) : Decidable m.Undropped :=
  inferInstanceAs (Decidable (∀ e ∈ m.entries, _))

/-- **The second table is the first one read backwards**, as far as its entries are
live. -/
def Mirrors (m n : FieldMapping) : Prop :=
  ∀ name target, (target, name) ∈ n.live ↔ (name, target) ∈ m.live

theorem mem_live_iff_get? {m : FieldMapping} {name target : String} :
    (name, target) ∈ m.live ↔ m.entries.get? name = some target ∧ name ≠ "" ∧ target ≠ "" := by
  rw [mem_live_iff, m.ordered.get?_eq_some_iff]

/-- The target of a name is that of its live entry. -/
theorem get?_eq_some_iff {m : FieldMapping} {name target : String} (hname : name ≠ "") :
    m.get? name = some target ↔ (name, target) ∈ m.live := by
  rw [mem_live_iff_get?, get?, Option.filter_eq_some_iff]
  simp [hname]

/-- **A name is applied** by its live entry, or stays as it is. -/
theorem apply_eq_iff {m : FieldMapping} {name target : String} (hname : name ≠ "") :
    m.apply name = target ↔
      (name, target) ∈ m.live ∨ name = target ∧ ∀ other, (name, other) ∉ m.live := by
  simp only [← get?_eq_some_iff hname, apply]
  cases m.get? name <;> simp

/-- **An overlay reads the upper table** where it has an entry, dropped or not. -/
theorem get?_extend (m n : FieldMapping) (name : String) :
    (m.extend n).entries.get? name = (n.entries.get? name).or (m.entries.get? name) :=
  Table.get?_overlay m.entries n.ordered name

theorem mem_live_extend {m n : FieldMapping} {name target : String} :
    (name, target) ∈ (m.extend n).live ↔
      (name, target) ∈ n.live ∨ n.entries.get? name = none ∧ (name, target) ∈ m.live := by
  simp only [mem_live_iff_get?, get?_extend]
  cases n.entries.get? name with
  | none => simp
  | some other => simp

/-! ## Tables that can be inverted -/

theorem targetsDistinct_of_invert {m n : FieldMapping} (h : m.invert = .ok n) :
    m.TargetsDistinct := by
  refine m.nodup_live.map_on ?_
  rintro ⟨name, target⟩ hname ⟨name', target'⟩ hname' (rfl : target = target')
  rw [live_unique ((mem_live_invert h).2 hname) ((mem_live_invert h).2 hname')]

/-- The targets of an inverse are names of its table, each once. -/
theorem targetsDistinct_invert {m n : FieldMapping} (h : m.invert = .ok n) :
    n.TargetsDistinct := by
  refine n.nodup_live.map_on ?_
  rintro ⟨target, name⟩ htarget ⟨target', name'⟩ htarget' (rfl : name = name')
  rw [live_unique ((mem_live_invert h).1 htarget) ((mem_live_invert h).1 htarget')]

theorem TargetsDistinct.name_unique {m : FieldMapping} (h : m.TargetsDistinct)
    {name name' target : String} (hname : (name, target) ∈ m.live)
    (hname' : (name', target) ∈ m.live) : name = name' :=
  congrArg Prod.fst (List.inj_on_of_nodup_map h hname hname' rfl)

theorem undropped_empty : Undropped empty := fun _ he => absurd he List.not_mem_nil

theorem kept_undropped : Kept Undropped where
  empty := undropped_empty
  extend hm hn e he := (Table.mem_overlay he).elim (hm e) (hn e)
  invert {_ n} _ h := fun _ he =>
    (mem_live_iff_get?.1 ((get?_invert h).1 (n.ordered.get?_of_mem he))).2.1

/-! ## Mirrored tables -/

namespace Mirrors

variable {m m' n n' : FieldMapping}

theorem empty : Mirrors empty empty := fun _ _ => iff_of_false List.not_mem_nil List.not_mem_nil

theorem symm (h : m.Mirrors m') : m'.Mirrors m := fun target name => (h name target).symm

theorem of_invert (h : m.invert = .ok m') : m.Mirrors m' := fun _ _ => mem_live_invert h

/-- **No stale entry is left** on the way back: what an overlay says, its mirror image
says. -/
theorem mem_live_of_extend (hm : m.Mirrors m') (hn : n.Mirrors n') (hn' : n'.Undropped)
    (hdistinct : (m.extend n).TargetsDistinct) {name target : String}
    (h : (name, target) ∈ (m.extend n).live) : (target, name) ∈ (m'.extend n').live := by
  rcases mem_live_extend.1 h with hupper | ⟨hopen, hlower⟩
  · exact mem_live_extend.2 (.inl ((hn name target).2 hupper))
  · refine mem_live_extend.2 (.inr ⟨?_, (hm name target).2 hlower⟩)
    obtain ⟨-, -, htarget⟩ := mem_live_iff_get?.1 hlower
    rw [Option.eq_none_iff_forall_ne_some]
    intro other hother
    -- the upper table would send another name to the same target
    have hlive : (target, other) ∈ n'.live :=
      mem_live_iff_get?.2 ⟨hother, htarget, hn' _ (Table.mem_of_get? hother)⟩
    have hback : (other, target) ∈ n.live := (hn other target).1 hlive
    obtain rfl := hdistinct.name_unique h (mem_live_extend.2 (.inl hback))
    exact Option.some_ne_none _ ((mem_live_iff_get?.1 hback).1.symm.trans hopen)

/-- **Overlays of mirrored tables mirror each other**, if each can be inverted and the
upper tables drop nothing. -/
theorem extend (hm : m.Mirrors m') (hn : n.Mirrors n') (hdrop : n.Undropped)
    (hdrop' : n'.Undropped) (hdistinct : (m.extend n).TargetsDistinct)
    (hdistinct' : (m'.extend n').TargetsDistinct) : (m.extend n).Mirrors (m'.extend n') :=
  fun _ _ => ⟨mem_live_of_extend hm.symm hn.symm hdrop hdistinct',
    mem_live_of_extend hm hn hdrop' hdistinct⟩

end Mirrors

end FieldMapping

/-! ## Scopes -/

open FieldMapping

/-- **The scope states one direction at most.** -/
def MappingScope.OneSided (s : MappingScope) : Prop := s.serialize = none ∨ s.normalize = none

instance (s : MappingScope) : Decidable s.OneSided := inferInstanceAs (Decidable (_ ∨ _))

/-- The two tables of a scope that states one direction mirror each other. -/
theorem MappingScope.OneSided.mirrors {s : MappingScope} (h : s.OneSided)
    {out back : Option FieldMapping} (hout : s.table .serialize = .ok out)
    (hback : s.table .normalize = .ok back) : (out.getD .empty).Mirrors (back.getD .empty) := by
  obtain ⟨serialize, normalize⟩ := s
  rcases h with rfl | rfl
  · cases normalize with
    | none =>
      obtain rfl := Except.ok.inj hout
      obtain rfl := Except.ok.inj hback
      exact .empty
    | some stated =>
      obtain ⟨inverse, hinverse, rfl⟩ := map_eq_ok_iff.1 hout
      obtain rfl := Except.ok.inj hback
      exact (Mirrors.of_invert hinverse).symm
  · cases serialize with
    | none =>
      obtain rfl := Except.ok.inj hout
      obtain rfl := Except.ok.inj hback
      exact .empty
    | some stated =>
      obtain ⟨inverse, hinverse, rfl⟩ := map_eq_ok_iff.1 hback
      obtain rfl := Except.ok.inj hout
      exact .of_invert hinverse

theorem MappingScope.undropped_table {s : MappingScope} (h : s.AllStated Undropped) {d : Direction}
    {t : Option FieldMapping} (ht : s.table d = .ok t) : (t.getD .empty).Undropped := by
  cases t with
  | none => exact undropped_empty
  | some m => exact MappingScope.table_of_stated kept_undropped h ht

namespace ResolvedMappings

variable {connector : MappingScope} {model : Option MappingScope}

/-! ## Resolving -/

/-- **A merged table** is the model's laid over the connector's; a model without a
scope states nothing. -/
theorem merged_eq_ok_iff {d : Direction} {m : FieldMapping} :
    merged connector model d = .ok m ↔ ∃ wide own, connector.table d = .ok wide ∧
      (model.getD {}).table d = .ok own ∧ m = (wide.getD .empty).extend (own.getD .empty) := by
  unfold merged
  rw [bind_eq_ok_iff]
  refine exists_congr fun wide => ?_
  cases model with
  | none =>
    -- nothing laid over a table is the table
    have hnothing : (MappingScope.table {} d : MappingResult _) = .ok none := by cases d <;> rfl
    have hextend : (wide.getD .empty).extend .empty = wide.getD .empty := rfl
    simp [hnothing, hextend, pure, Except.pure, eq_comm]
  | some scope =>
    simp only [bind_eq_ok_iff, Option.getD_some, exists_and_left]
    refine and_congr_right fun _ => exists_congr fun own => and_congr_right fun _ => ?_
    cases own with
    | none =>
      have hextend : (wide.getD .empty).extend .empty = wide.getD .empty := rfl
      simp [hextend, pure, Except.pure, eq_comm]
    | some narrow => simp [pure, Except.pure, eq_comm]

/-- **What resolving amounts to**: the way out is the merged table; the way back is the
merged table too if one is stated anywhere, and else the inverse of the way out. Both
can be inverted. -/
theorem resolve_eq_ok {r : ResolvedMappings} (h : resolve connector model = .ok r) :
    merged connector model .serialize = .ok r.serialize ∧
      r.serialize.TargetsDistinct ∧ r.normalize.TargetsDistinct ∧
      if connector.normalize = none ∧ (model.getD {}).normalize = none then
        r.serialize.invert = .ok r.normalize
      else merged connector model .normalize = .ok r.normalize := by
  have hstated : (connector.normalize.isSome || model.any (·.normalize.isSome)) = true ↔
      ¬(connector.normalize = none ∧ (model.getD {}).normalize = none) := by
    cases model <;> simp [← Option.isSome_iff_ne_none, imp_iff_not_or]
  obtain ⟨serialize, hserialize, h⟩ := bind_eq_ok_iff.1 h
  by_cases hback : connector.normalize = none ∧ (model.getD {}).normalize = none
  · rw [if_neg (fun hs => hstated.1 hs hback)] at h
    obtain ⟨normalize, hinvert, h⟩ := bind_eq_ok_iff.1 h
    obtain rfl := Except.ok.inj h
    rw [if_pos hback]
    exact ⟨hserialize, targetsDistinct_of_invert hinvert, targetsDistinct_invert hinvert, hinvert⟩
  · rw [if_pos (hstated.2 hback)] at h
    obtain ⟨normalize, hnormalize, h⟩ := bind_eq_ok_iff.1 h
    obtain ⟨_, hout, h⟩ := bind_eq_ok_iff.1 h
    obtain ⟨_, hin, h⟩ := bind_eq_ok_iff.1 h
    obtain rfl := Except.ok.inj h
    rw [if_neg hback]
    exact ⟨hserialize, targetsDistinct_of_invert hout, targetsDistinct_of_invert hin, hnormalize⟩

/-- **What holds of both directions of a resolved mapping.** In either direction no two
live entries share a target. On the way out a name has the model's entry, dropped or
not, if the model's table has one, and else the connector's. If no way back is stated,
the way back is exactly the inverse of the way out, without any other entry. And if
each scope states one direction at most, the same one or not, and the model drops
nothing, then each direction is the other one read backwards. -/
theorem resolve_directions {r : ResolvedMappings} (h : resolve connector model = .ok r) :
    (r.serialize.TargetsDistinct ∧ r.normalize.TargetsDistinct) ∧
      (∃ wide own, connector.table .serialize = .ok wide ∧
        (model.getD {}).table .serialize = .ok own ∧
        ∀ name, r.serialize.entries.get? name =
          ((own.getD .empty).entries.get? name).or ((wide.getD .empty).entries.get? name)) ∧
      (connector.normalize = none → (model.getD {}).normalize = none →
        r.serialize.invert = .ok r.normalize ∧
          ∀ name target, r.normalize.entries.get? target = some name ↔
            (name, target) ∈ r.serialize.live) ∧
      (connector.OneSided → (model.getD {}).OneSided → (model.getD {}).AllStated Undropped →
        r.serialize.Mirrors r.normalize) := by
  obtain ⟨hserialize, hout, hin, hnormalize⟩ := resolve_eq_ok h
  obtain ⟨wide, own, hwide, hown, hmerged⟩ := merged_eq_ok_iff.1 hserialize
  refine ⟨⟨hout, hin⟩, ⟨wide, own, hwide, hown, fun name => ?_⟩, fun hc hm => ?_,
    fun hc hm hdrop => ?_⟩
  · rw [hmerged, get?_extend]
  · rw [if_pos ⟨hc, hm⟩] at hnormalize
    exact ⟨hnormalize, fun name target => get?_invert hnormalize⟩
  · split at hnormalize
    · exact .of_invert hnormalize
    · obtain ⟨wide', own', hwide', hown', hmerged'⟩ := merged_eq_ok_iff.1 hnormalize
      rw [hmerged] at hout ⊢
      rw [hmerged'] at hin ⊢
      exact (hc.mirrors hwide hwide').extend (hm.mirrors hown hown')
        (MappingScope.undropped_table hdrop hown) (MappingScope.undropped_table hdrop hown')
        hout hin

/-- A connector that states its way out, with an entry that is dropped. -/
def outwardScope : MappingScope where
  serialize := some (.ofList [("color", "user_metadata.color"), ("gone", ""), ("id", "user_id"),
    ("nick", "nickname")])

/-- A model that states its way back, and gives an old target a new name. -/
def inwardScope : MappingScope where
  normalize := some (.ofList [("app_metadata.color", "color"), ("nickname", "nick"),
    ("user_metadata.color", "shade")])

theorem resolve_directions_inward :
    let r : ResolvedMappings := {
      serialize := .ofList [("color", "app_metadata.color"), ("gone", ""), ("id", "user_id"),
        ("nick", "nickname"), ("shade", "user_metadata.color")]
      normalize := .ofList [("app_metadata.color", "color"), ("nickname", "nick"),
        ("user_id", "id"), ("user_metadata.color", "shade")] }
    resolve outwardScope (some inwardScope) = .ok r ∧
      (r.serialize.TargetsDistinct ∧ r.normalize.TargetsDistinct) ∧
      inwardScope.AllStated Undropped ∧ r.serialize.Mirrors r.normalize := by
  intro r
  have h : resolve outwardScope (some inwardScope) = .ok r := by decide +kernel
  have hdrop : inwardScope.AllStated Undropped := by
    intro d m hm
    cases d with
    | serialize => exact absurd hm nofun
    | normalize =>
      obtain rfl := Option.some.inj hm
      decide +kernel
  obtain ⟨hdistinct, -, -, hmirrors⟩ := resolve_directions h
  exact ⟨h, hdistinct, hdrop, hmirrors (.inr rfl) (.inl rfl) hdrop⟩

end ResolvedMappings

end UserDirectory
