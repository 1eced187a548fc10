import UserDirectory.Proofs.Filter.Depth
import UserDirectory.Proofs.Search.Renaming

/-!
# How deep a renamed condition lies

Renaming moves conditions around: an entry whose key is taken goes into the conjunction
of its object, one level further down. So a condition that is a filter may be none under
other names. But this is all that can happen to it, where names are moved to names of
fields and none of the operators without a counterpart is a name (`MovesToFields`): the
form of every value is kept, and the number of its levels still decides at which depths
it is a filter (`MovesToFields.decided_renameCondition`).

The levels that renaming adds are counted as well. An object has each key once, and
no group is among the entries that are moved, so that it is never more than one level
over the whole condition (`MovesToFields.levels_renameCondition`).
-/

namespace UserDirectory

/-! ## Values under the name of a field -/

section

variable {key : String} {v : Json}

/-- **What a key asks for is an operand**, unless it asks for nothing. -/
theorem Demand.Admits.operand {demand : Demand} (h : demand.Admits v) (hany : demand ≠ .anything) :
    Demand.operand.Admits v := by
  cases demand with
  | choice | operand => exact h
  | group => exact h.elim
  | anything => exact absurd rfl hany
  | bound => exact .inr (.inl h)
  | text =>
    obtain ⟨s, rfl⟩ := h
    exact .inr (.inl rfl)
  | flag =>
    obtain ⟨b, rfl⟩ := h
    exact .inr (.inl rfl)
  | range =>
    obtain ⟨items, rfl, -, hitems⟩ := h
    exact .inr (.inr ⟨items, rfl, hitems⟩)
  | pattern =>
    rcases h with h | ⟨items, rfl, -, hitems⟩
    · exact .inr (.inl h)
    · exact .inr (.inr ⟨items, rfl, hitems⟩)

/-- A value without filters is not entered under the name of a field. -/
theorem Demand.Admits.not_entered {name : String} (h : Demand.operand.Admits v)
    (hname : Demand.ofKey name = .operand) : ¬v.Entered name := by
  cases v with
  | obj fields =>
    rcases h with h | h | ⟨items, h, -⟩ <;> cases h
  | arr items => exact fun h => absurd (hname.symm.trans h) nofun
  | null | bool _ | num _ | str _ => exact not_false

/-- **The value of any other key** can stand under the name of a field too, and has as
many levels there. -/
theorem Json.decidedUnder_of_field {name : String} (hname : Demand.ofKey name = .operand)
    (hgroup : Demand.ofKey key ≠ .group) (hany : Demand.ofKey key ≠ .anything) {d : Nat} {c : Clause}
    (h : Clause.ofField d key v = .ok c) :
    v.DecidedUnder name ∧ v.levelsUnder name = v.levelsUnder key := by
  by_cases hentered : v.Entered key
  · cases v with
    | obj fields =>
      have hkey : Demand.ofKey key = .operand := hentered
      obtain ⟨f, hf⟩ := Clause.exists_fields_of_ofField hkey h
      refine ⟨Json.decidedUnder_nested hname (Filter.decidedUnder_of_ofFields fields hf), ?_⟩
      rw [Json.levelsUnder, Json.levelsUnder, hname, hkey]
    | arr items => exact absurd hentered hgroup
    | null | bool _ | num _ | str _ => exact hentered.elim
  · have hadmits := ((Clause.exists_ofField_iff_admits hentered d).1 ⟨c, h⟩).operand hany
    have hplain := hadmits.not_entered hname
    obtain ⟨c', hc'⟩ := (Clause.exists_ofField_iff_admits hplain d).2 (hname ▸ hadmits)
    refine ⟨Json.decidedUnder_of_plain hplain hc', ?_⟩
    rw [Json.levelsUnder_of_plain hplain, Json.levelsUnder_of_plain hentered]

end

/-! ## Renamed entries -/

/-- **A renaming that moves to fields**: a key with another name gets that of a field,
and no operator without a counterpart gets another name. -/
def MovesToFields (rename : String → Json → String) : Prop :=
  ∀ key v, rename key v = key ∨
    (FilterKey.ofKey (rename key v) = .field ∧ key ∉ unsupportedOperators)

/-- **What renaming keeps of an entry**: a group keeps its key and stays a group of
filters, with one level more at most; any other entry stays none, and keeps the levels of
its value. -/
inductive EntryRenamed : String × Json → String × Json → Prop
  | group {key : String} {items items' : List Json} (h : Demand.ofKey key = .group)
      (decided : ∀ v ∈ items', v.Decided)
      (levels : Json.WellFormedItems items →
        Json.memberLevels items' ≤ Json.memberLevels items + 1) :
      EntryRenamed (key, .arr items) (key, .arr items')
  | plain {e e' : String × Json} (nogroup : Demand.ofKey e'.1 ≠ .group)
      (decided : e'.2.DecidedUnder e'.1)
      (levels : e'.2.levelsUnder e'.1 = e.2.levelsUnder e.1) : EntryRenamed e e'

namespace EntryRenamed

variable {e e' : String × Json}

theorem decidedUnder (h : EntryRenamed e e') : e'.2.DecidedUnder e'.1 := by
  cases h with
  | group hkey decided => exact Json.decidedUnder_group hkey decided
  | plain _ decided => exact decided

/-- The value of a group is a list of filters. -/
theorem exists_items (h : EntryRenamed e e') (hkey : Demand.ofKey e'.1 = .group) :
    ∃ items, e'.2 = .arr items ∧ ∀ v ∈ items, v.Decided := by
  cases h with
  | group _ decided => exact ⟨_, rfl, decided⟩
  | plain nogroup => exact absurd hkey nogroup

theorem key_eq (h : EntryRenamed e e') (hkey : Demand.ofKey e'.1 = .group) : e'.1 = e.1 := by
  cases h with
  | group => rfl
  | plain nogroup => exact absurd hkey nogroup

theorem levels_le (h : EntryRenamed e e') (hwf : e.2.WellFormed) :
    e'.2.levelsUnder e'.1 ≤ e.2.levelsUnder e.1 + 1 := by
  cases h with
  | @group key items items' hkey _ levels =>
    show (Json.arr items').levelsUnder key ≤ (Json.arr items).levelsUnder key + 1
    rw [Json.levelsUnder, Json.levelsUnder, if_pos hkey, if_pos hkey]
    exact levels hwf
  | plain _ _ levels => exact levels ▸ Nat.le_succ _

theorem levels_eq (h : EntryRenamed e e') (hkey : Demand.ofKey e'.1 ≠ .group) :
    e'.2.levelsUnder e'.1 = e.2.levelsUnder e.1 := by
  cases h with
  | group hgroup => exact absurd hgroup hkey
  | plain _ _ levels => exact levels

end EntryRenamed

section

variable {rename : String → Json → String}

theorem fieldValuedKeys_demand {key : String} (h : fieldValuedKeys.contains key = true) :
    Demand.ofKey key = .text := by
  have hall : ∀ k ∈ fieldValuedKeys, Demand.ofKey k = .text := by decide +kernel
  exact hall key (List.contains_iff_mem.1 h)

/-- Outside groups, an entry that can be read is renamed. -/
theorem MovesToFields.entryRenamed (hr : MovesToFields rename) {d : Nat} {key : String} {v : Json}
    {c : Clause} (hgroup : Demand.ofKey key ≠ .group) (h : Clause.ofField d key v = .ok c) :
    EntryRenamed (key, v) (renameEntry rename key v) := by
  have hsame : EntryRenamed (key, v) (key, v) :=
    .plain hgroup (Clause.decidedUnder_of_ofField v h) rfl
  cases htest : fieldValuedKeys.contains key with
  | true =>
    -- a test of existence has a name below it before and after
    have hkey := fieldValuedKeys_demand htest
    have hplain : ¬v.Entered key := fun h => by
      rcases h.demand with h | h <;> exact absurd (hkey.symm.trans h) nofun
    obtain ⟨field, rfl⟩ : ∃ s, v = .str s := by
      have hadmits := (Clause.exists_ofField_iff_admits hplain d).1 ⟨c, h⟩
      rwa [hkey] at hadmits
    rw [renameEntry_of_test htest]
    have hrenamed : ¬(Json.str (rename field .null)).Entered key := not_false
    obtain ⟨c', hc'⟩ := (Clause.exists_ofField_iff_admits hrenamed d).2 (hkey ▸ ⟨_, rfl⟩)
    exact .plain hgroup (Json.decidedUnder_of_plain hrenamed hc') rfl
  | false =>
    cases hdollar : startsWithDollar key with
    | true => rwa [renameEntry_of_dollar htest hdollar]
    | false =>
      rw [renameEntry_of_name htest hdollar]
      rcases hr key v with hkey | ⟨hfield, hsupported⟩
      · rwa [hkey]
      · have hname := Demand.ofKey_of_field hfield
        have hany := Demand.ofKey_ne_anything hdollar hsupported
        obtain ⟨hdecided, hlevels⟩ := Json.decidedUnder_of_field hname hgroup hany h
        exact .plain (fun h => absurd (hname.symm.trans h) nofun) hdecided hlevels

/-- **Renamed entries as an object**: its levels decide at which depths it is a filter. -/
theorem RenamedFields.Holds.decided_toRecord {r : RenamedFields} {fields es : List (String × Json)}
    (h : r.Holds es) (hes : List.Forall₂ EntryRenamed fields es) :
    (Json.obj r.toRecord).Decided := by
  obtain ⟨-, aside, hcollisions, hperm⟩ := h
  have hentry : ∀ e ∈ r.fields ++ aside, ∃ source, EntryRenamed source e := fun e he => by
    obtain ⟨source, -, hsource⟩ := exists_left_of_mem hes (hperm.mem_iff.1 he)
    exact ⟨source, hsource⟩
  have hdecided : ∀ e ∈ r.fields ++ aside, e.2.DecidedUnder e.1 := fun e he =>
    (hentry e he).choose_spec.decidedUnder
  have hfields : ∀ e ∈ r.fields, e.2.DecidedUnder e.1 := fun e he =>
    hdecided e (List.mem_append_left _ he)
  have haside : ∀ v ∈ r.collisions, v.Decided := by
    intro v hv
    rw [hcollisions] at hv
    obtain ⟨e, he, rfl⟩ := List.mem_map.1 hv
    exact ⟨[e], rfl, List.forall_mem_singleton.2 (hdecided e (List.mem_append_right _ he))⟩
  have hand : ∀ items, (∀ v ∈ items, v.Decided) →
      (Json.obj (Table.insert r.fields "and" (.arr items))).Decided := by
    refine fun items hitems => ⟨_, rfl, fun e he => ?_⟩
    rcases Table.mem_insert he with rfl | he
    · exact Json.decidedUnder_group Demand.ofKey_and hitems
    · exact hfields e he
  unfold RenamedFields.toRecord
  split
  · exact ⟨_, rfl, hfields⟩
  · -- what is there in the place of a conjunction is a list of filters
    have hthere : ∀ v, Table.get? r.fields "and" = some v →
        ∃ items, v = .arr items ∧ ∀ w ∈ items, w.Decided := fun v hv => by
      obtain ⟨source, hsource⟩ := hentry _ (List.mem_append_left _ (Table.mem_of_get? hv))
      exact hsource.exists_items Demand.ofKey_and
    split
    · next items hget =>
      obtain ⟨_, hitems, hmembers⟩ := hthere _ hget
      obtain rfl := Json.arr.inj hitems
      refine hand _ fun v hv => ?_
      rcases List.mem_append.1 hv with hv | hv
      · exact hmembers v hv
      · exact haside v hv
    · next existing hno hget =>
      obtain ⟨items, hitems, -⟩ := hthere _ hget
      exact absurd hitems (hno items)
    · exact hand _ haside

/-! ## The levels that are added -/

/-- **Within so many levels**, and one more for the fields: what is set aside goes one
level down. -/
structure RenamedFields.Within (r : RenamedFields) (n : Nat) : Prop where
  fields : ∀ e ∈ r.fields, e.2.levelsUnder e.1 ≤ n + 1
  collisions : ∀ v ∈ r.collisions, v.levels ≤ n

namespace RenamedFields.Within

variable {r : RenamedFields} {n : Nat}

theorem empty (n : Nat) : ({} : RenamedFields).Within n :=
  ⟨fun _ he => absurd he List.not_mem_nil, fun _ hv => absurd hv List.not_mem_nil⟩

/-- An entry may be set aside if it is no group. -/
theorem add (h : r.Within n) {e : String × Json} (he : e.2.levelsUnder e.1 ≤ n + 1)
    (htaken : Table.contains r.fields e.1 = true → e.2.levelsUnder e.1 ≤ n) :
    (r.add e).Within n := by
  unfold RenamedFields.add
  split
  · next hcontains =>
    refine ⟨h.fields, fun v hv => ?_⟩
    rcases List.mem_append.1 hv with hv | hv
    · exact h.collisions v hv
    · obtain rfl := List.mem_singleton.1 hv
      exact Nat.max_le.2 ⟨htaken hcontains, Nat.zero_le n⟩
  · refine ⟨fun e' he' => ?_, h.collisions⟩
    rcases Table.mem_insert he' with rfl | he'
    · exact he
    · exact h.fields e' he'

theorem foldl {es : List (String × Json)}
    (hes : ∀ e ∈ es, e.2.levelsUnder e.1 ≤ n + 1 ∧
      (Demand.ofKey e.1 ≠ .group → e.2.levelsUnder e.1 ≤ n))
    (hapart : es.Pairwise fun a b => Demand.ofKey b.1 = .group → b.1 ≠ a.1)
    (hfresh : ∀ e ∈ es, Demand.ofKey e.1 = .group → Table.get? r.fields e.1 = none)
    (h : r.Within n) : (es.foldl RenamedFields.add r).Within n := by
  induction es generalizing r with
  | nil => exact h
  | cons e rest ih =>
    rw [List.forall_mem_cons] at hes hfresh
    obtain ⟨hhead, hrest⟩ := List.pairwise_cons.1 hapart
    refine ih hes.2 hrest (fun b hb hkey => ?_) (h.add hes.1.1 fun htaken => hes.1.2 fun hkey => ?_)
    · -- the key of a group is not taken by the entry before it
      unfold RenamedFields.add
      split
      · exact hfresh.2 b hb hkey
      · exact (Table.get?_insert_of_ne r.fields e.2 (hhead b hb hkey)).trans (hfresh.2 b hb hkey)
    · rw [Table.contains, hfresh.1 hkey] at htaken
      exact Bool.false_ne_true htaken

theorem levels_toRecord (h : r.Within n) : (Json.obj r.toRecord).levels ≤ n + 1 := by
  have haside : Json.memberLevels r.collisions ≤ n + 1 :=
    Json.memberLevels_le fun v hv => Nat.succ_le_succ (h.collisions v hv)
  have hand : ∀ items, Json.memberLevels items ≤ n + 1 →
      (Json.obj (Table.insert r.fields "and" (.arr items))).levels ≤ n + 1 := by
    refine fun items hitems => Json.fieldLevels_le_iff.2 fun e he => ?_
    rcases Table.mem_insert he with rfl | he
    · exact hitems
    · exact h.fields e he
  unfold RenamedFields.toRecord
  split
  · exact Json.fieldLevels_le_iff.2 h.fields
  · split
    · next items hget =>
      refine hand _ ?_
      rw [Json.memberLevels_append]
      exact Nat.max_le.2 ⟨h.fields _ (Table.mem_of_get? hget), haside⟩
    · next existing hno _ =>
      -- nothing is entered under the key of a group but a list
      have hplain : ¬existing.Entered "and" := by
        cases existing with
        | arr items => exact absurd rfl (hno items)
        | obj fields => exact fun h => absurd (Demand.ofKey_and.symm.trans h) nofun
        | null | bool _ | num _ | str _ => exact not_false
      refine hand _ ?_
      rw [Json.memberLevels_append]
      refine Nat.max_le.2 ⟨haside, Json.memberLevels_le (List.forall_mem_singleton.2 ?_)⟩
      show max (existing.levelsUnder "and") 0 + 1 ≤ n + 1
      rw [Json.levelsUnder_of_plain hplain]
      exact Nat.le_add_left 1 n
    · exact hand _ haside

end RenamedFields.Within

/-- An object has each of its groups once, so that none is set aside when it is renamed. -/
theorem pairwise_of_entryRenamed {fields es : List (String × Json)} (hordered : Table.Ordered fields)
    (h : List.Forall₂ EntryRenamed fields es) :
    es.Pairwise fun a b => Demand.ofKey b.1 = .group → b.1 ≠ a.1 := by
  induction h with
  | nil => exact .nil
  | @cons e e' rest es' he hrest ih =>
    obtain ⟨hhead, hordered⟩ := List.pairwise_cons.1 hordered
    refine List.pairwise_cons.2 ⟨fun b hb hkey heq => ?_, ih hordered⟩
    obtain ⟨source, hmem, hsource⟩ := exists_left_of_mem hrest hb
    have hlt : e.1 < source.1 := hhead source hmem
    rw [← hsource.key_eq hkey, heq, he.key_eq (heq ▸ hkey)] at hlt
    exact String.lt_irrefl _ hlt

/-! ## Renamed conditions -/

theorem decided_of_entriesRenamed {fields : List (String × Json)}
    (h : List.Forall₂ EntryRenamed fields (renameEntries rename fields)) :
    (renameCondition rename (.obj fields)).Decided :=
  (RenamedFields.Holds.empty.foldl _).decided_toRecord h

theorem levels_of_entriesRenamed {fields : List (String × Json)} (hwf : Record.WellFormed fields)
    (h : List.Forall₂ EntryRenamed fields (renameEntries rename fields)) :
    (renameCondition rename (.obj fields)).levels ≤ Json.fieldLevels fields + 1 := by
  refine RenamedFields.Within.levels_toRecord (.foldl (fun e he => ?_)
    (pairwise_of_entryRenamed hwf.ordered h) (fun _ _ _ => rfl) (.empty _))
  obtain ⟨source, hmem, hsource⟩ := exists_left_of_mem h he
  have hlevels := Json.fieldLevels_le_iff.1 (Nat.le_refl (Json.fieldLevels fields)) source hmem
  exact ⟨(hsource.levels_le (hwf.of_mem hmem)).trans (Nat.succ_le_succ hlevels),
    fun hkey => hsource.levels_eq hkey ▸ hlevels⟩

theorem renameEntries_group {key : String} (h : Demand.ofKey key = .group) (items : List Json)
    (rest : List (String × Json)) :
    renameEntries rename ((key, .arr items) :: rest) =
      (key, .arr (renameConditions rename items)) :: renameEntries rename rest := by
  have hkey := Demand.ofKey_eq_group_iff.1 h
  rw [renameEntries, if_pos (by simpa using hkey)]

theorem renameEntries_plain {key : String} (h : Demand.ofKey key ≠ .group) (v : Json)
    (rest : List (String × Json)) :
    renameEntries rename ((key, v) :: rest) =
      renameEntry rename key v :: renameEntries rename rest := by
  have hkey := mt Demand.ofKey_eq_group_iff.2 h
  cases v with
  | arr items => rw [renameEntries, if_neg (by simpa using hkey)]
  | _ =>
    rw [renameEntries, if_neg (by simpa using hkey)]
    rintro _ ⟨⟩

mutual

/-- **An entry that can be read is renamed**, a group member by member. -/
theorem MovesToFields.exists_entryRenamed (hr : MovesToFields rename) {d : Nat} {key : String} :
    (v : Json) → ∀ {c : Clause}, Clause.ofField d key v = .ok c →
      ∃ e, EntryRenamed (key, v) e ∧
        ∀ rest, renameEntries rename ((key, v) :: rest) = e :: renameEntries rename rest
  | .arr items, _, h => by
    by_cases hgroup : Demand.ofKey key = .group
    · obtain ⟨_, hitems, fs, hfs⟩ := Clause.exists_items_of_ofField hgroup h
      rw [← Json.arr.inj hitems] at hfs
      obtain ⟨hdecided, hlevels⟩ := MovesToFields.conditionsRenamed hr items hfs
      exact ⟨_, .group hgroup hdecided hlevels, renameEntries_group hgroup items⟩
    · exact ⟨_, hr.entryRenamed hgroup h, renameEntries_plain hgroup _⟩
  | .null, _, h | .bool _, _, h | .num _, _, h | .str _, _, h | .obj _, _, h => by
    have hgroup : Demand.ofKey key ≠ .group := fun hgroup => by
      obtain ⟨_, hitems, -⟩ := Clause.exists_items_of_ofField hgroup h
      cases hitems
    exact ⟨_, hr.entryRenamed hgroup h, renameEntries_plain hgroup _⟩

/-- **Every entry is renamed in its place.** -/
theorem MovesToFields.entriesRenamed (hr : MovesToFields rename) {d : Nat} :
    (fields : List (String × Json)) → ∀ {f : Filter}, Filter.ofFields d fields = .ok f →
      List.Forall₂ EntryRenamed fields (renameEntries rename fields)
  | [], _, _ => .nil
  | (_, v) :: rest, _, h => by
    obtain ⟨c, hc, h⟩ := bind_eq_ok_iff.1 h
    obtain ⟨cs, hcs, -⟩ := bind_eq_ok_iff.1 h
    obtain ⟨e, he, hentries⟩ := MovesToFields.exists_entryRenamed hr v hc
    rw [hentries]
    exact .cons he (MovesToFields.entriesRenamed hr rest hcs)

theorem MovesToFields.conditionsRenamed (hr : MovesToFields rename) {d : Nat} {key : String} :
    (items : List Json) → ∀ {fs : List Filter}, Filter.ofItems d key items = .ok fs →
      (∀ v ∈ renameConditions rename items, v.Decided) ∧
        (Json.WellFormedItems items → Json.memberLevels (renameConditions rename items) ≤
          Json.memberLevels items + 1)
  | [], _, _ => ⟨fun _ hv => absurd hv List.not_mem_nil, fun _ => Nat.zero_le _⟩
  | .obj fields :: rest, _, h => by
    obtain ⟨_, -, h⟩ := bind_eq_ok_iff.1 h
    obtain ⟨f, hf, h⟩ := bind_eq_ok_iff.1 h
    obtain ⟨fs, hfs, -⟩ := bind_eq_ok_iff.1 h
    have hentries := MovesToFields.entriesRenamed hr fields hf
    obtain ⟨hdecided, hlevels⟩ := MovesToFields.conditionsRenamed hr rest hfs
    refine ⟨List.forall_mem_cons.2 ⟨?_, hdecided⟩, fun hwf => ?_⟩
    · exact decided_of_entriesRenamed hentries
    · have hhead := levels_of_entriesRenamed hwf.1 hentries
      have htail := hlevels hwf.2
      rw [renameCondition, Json.levels] at hhead
      rw [renameConditions, renameCondition, Json.memberLevels, Json.memberLevels]
      omega
  | .null :: _, _, h | .bool _ :: _, _, h | .num _ :: _, _, h | .str _ :: _, _, h
  | .arr _ :: _, _, h => absurd h nofun

end

variable {v : Json} {f : Filter}

/-- **A condition that is a filter keeps its form**: under other names, its levels decide
at which depths it is one. -/
theorem MovesToFields.decided_renameCondition (hr : MovesToFields rename)
    (h : Filter.ofJson v = .ok f) (hv : v ≠ .null) : (renameCondition rename v).Decided := by
  cases v with
  | obj fields => exact decided_of_entriesRenamed (hr.entriesRenamed fields h)
  | null => exact absurd rfl hv
  | bool _ | num _ | str _ | arr _ => exact absurd h nofun

/-- **Renaming adds one level at most** to a condition that is a filter. -/
theorem MovesToFields.levels_renameCondition (hr : MovesToFields rename)
    (h : Filter.ofJson v = .ok f) (hwf : v.WellFormed) :
    (renameCondition rename v).levels ≤ v.levels + 1 := by
  cases v with
  | obj fields => exact levels_of_entriesRenamed hwf (hr.entriesRenamed fields h)
  | null => exact Nat.zero_le _
  | bool _ | num _ | str _ | arr _ => exact absurd h nofun

end

/-! ## The renaming of searches -/

/-- **The mapping moves to fields**: every target is the name of a field, and no operator
without a counterpart has one. -/
def FieldMapping.MovesToFields (m : FieldMapping) : Prop :=
  ∀ e ∈ m.entries, e.2 ≠ "" → FilterKey.ofKey e.2 = .field ∧ e.1 ∉ unsupportedOperators

instance (m : FieldMapping) : Decidable m.MovesToFields :=
  inferInstanceAs (Decidable (∀ e ∈ m.entries, _))

theorem movesToFields_searchAlias : MovesToFields searchAlias := by
  intro key v
  unfold searchAlias
  split
  · next hkey =>
    obtain rfl := beq_iff_eq.1 hkey
    refine .inr ⟨?_, by decide⟩
    split
    · split <;> decide +kernel
    · decide +kernel
  · split
    · next hkey =>
      obtain rfl := beq_iff_eq.1 hkey
      exact .inr (by decide +kernel)
    · exact .inl rfl

theorem ConnectorSettings.movesToFields_remoteKey {s : ConnectorSettings} {model : String}
    (h : (s.mapper.table model .serialize).MovesToFields) :
    UserDirectory.MovesToFields (s.remoteKey model) := by
  intro key v
  rw [remoteKey]
  obtain hsame | ⟨target, hentry, htarget, happly⟩ :=
    (s.mapper.table model .serialize).apply_cases (searchAlias key v)
  · rw [hsame]
    exact movesToFields_searchAlias key v
  · rw [happly]
    obtain ⟨hfield, hsource⟩ := h _ hentry htarget
    refine .inr ⟨hfield, ?_⟩
    rcases movesToFields_searchAlias key v with halias | ⟨-, hkey⟩
    · exact halias ▸ hsource
    · exact hkey

end UserDirectory
