import UserDirectory.Proofs.Filter.Acceptance
import UserDirectory.Proofs.Filter.Reading

/-!
# How deep a value lies as a filter

A value that is a filter on its own need not be one inside another: a filter may
stand 32 levels deep and no deeper, and what is put around it counts. Nothing else
can go wrong, though. The levels that a value has of its own can be counted from its
keys (`Json.levels`), and once a value has been read at some depth, this number alone
decides at which others it can be read, and the error is that of a filter too deep
at all the rest (`Json.Decided`).

Only the values of some keys are entered at all: an object as the operand of a field
or an inequality, and an array under a key of a group. All other values are read
alike at every depth (`Clause.ofField_of_plain`).
-/

namespace UserDirectory

/-! ## Results that a condition decides -/

/-- **The condition decides the result**: it is a value if the condition holds, and the
error of a filter too deep if not. -/
def DepthDecides {α : Type} (p : Prop) (x : FilterResult α) : Prop :=
  (p ∧ ∃ a, x = .ok a) ∨ (¬p ∧ x = .error (.tooDeep Filter.maxDepth))

namespace DepthDecides

variable {α β : Type} {p q : Prop} {x : FilterResult α}

theorem of_ok (hp : p) (a : α) : DepthDecides p (.ok a) := .inl ⟨hp, a, rfl⟩

theorem ok_iff (h : DepthDecides p x) : (∃ a, x = .ok a) ↔ p := by
  rcases h with ⟨hp, hx⟩ | ⟨hp, rfl⟩
  · exact iff_of_true hx hp
  · exact iff_of_false (by simp) hp

theorem congr (h : DepthDecides p x) (hpq : p ↔ q) : DepthDecides q x := by
  rwa [DepthDecides, ← hpq]

/-- **Two steps** are decided by both conditions, the second one where the first holds. -/
theorem bind {f : α → FilterResult β} (hx : DepthDecides p x)
    (hf : p → ∀ a, DepthDecides q (f a)) : DepthDecides (p ∧ q) (x >>= f) := by
  rcases hx with ⟨hp, a, rfl⟩ | ⟨hp, rfl⟩
  · exact (hf hp a).congr (and_iff_right hp).symm
  · exact .inr ⟨fun h => hp h.1, rfl⟩

theorem map (hx : DepthDecides p x) (f : α → β) : DepthDecides p (x.map f) := by
  rcases hx with ⟨hp, a, rfl⟩ | ⟨hp, rfl⟩
  · exact .of_ok hp (f a)
  · exact .inr ⟨hp, rfl⟩

end DepthDecides

theorem depthDecides_checkDepth (depth : Nat) : DepthDecides (depth ≤ 32) (checkDepth depth) := by
  unfold checkDepth
  split
  · next h => exact .inr ⟨Nat.not_le.2 h, rfl⟩
  · next h => exact .of_ok (Nat.not_lt.1 h) ()

/-! ## Levels -/

mutual

/-- How many levels of filters the value of a key holds. -/
def Json.levelsUnder (key : String) : Json → Nat
  | .obj fields => if Demand.ofKey key = .operand then Json.fieldLevels fields + 1 else 0
  | .arr items => if Demand.ofKey key = .group then Json.memberLevels items else 0
  | _ => 0

/-- How many levels of filters the entries of an object hold. -/
def Json.fieldLevels : List (String × Json) → Nat
  | [] => 0
  | (key, v) :: rest => max (v.levelsUnder key) (Json.fieldLevels rest)

/-- How many levels of filters the members of a group make. -/
def Json.memberLevels : List Json → Nat
  | [] => 0
  | .obj fields :: rest => max (Json.fieldLevels fields + 1) (Json.memberLevels rest)
  | _ :: rest => Json.memberLevels rest

end

/-- **How many levels of filters lie below a value** that is a filter. -/
def Json.levels : Json → Nat
  | .obj fields => Json.fieldLevels fields
  | _ => 0

variable {key : String} {fields : List (String × Json)} {items : List Json}

theorem Json.fieldLevels_le_iff {n : Nat} :
    Json.fieldLevels fields ≤ n ↔ ∀ e ∈ fields, e.2.levelsUnder e.1 ≤ n := by
  induction fields with
  | nil => exact iff_of_true (Nat.zero_le n) (List.forall_mem_nil _)
  | cons e rest ih => rw [Json.fieldLevels, Nat.max_le, ih, List.forall_mem_cons]

theorem Json.memberLevels_le {n : Nat} (h : ∀ v ∈ items, v.levels + 1 ≤ n) :
    Json.memberLevels items ≤ n := by
  induction items with
  | nil => exact Nat.zero_le n
  | cons v rest ih =>
    rw [List.forall_mem_cons] at h
    cases v with
    | obj fields => exact Nat.max_le.2 ⟨h.1, ih h.2⟩
    | _ => exact ih h.2

theorem Json.memberLevels_append (items items' : List Json) :
    Json.memberLevels (items ++ items') =
      max (Json.memberLevels items) (Json.memberLevels items') := by
  induction items with
  | nil => exact (Nat.zero_max _).symm
  | cons v rest ih =>
    cases v with
    | obj fields => rw [List.cons_append, Json.memberLevels, Json.memberLevels, ih, Nat.max_assoc]
    | _ => exact ih

/-! ## What demands tell of keys -/

theorem FilterKey.demand_eq_group_iff {meaning : FilterKey} :
    meaning.demand = .group ↔ meaning = .and ∨ meaning = .or := by
  cases meaning with
  | operator keyword => cases keyword <;> simp [demand, Keyword.demand]
  | _ => simp [demand]

theorem FilterKey.demand_eq_operand_iff {meaning : FilterKey} :
    meaning.demand = .operand ↔ meaning = .field ∨ meaning = .operator .neq := by
  cases meaning with
  | operator keyword => cases keyword <;> simp [demand, Keyword.demand]
  | _ => simp [demand]

theorem FilterKey.demand_eq_anything_iff {meaning : FilterKey} :
    meaning.demand = .anything ↔ meaning = .unsupported := by
  cases meaning with
  | operator keyword => cases keyword <;> simp [demand, Keyword.demand]
  | _ => simp [demand]

theorem Demand.ofKey_eq_group_iff : Demand.ofKey key = .group ↔ key = "and" ∨ key = "or" := by
  constructor
  · intro h
    rw [Demand.ofKey_eq] at h
    have hspec := FilterKey.ofKey_spec key
    rcases FilterKey.demand_eq_group_iff.1 h with hkey | hkey
    · rw [hkey] at hspec
      exact .inl hspec
    · rw [hkey] at hspec
      exact .inr hspec
  · rintro (rfl | rfl) <;> decide

theorem Demand.ofKey_and : Demand.ofKey "and" = .group := Demand.ofKey_eq_group_iff.2 (.inl rfl)

theorem Demand.ofKey_of_field (h : FilterKey.ofKey key = .field) :
    Demand.ofKey key = .operand := by
  rw [Demand.ofKey_eq]
  exact FilterKey.demand_eq_operand_iff.2 (.inl h)

/-- Only operators without a counterpart, and keys with a dollar sign, ask for nothing. -/
theorem Demand.ofKey_ne_anything (hdollar : startsWithDollar key = false)
    (hkey : key ∉ unsupportedOperators) : Demand.ofKey key ≠ .anything := by
  intro h
  rw [Demand.ofKey_eq] at h
  have hspec := FilterKey.ofKey_spec key
  rw [FilterKey.demand_eq_anything_iff.1 h] at hspec
  rcases hspec.2 with hstart | hmem
  · exact Bool.false_ne_true (hdollar.symm.trans hstart)
  · exact hkey hmem

/-! ## What a clause is read from -/

/-- **The clause of a group** is made of its members. -/
theorem Clause.exists_ofEntry_group (h : Demand.ofKey key = .group) (v : Json) :
    ∃ g : List Filter → Clause, ∀ nested children,
      Clause.ofEntry key v nested children = children.map g := by
  rw [Demand.ofKey_eq] at h
  unfold Clause.ofEntry
  rcases FilterKey.demand_eq_group_iff.1 h with hkey | hkey
  · rw [hkey]
    exact ⟨.and, fun _ _ => rfl⟩
  · rw [hkey]
    exact ⟨.or, fun _ _ => rfl⟩

/-- **The clause of an object as an operand** is made of the nested filter. -/
theorem Clause.exists_ofEntry_nested (h : Demand.ofKey key = .operand) :
    ∃ g : Filter → Clause, ∀ nested children,
      Clause.ofEntry key (.obj fields) nested children = nested.map g := by
  rw [Demand.ofKey_eq] at h
  unfold Clause.ofEntry
  rcases FilterKey.demand_eq_operand_iff.1 h with hkey | hkey
  · rw [hkey]
    exact ⟨fun f => .field key (.nested f), fun nested _ => by cases nested <;> rfl⟩
  · rw [hkey]
    exact ⟨fun f => .operator (.neq (.nested f)), fun nested _ => by cases nested <;> rfl⟩

theorem Clause.exists_ofField_group (h : Demand.ofKey key = .group) (items : List Json) :
    ∃ g : List Filter → Clause, ∀ d,
      Clause.ofField d key (.arr items) = (Filter.ofItems (d + 1) key items).map g := by
  obtain ⟨g, hg⟩ := Clause.exists_ofEntry_group h (.arr items)
  exact ⟨g, fun d => by rw [Clause.ofField, hg]⟩

theorem Clause.exists_ofField_nested (h : Demand.ofKey key = .operand)
    (fields : List (String × Json)) :
    ∃ g : Filter → Clause, ∀ d, Clause.ofField d key (.obj fields)
      = ((checkDepth (d + 1)).bind fun _ => Filter.ofFields (d + 1) fields).map g := by
  obtain ⟨g, hg⟩ := Clause.exists_ofEntry_nested h
  exact ⟨g, fun d => by rw [Clause.ofField, hg]⟩

/-- The object as an operand has been read one level further down. -/
theorem Clause.exists_fields_of_ofField (h : Demand.ofKey key = .operand) {d : Nat} {c : Clause}
    (hc : Clause.ofField d key (.obj fields) = .ok c) :
    ∃ f, Filter.ofFields (d + 1) fields = .ok f := by
  obtain ⟨g, hg⟩ := Clause.exists_ofField_nested h fields
  obtain ⟨f, hf, -⟩ := map_eq_ok_iff.1 ((hg d).symm.trans hc)
  obtain ⟨_, -, hf⟩ := bind_eq_ok_iff.1 hf
  exact ⟨f, hf⟩

/-- What has been read as a group is an array, read one level further down. -/
theorem Clause.exists_items_of_ofField (h : Demand.ofKey key = .group) {d : Nat} {v : Json}
    {c : Clause} (hc : Clause.ofField d key v = .ok c) :
    ∃ items, v = .arr items ∧ ∃ fs, Filter.ofItems (d + 1) key items = .ok fs := by
  obtain ⟨g, hg⟩ := Clause.exists_ofEntry_group h v
  cases v with
  | arr items =>
    rw [Clause.ofField, hg] at hc
    obtain ⟨fs, hfs, -⟩ := map_eq_ok_iff.1 hc
    exact ⟨items, rfl, fs, hfs⟩
  | null | bool _ | num _ | str _ | obj _ =>
    unfold Clause.ofField at hc
    rw [hg] at hc
    cases hc

/-- The value of the key is entered: an object as an operand, or an array as a group. -/
def Json.Entered (key : String) : Json → Prop
  | .obj _ => Demand.ofKey key = .operand
  | .arr _ => Demand.ofKey key = .group
  | _ => False

theorem Json.Entered.demand {v : Json} (h : v.Entered key) :
    Demand.ofKey key = .operand ∨ Demand.ofKey key = .group := by
  cases v with
  | obj fields => exact .inl h
  | arr items => exact .inr h
  | null | bool _ | num _ | str _ => exact h.elim

/-- **A value that is not entered** is read alike at every depth. -/
theorem Clause.ofField_of_plain {v : Json} (h : ¬v.Entered key) (d d' : Nat) :
    Clause.ofField d key v = Clause.ofField d' key v := by
  have hd := Demand.ofKey_eq key
  cases v with
  | obj fields =>
    have hne : Demand.ofKey key ≠ .operand := h
    rw [Clause.ofField, Clause.ofField, Clause.ofEntry, Clause.ofEntry]
    cases hkey : FilterKey.ofKey key with
    | field =>
      rw [hkey] at hd
      exact absurd hd hne
    | operator keyword =>
      rw [hkey] at hd
      cases keyword with
      | neq => exact absurd hd hne
      | _ => rfl
    | raw | «exists» | missing | unsupported | and | or => rfl
  | arr items =>
    have hne : Demand.ofKey key ≠ .group := h
    rw [Clause.ofField, Clause.ofField, Clause.ofEntry, Clause.ofEntry]
    cases hkey : FilterKey.ofKey key with
    | and | or =>
      rw [hkey] at hd
      exact absurd hd hne
    | raw | «exists» | missing | unsupported | field | operator keyword => rfl
  | null | bool _ | num _ | str _ => rfl

/-- **A value that is not entered** can be read exactly if its key admits it. -/
theorem Clause.exists_ofField_iff_admits {v : Json} (h : ¬v.Entered key) (d : Nat) :
    (∃ c, Clause.ofField d key v = .ok c) ↔ (Demand.ofKey key).Admits v := by
  have hsettled : Settled (entryOffences d key v)
      (fun c => c.Spelled key v ∧ WithinDepth d c.levels) (Clause.ofField d key v) := by
    cases v with
    | obj fields =>
      refine settled_clause (fun hkey => absurd hkey h) fun hkey => ?_
      rw [entryOffences, hkey]
      exact rfl
    | arr items =>
      exact settled_clause (fun _ _ hfields => by cases hfields) fun hkey => absurd hkey h
    | null | bool _ | num _ | str _ =>
      refine settled_clause (fun _ _ hfields => by cases hfields) fun hkey => ?_
      rw [entryOffences, hkey]
      exact rfl
  rw [hsettled.ok_iff, ← Json.fits_iff_offences, Json.fits_iff, or_iff_left]
  -- a group or a filter would be entered
  rintro (⟨hkey, items, rfl, -⟩ | ⟨hkey, hfilter⟩)
  · exact h hkey
  · obtain ⟨fields, rfl⟩ := hfilter.exists_fields
    exact h hkey

theorem Json.levelsUnder_of_plain {v : Json} (h : ¬v.Entered key) : v.levelsUnder key = 0 := by
  cases v with
  | obj fields => exact if_neg h
  | arr items => exact if_neg h
  | null | bool _ | num _ | str _ => rfl

/-! ## Values that their levels decide -/

/-- **The levels of the value decide** at which depths an object can hold it under the key. -/
def Json.DecidedUnder (key : String) (v : Json) : Prop :=
  ∀ d ≤ 32, DepthDecides (d + v.levelsUnder key ≤ 32) (Clause.ofField d key v)

/-- **The levels of the object decide** at which depths it is a filter: those of each entry do. -/
def Json.Decided (v : Json) : Prop := ∃ fields, v = .obj fields ∧ ∀ e ∈ fields, e.2.DecidedUnder e.1

theorem Filter.depthDecides_ofFields (h : ∀ e ∈ fields, e.2.DecidedUnder e.1) {d : Nat}
    (hd : d ≤ 32) :
    DepthDecides (d + Json.fieldLevels fields ≤ 32) (Filter.ofFields d fields) := by
  induction fields with
  | nil => exact .of_ok hd []
  | cons e rest ih =>
    obtain ⟨key, v⟩ := e
    have hv : DepthDecides (d + v.levelsUnder key ≤ 32) (Clause.ofField d key v) :=
      h (key, v) List.mem_cons_self d hd
    have hrest := ih fun e he => h e (List.mem_cons_of_mem _ he)
    refine (hv.bind fun _ clause => hrest.map (clause :: ·)).congr ?_
    rw [Json.fieldLevels]
    omega

theorem Filter.depthDecides_ofItems (h : ∀ v ∈ items, v.Decided) {d : Nat} (hd : d ≤ 32) :
    DepthDecides (d + Json.memberLevels items ≤ 32) (Filter.ofItems (d + 1) key items) := by
  induction items with
  | nil => exact .of_ok hd []
  | cons v rest ih =>
    obtain ⟨fields, rfl, hfields⟩ := h v List.mem_cons_self
    have hrest := ih fun w hw => h w (List.mem_cons_of_mem _ hw)
    have hmember := (depthDecides_checkDepth (d + 1)).bind fun hdepth _ =>
      (Filter.depthDecides_ofFields hfields hdepth).bind fun _ f => hrest.map (f :: ·)
    refine hmember.congr ?_
    rw [Json.memberLevels]
    omega

theorem Json.Decided.ofJson {v : Json} (h : v.Decided) :
    DepthDecides (v.levels ≤ 32) (Filter.ofJson v) := by
  obtain ⟨fields, rfl, hfields⟩ := h
  refine (Filter.depthDecides_ofFields hfields (Nat.zero_le 32)).congr ?_
  rw [Json.levels, Nat.zero_add]

theorem Json.decidedUnder_group (h : Demand.ofKey key = .group) (hitems : ∀ v ∈ items, v.Decided) :
    (Json.arr items).DecidedUnder key := fun d hd => by
  obtain ⟨g, hg⟩ := Clause.exists_ofField_group h items
  rw [hg, Json.levelsUnder, if_pos h]
  exact (Filter.depthDecides_ofItems hitems hd).map g

theorem Json.decidedUnder_nested (h : Demand.ofKey key = .operand)
    (hfields : ∀ e ∈ fields, e.2.DecidedUnder e.1) : (Json.obj fields).DecidedUnder key :=
  fun d _ => by
    obtain ⟨g, hg⟩ := Clause.exists_ofField_nested h fields
    rw [hg, Json.levelsUnder, if_pos h]
    have hnested := (depthDecides_checkDepth (d + 1)).bind fun hdepth _ =>
      Filter.depthDecides_ofFields hfields hdepth
    refine (hnested.map g).congr ?_
    omega

/-- What is not entered is decided by any reading of it. -/
theorem Json.decidedUnder_of_plain {v : Json} (h : ¬v.Entered key) {d : Nat} {c : Clause}
    (hc : Clause.ofField d key v = .ok c) : v.DecidedUnder key := fun d' hd' => by
  rw [Clause.ofField_of_plain h d' d, hc, Json.levelsUnder_of_plain h]
  exact .of_ok hd' c

mutual

/-- **What has been read at some depth** is decided by its levels. -/
theorem Clause.decidedUnder_of_ofField {d : Nat} {key : String} :
    (v : Json) → ∀ {c : Clause}, Clause.ofField d key v = .ok c → v.DecidedUnder key
  | .obj fields, _, h => by
    by_cases hkey : Demand.ofKey key = .operand
    · obtain ⟨f, hf⟩ := Clause.exists_fields_of_ofField hkey h
      exact Json.decidedUnder_nested hkey (Filter.decidedUnder_of_ofFields fields hf)
    · exact Json.decidedUnder_of_plain hkey h
  | .arr items, _, h => by
    by_cases hkey : Demand.ofKey key = .group
    · obtain ⟨_, hitems, fs, hfs⟩ := Clause.exists_items_of_ofField hkey h
      obtain rfl := Json.arr.inj hitems
      exact Json.decidedUnder_group hkey (Filter.decided_of_ofItems items hfs)
    · exact Json.decidedUnder_of_plain hkey h
  | .null, _, h | .bool _, _, h | .num _, _, h | .str _, _, h =>
    Json.decidedUnder_of_plain not_false h

theorem Filter.decidedUnder_of_ofFields {d : Nat} :
    (fields : List (String × Json)) → ∀ {f : Filter}, Filter.ofFields d fields = .ok f →
      ∀ e ∈ fields, e.2.DecidedUnder e.1
  | [], _, _, _, he => absurd he List.not_mem_nil
  | (key, v) :: rest, _, h, e, he => by
    obtain ⟨c, hc, h⟩ := bind_eq_ok_iff.1 h
    obtain ⟨cs, hcs, -⟩ := bind_eq_ok_iff.1 h
    rcases List.mem_cons.1 he with rfl | he
    · exact Clause.decidedUnder_of_ofField v hc
    · exact Filter.decidedUnder_of_ofFields rest hcs e he

theorem Filter.decided_of_ofItems {d : Nat} {key : String} :
    (items : List Json) → ∀ {fs : List Filter}, Filter.ofItems d key items = .ok fs →
      ∀ v ∈ items, v.Decided
  | [], _, _, _, hv => absurd hv List.not_mem_nil
  | .obj fields :: rest, _, h, v, hv => by
    obtain ⟨_, -, h⟩ := bind_eq_ok_iff.1 h
    obtain ⟨f, hf, h⟩ := bind_eq_ok_iff.1 h
    obtain ⟨gs, hgs, -⟩ := bind_eq_ok_iff.1 h
    rcases List.mem_cons.1 hv with rfl | hv
    · exact ⟨fields, rfl, Filter.decidedUnder_of_ofFields fields hf⟩
    · exact Filter.decided_of_ofItems rest hgs v hv
  | .null :: _, _, h, _, _ | .bool _ :: _, _, h, _, _ | .num _ :: _, _, h, _, _
  | .str _ :: _, _, h, _, _ | .arr _ :: _, _, h, _, _ => absurd h nofun

end

end UserDirectory
