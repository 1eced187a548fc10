import UserDirectory.Proofs.Record.Merges

/-!
# A merge, path by path

A merge of records decides at every path of keys as it does at a single field: what the
incoming record holds there is written over what the other one holds there
(`Json.within?_mergeOver`). Every path belongs to one of three kinds
(`Json.within?_trichotomy`): the incoming record holds something at it; or the path leaves
the incoming record at a key that an object of it lacks, and then the other record decides
alone; or the path goes on below a value that is no object, and then the merged record holds
nothing there, whatever the other one had. The last is the only way in which a merge loses
a value under a path that the incoming record does not hold.

Paths go through keys of objects here. An index into an array is no such path: an array is
a value that comes in, or goes, as a whole.
-/

namespace UserDirectory

/-! ## The kinds of paths -/

/-- **A path leaves a value at a key** that an object on its way lacks. -/
def Json.LeavesAt (v : Json) (path : List String) : Prop :=
  ∃ upper key rest fields, path = upper ++ key :: rest ∧ v.within? upper = some (.obj fields) ∧
    Table.get? fields key = none

/-- **A path goes on below a value that is no object.** -/
def Json.GoesBelow (v : Json) (path : List String) : Prop :=
  ∃ upper rest w, path = upper ++ rest ∧ rest ≠ [] ∧ w.NonObject ∧ v.within? upper = some w

/-- **A path that holds nothing** leaves the value, or goes below one of its ends. -/
theorem Json.within?_trichotomy (v : Json) (path : List String) :
    (∃ w, v.within? path = some w) ∨ v.LeavesAt path ∨ v.GoesBelow path := by
  induction path generalizing v with
  | nil => exact .inl ⟨v, rfl⟩
  | cons segment rest ih =>
    by_cases hv : v.NonObject
    · exact .inr (.inr ⟨[], segment :: rest, v, rfl, List.cons_ne_nil _ _, hv, rfl⟩)
    obtain ⟨fields, rfl⟩ := exists_of_not_nonObject hv
    cases hget : Table.get? fields segment with
    | none => exact .inr (.inl ⟨[], segment, rest, fields, rfl, rfl, hget⟩)
    | some child =>
      -- below the field, the path is of the same kind as its rest
      have hwithin : ∀ path,
          (Json.obj fields).within? (segment :: path) = child.within? path := fun path => by
        rw [within?_obj_cons, hget]
        rfl
      rcases ih child with ⟨w, hw⟩ | ⟨upper, key, tail, inner, rfl, hupper, hkey⟩ |
        ⟨upper, tail, w, rfl, hne, hw, hupper⟩
      · exact .inl ⟨w, (hwithin rest).trans hw⟩
      · exact .inr (.inl ⟨segment :: upper, key, tail, inner, rfl,
          (hwithin upper).trans hupper, hkey⟩)
      · exact .inr (.inr ⟨segment :: upper, tail, w, rfl, hne, hw, (hwithin upper).trans hupper⟩)

/-! ## What a merge holds -/

/-- What stands in the place of an object counts by its fields only. -/
theorem Json.within?_fieldsOrNone (existing : Option Json) {path : List String} (h : path ≠ []) :
    (Json.obj (fieldsOrNone existing)).within? path = existing.bind (·.within? path) := by
  match existing with
  | some (.obj fields) => rfl
  | none | some .null | some (.bool _) | some (.num _) | some (.str _) | some (.arr _) =>
    cases path with
    | nil => exact absurd rfl h
    | cons segment rest => rfl

namespace Record

variable {t s : Record}

/-- **A merge decides path by path**: what comes in at a path is written over what stands
there. -/
theorem within?_mergeDeep (t : Record) (hs : s.WellFormed) {path : List String} {v : Json}
    (h : (Json.obj s).within? path = some v) :
    (Json.obj (mergeDeep t s)).within? path =
      some (v.mergeOver ((Json.obj t).within? path)) := by
  induction path generalizing t s with
  | nil =>
    obtain rfl := Option.some.inj h
    rfl
  | cons segment rest ih =>
    rw [Json.within?_obj_cons] at h
    obtain ⟨child, hchild, hrest⟩ := Option.bind_eq_some_iff.1 h
    rw [Json.within?_obj_cons, get?_mergeDeep_of_some t hs.ordered hchild, Option.bind_some,
      Json.within?_obj_cons]
    by_cases hend : rest = []
    · subst hend
      obtain rfl := Option.some.inj hrest
      cases Table.get? t segment <;> rfl
    -- the path goes on, so that an object comes in under the segment
    · obtain ⟨fields, rfl⟩ := Json.exists_of_within? hend hrest
      have hmerged := ih (Json.fieldsOrNone (Table.get? t segment)) (hs.of_get? hchild) hrest
      rw [Json.within?_fieldsOrNone _ hend] at hmerged
      exact hmerged

/-- **What comes in and is no object wins**, and hides everything below it. -/
theorem within?_mergeDeep_of_nonObject (t : Record) (hs : s.WellFormed) {path : List String}
    {v : Json} (hv : v.NonObject) (h : (Json.obj s).within? path = some v) :
    (Json.obj (mergeDeep t s)).within? path = some v := by
  rw [within?_mergeDeep t hs h, Json.mergeOver_of_nonObject hv]

theorem within?_mergeDeep_of_goesBelow (t : Record) (hs : s.WellFormed) {path : List String}
    (h : (Json.obj s).GoesBelow path) : (Json.obj (mergeDeep t s)).within? path = none := by
  obtain ⟨upper, rest, v, rfl, hne, hv, hupper⟩ := h
  rw [Json.within?_append, within?_mergeDeep_of_nonObject t hs hv hupper, Option.bind_some,
    Json.within?_of_nonObject hv hne]

/-- **Where the incoming record lacks a key**, the other record decides. -/
theorem within?_mergeDeep_of_leavesAt (t : Record) (hs : s.WellFormed) {path : List String}
    (h : (Json.obj s).LeavesAt path) :
    (Json.obj (mergeDeep t s)).within? path = (Json.obj t).within? path := by
  obtain ⟨upper, key, rest, fields, rfl, hupper, hkey⟩ := h
  have hfields : Table.Ordered fields :=
    (Json.WellFormed.walk? hs (Json.walk?_of_within? hupper)).1
  have hmerged : (Json.obj (mergeDeep t s)).within? upper = some (.obj (mergeDeep
      (Json.fieldsOrNone ((Json.obj t).within? upper)) fields)) := within?_mergeDeep t hs hupper
  rw [Json.within?_append, hmerged, Option.bind_some, Json.within?_obj_cons,
    get?_mergeDeep_of_none _ hfields hkey, ← Json.within?_obj_cons,
    Json.within?_fieldsOrNone _ (List.cons_ne_nil _ _), Json.within?_append]

end Record

/-! ## Merging again -/

mutual

/-- **A value written over a second time** changes nothing. -/
theorem Json.mergeOver_mergeOver : (v : Json) → v.WellFormed → (existing : Option Json) →
    (∀ w ∈ existing, w.WellFormed) → v.mergeOver (some (v.mergeOver existing)) =
      v.mergeOver existing
  | .obj fields, h, existing, he => congrArg Json.obj <| by
    have hold := Record.WellFormed.fieldsOrNone he
    have hordered := Record.ordered_mergeDeep hold.ordered fields
    refine (Record.ordered_mergeDeep hordered fields).ext hordered fun key => ?_
    rw [Record.get?_mergeDeep _ h.1, Record.get?_mergeDeep _ h.1]
    cases hget : Table.get? fields key with
    | none => rfl
    | some v =>
      exact congrArg some (Json.mergeOver_mergeOver_of_mem fields h.2 _ (Table.mem_of_get? hget) _
        fun _ hw => hold.of_get? hw)
  | .arr _, _, _, _ | .null, _, _, _ | .bool _, _, _, _ | .num _, _, _, _ | .str _, _, _, _ => rfl

theorem Json.mergeOver_mergeOver_of_mem :
    (fields : List (String × Json)) → Json.WellFormedFields fields → ∀ e ∈ fields,
      ∀ existing : Option Json, (∀ w ∈ existing, w.WellFormed) →
        e.2.mergeOver (some (e.2.mergeOver existing)) = e.2.mergeOver existing
  | [], _ => nofun
  | (_, v) :: rest, h => List.forall_mem_cons.2
    ⟨Json.mergeOver_mergeOver v h.1, Json.mergeOver_mergeOver_of_mem rest h.2⟩

end

namespace Record

variable {t s : Record}

/-- **Merging again changes nothing.** -/
theorem mergeDeep_mergeDeep (ht : t.WellFormed) (hs : s.WellFormed) :
    mergeDeep (mergeDeep t s) s = mergeDeep t s :=
  Json.obj.inj (Json.mergeOver_mergeOver (.obj s) hs (some (.obj t)) fun _ hw =>
    Option.some.inj hw ▸ ht)

/-- **A record merged into itself** is itself. -/
theorem mergeDeep_self (hs : s.WellFormed) : mergeDeep s s = s := by
  have h := mergeDeep_mergeDeep .nil hs
  rwa [mergeDeep_nil hs] at h

/-- **The laws of merging.** Where a value comes in that is no object, the merged record
holds it, and nothing below it. Where a path leaves the incoming record at a missing key,
the merged record holds what the other one does. Hence of what the other record alone
holds, only what lies below an incoming value that is no object is lost. Merging again
changes nothing, nor does merging a record into itself, and the empty record is neutral on
either side. -/
theorem mergeDeep_laws (ht : t.WellFormed) (hs : s.WellFormed) :
    ((∀ path v, v.NonObject → (Json.obj s).within? path = some v →
        (Json.obj (mergeDeep t s)).within? path = some v) ∧
      (∀ path, (Json.obj s).GoesBelow path → (Json.obj (mergeDeep t s)).within? path = none) ∧
      (∀ path, (Json.obj s).LeavesAt path →
        (Json.obj (mergeDeep t s)).within? path = (Json.obj t).within? path) ∧
      ∀ path w, (Json.obj t).within? path = some w → (Json.obj s).within? path = none →
        (Json.obj (mergeDeep t s)).within? path = some w ∨ (Json.obj s).GoesBelow path) ∧
      mergeDeep (mergeDeep t s) s = mergeDeep t s ∧ mergeDeep t t = t ∧
        mergeDeep [] t = t ∧ mergeDeep t [] = t := by
  refine ⟨⟨fun _ _ hv h => within?_mergeDeep_of_nonObject t hs hv h,
    fun _ h => within?_mergeDeep_of_goesBelow t hs h,
    fun _ h => within?_mergeDeep_of_leavesAt t hs h, fun path w hw hnone => ?_⟩,
    mergeDeep_mergeDeep ht hs, mergeDeep_self ht, mergeDeep_nil ht, rfl⟩
  rcases Json.within?_trichotomy (.obj s) path with ⟨v, hv⟩ | hleaves | hbelow
  · exact absurd (hnone.symm.trans hv) (Option.some_ne_none v).symm
  · exact .inl ((within?_mergeDeep_of_leavesAt t hs hleaves).trans hw)
  · exact .inr hbelow

/-- A record with objects at two depths. -/
def lowerRecord : Record :=
  [("a", .obj [("x", .bool true), ("y", .obj [("p", .null)])]), ("b", .str "old")]

/-- A record with no object where the other one has one, and the other way round. -/
def upperRecord : Record := [("a", .obj [("y", .arr [])]), ("b", .obj [("z", .obj [])])]

theorem mergeDeep_laws_lowerRecord :
    lowerRecord.WellFormed ∧ upperRecord.WellFormed ∧
      (Json.obj (mergeDeep lowerRecord upperRecord)).within? ["a", "y"] = some (.arr []) ∧
      (Json.obj (mergeDeep lowerRecord upperRecord)).within? ["a", "y", "p"] = none ∧
      (Json.obj (mergeDeep lowerRecord upperRecord)).within? ["a", "x"] = some (.bool true) ∧
      mergeDeep (mergeDeep lowerRecord upperRecord) upperRecord =
        mergeDeep lowerRecord upperRecord := by
  have hlower : lowerRecord.WellFormed := by decide +kernel
  have hupper : upperRecord.WellFormed := by decide +kernel
  obtain ⟨⟨hwins, hbelow, hleaves, -⟩, hagain, -⟩ := mergeDeep_laws hlower hupper
  have hlist : (Json.obj upperRecord).within? ["a", "y"] = some (.arr []) := by decide +kernel
  refine ⟨hlower, hupper, hwins _ _ rfl hlist, hbelow _ ?_, (hleaves _ ?_).trans ?_, hagain⟩
  · exact ⟨["a", "y"], ["p"], .arr [], rfl, List.cons_ne_nil _ _, rfl, hlist⟩
  · exact ⟨["a"], "x", [], [("y", .arr [])], rfl, by decide +kernel, by decide +kernel⟩
  · decide +kernel

end Record

end UserDirectory
