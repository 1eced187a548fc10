import UserDirectory.Proofs.Record.WellFormed

/-!
# What a merge reads

Merging decides field by field. A field that only one record has keeps its value; one
that both have gets the incoming value written over the old one, which matters only
where both values are objects (`Record.get?_mergeDeep`). So a value of the incoming
record that is no object is found in the merged record at the same path
(`Record.walk?_mergeDeep`), and merging into nothing changes nothing.
-/

namespace UserDirectory

theorem Json.mergeOver_of_nonObject {v : Json} (h : v.NonObject) (existing : Option Json) :
    v.mergeOver existing = v := by
  cases v with
  | obj fields => exact absurd h (Option.some_ne_none _)
  | _ => rfl

/-- An object written over anything is an object. -/
theorem Json.mergeOver_obj_ne {v : Json} (h : v.NonObject) (fields : Record)
    (existing : Option Json) : (Json.obj fields).mergeOver existing ≠ v := by
  rintro rfl
  exact Option.some_ne_none _ h

namespace Record

/-- **A merge decides field by field.** -/
theorem get?_mergeDeep (t : Record) {s : Record} (hs : Table.Ordered s) (key : String) :
    Table.get? (mergeDeep t s) key =
      match Table.get? s key with
      | some v => some (v.mergeOver (Table.get? t key))
      | none => Table.get? t key := by
  induction s generalizing t with
  | nil => rfl
  | cons e rest ih =>
    obtain ⟨k, v⟩ := e
    rw [mergeDeep, ih _ (List.pairwise_cons.1 hs).2, Table.get?_cons]
    by_cases hk : key = k
    · subst hk
      rw [if_pos rfl, hs.get?_rest]
      exact Table.get?_insert_self t key _
    · rw [if_neg hk, Table.get?_insert_of_ne _ _ hk]

theorem get?_mergeDeep_of_none (t : Record) {s : Record} (hs : Table.Ordered s) {key : String}
    (h : Table.get? s key = none) : Table.get? (mergeDeep t s) key = Table.get? t key := by
  rw [get?_mergeDeep t hs, h]

theorem get?_mergeDeep_of_some (t : Record) {s : Record} (hs : Table.Ordered s) {key : String}
    {v : Json} (h : Table.get? s key = some v) :
    Table.get? (mergeDeep t s) key = some (v.mergeOver (Table.get? t key)) := by
  rw [get?_mergeDeep t hs, h]

/-- **What comes in is found where it was**, unless it is an object. -/
theorem walk?_mergeDeep {path : List String} (hne : path ≠ []) (t : Record) {s : Record}
    (hs : s.WellFormed) {v : Json} (hv : v.NonObject) (h : (Json.obj s).walk? path = some v) :
    (Json.obj (mergeDeep t s)).walk? path = some v := by
  induction path generalizing t s with
  | nil => exact absurd rfl hne
  | cons segment rest ih =>
    obtain ⟨child, hchild, hrest⟩ := Option.bind_eq_some_iff.1 h
    rw [Json.walk?_obj_cons, get?_mergeDeep_of_some t hs.ordered hchild, Option.bind_some]
    cases child with
    | obj fields =>
      -- the path goes on in an object, into which the old fields are merged
      have hrest' : rest ≠ [] := by
        rintro rfl
        obtain rfl := Option.some.inj hrest
        exact Option.some_ne_none _ hv
      exact ih hrest' _ (hs.of_get? hchild) hrest
    | _ => exact hrest

/-- The way to what comes in stays one of objects. -/
theorem leads_mergeDeep {path : List String} (t : Record) {s : Record} (hs : s.WellFormed)
    (hleads : s.Leads path) {v : Json} (h : (Json.obj s).walk? path = some v) :
    Leads (mergeDeep t s) path := by
  induction path generalizing t s with
  | nil => trivial
  | cons segment rest ih =>
    by_cases hrest : rest = []
    · subst hrest
      trivial
    · rw [leads_cons_iff hrest] at hleads ⊢
      obtain ⟨child, hchild, hwalk⟩ := Option.bind_eq_some_iff.1 h
      obtain ⟨inner, rfl, hinner⟩ := hleads child hchild
      rw [get?_mergeDeep_of_some t hs.ordered hchild]
      rintro w hw
      obtain rfl := Option.some.inj hw
      exact ⟨_, rfl, ih _ (hs.of_get? hchild) hinner hwalk⟩

theorem ordered_mergeDeep {t : Record} (ht : Table.Ordered t) (s : Record) :
    Table.Ordered (mergeDeep t s) := by
  induction s generalizing t with
  | nil => exact ht
  | cons e rest ih =>
    rw [mergeDeep]
    exact ih (ht.insert e.1 _)

end Record

/-! ## Merging into nothing -/

mutual

theorem Json.mergeOver_none : (v : Json) → v.WellFormed → v.mergeOver none = v
  | .obj fields, h => congrArg Json.obj <|
    (Record.ordered_mergeDeep Table.ordered_nil fields).ext h.1 fun key => by
      rw [Record.get?_mergeDeep [] h.1]
      cases hget : Table.get? fields key with
      | none => rfl
      | some v =>
        exact congrArg some (Json.mergeOver_none_of_mem fields h.2 _ (Table.mem_of_get? hget))
  | .arr _, _ | .null, _ | .bool _, _ | .num _, _ | .str _, _ => rfl

theorem Json.mergeOver_none_of_mem :
    (fields : List (String × Json)) → Json.WellFormedFields fields →
      ∀ e ∈ fields, e.2.mergeOver none = e.2
  | [], _ => nofun
  | (_, v) :: rest, h => List.forall_mem_cons.2
    ⟨Json.mergeOver_none v h.1, Json.mergeOver_none_of_mem rest h.2⟩

end

/-- **A record merged into nothing is itself.** -/
theorem Record.mergeDeep_nil {r : Record} (h : r.WellFormed) : Record.mergeDeep [] r = r :=
  Json.obj.inj (Json.mergeOver_none (.obj r) h)

end UserDirectory
