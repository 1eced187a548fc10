import UserDirectory.Attributes.Normalizer
import UserDirectory.Proofs.Json.Visits
import UserDirectory.Proofs.Record.Copies

/-!
# Dates in records

Bringing the dates of a record to one form is a visit of its tree: at each node the
visitor sees the name of the field, or the index of the item, and replaces the value if
this is the name of a date field. What replaces a date has no nodes below it, so the
visit comes to an end.
-/

namespace UserDirectory

/-- **What becomes of a value under a name**, that of its field or its index. -/
def Json.coerceUnder (dates : List String) (key : String) (v : Json) : Json :=
  if dates.contains key then coerceTimestamp v else v.coerceDates dates

theorem Json.coerceDateFields_eq_map (dates : List String) (fields : List (String × Json)) :
    coerceDateFields dates fields = fields.map fun e => (e.1, coerceUnder dates e.1 e.2) := by
  induction fields with
  | nil => rfl
  | cons e rest ih =>
    rw [coerceDateFields, ih]
    rfl

/-- **A field is coerced under its own name.** -/
theorem Json.get?_coerceDateFields (dates : List String) (fields : Record) (key : String) :
    Table.get? (coerceDateFields dates fields) key =
      (Table.get? fields key).map (coerceUnder dates key) := by
  rw [coerceDateFields_eq_map]
  induction fields with
  | nil => rfl
  | cons e rest ih =>
    obtain ⟨k, v⟩ := e
    rw [List.map_cons, Table.get?_cons, Table.get?_cons, ih]
    split
    · next hkey => rw [hkey, Option.map_some]
    · rfl

theorem Json.coerceDateItems_eq_map (dates : List String) (i : Nat) (items : List Json) :
    coerceDateItems dates i items =
      (items.zipIdx i).map fun e => coerceUnder dates (toString e.2) e.1 := by
  induction items generalizing i with
  | nil => rfl
  | cons v rest ih =>
    rw [coerceDateItems, ih]
    rfl

/-! ## Records that come in -/

theorem Json.wellFormed_coerceTimestamp (v : Json) : (coerceTimestamp v).WellFormed := by
  unfold coerceTimestamp
  split <;> trivial

/-- The names of the fields stay, and with them their order. -/
theorem Json.ordered_coerceDateFields (dates : List String) {fields : Record}
    (h : Table.Ordered fields) : Table.Ordered (coerceDateFields dates fields) := by
  rw [coerceDateFields_eq_map]
  exact List.pairwise_map.2 h

mutual

/-- **Coercing dates keeps values well formed.** -/
theorem Json.WellFormed.coerceDates (dates : List String) :
    (v : Json) → v.WellFormed → (v.coerceDates dates).WellFormed
  | .obj fields, h =>
    ⟨ordered_coerceDateFields dates h.1, Json.WellFormed.coerceDateFields dates fields h.2⟩
  | .arr items, h => Json.WellFormed.coerceDateItems dates 0 items h
  | .null, h | .bool _, h | .num _, h | .str _, h => h

theorem Json.WellFormed.coerceDateFields (dates : List String) :
    (fields : List (String × Json)) → Json.WellFormedFields fields →
      Json.WellFormedFields (Json.coerceDateFields dates fields)
  | [], h => h
  | (key, v) :: rest, h => by
    refine ⟨?_, Json.WellFormed.coerceDateFields dates rest h.2⟩
    split
    · exact wellFormed_coerceTimestamp v
    · exact Json.WellFormed.coerceDates dates v h.1

theorem Json.WellFormed.coerceDateItems (dates : List String) (i : Nat) :
    (items : List Json) → Json.WellFormedItems items →
      Json.WellFormedItems (Json.coerceDateItems dates i items)
  | [], h => h
  | v :: rest, h => by
    refine ⟨?_, Json.WellFormed.coerceDateItems dates (i + 1) rest h.2⟩
    split
    · exact wellFormed_coerceTimestamp v
    · exact Json.WellFormed.coerceDates dates v h.1

end

/-- **A field comes in with its dates coerced**, from where the mapping has copied it. -/
theorem Normalizer.get?_normalize (n : Normalizer) (external : Record) (key : String) :
    Table.get? (n.normalize external) key =
      (Table.get? (Record.copyPairs external n.mapping.live) key).map
        (Json.coerceUnder n.dates key) :=
  Json.get?_coerceDateFields n.dates _ key

/-- **A record that comes in is well formed** if that of the directory is. -/
theorem Record.WellFormed.normalize {external : Record} (h : external.WellFormed) (n : Normalizer) :
    Record.WellFormed (n.normalize external) :=
  Json.WellFormed.coerceDates n.dates (.obj _) (h.extract n.mapping.live false)

/-! ## Coercing as a visit -/

theorem height_coerceTimestamp (v : Json) : (coerceTimestamp v).height = 0 := by
  unfold coerceTimestamp
  split <;> rfl

/-- The visitor that replaces date fields. -/
def dateVisitor (dates : List String) (node : Node) (v : Json) : StateM Unit (Option Json) :=
  pure (if node.key?.any dates.contains then some (coerceTimestamp v) else none)

/-- The whole value has no name and is left alone. -/
theorem dateVisitor_root (dates : List String) (v : Json) :
    dateVisitor dates .root v = pure none := rfl

theorem dateVisitor_child (dates : List String) (node : Node) (key : String) (v : Json) :
    dateVisitor dates (node.child key) v =
      pure (if dates.contains key then some (coerceTimestamp v) else none) := by
  rw [dateVisitor, Node.key?_child]
  rfl

/-- **Visiting a node that is left alone** coerces the dates below it. -/
theorem visit?_coerceDates (dates : List String) {bound : Nat} {v : Json} (h : v.height < bound)
    {node : Node} (hnode : dateVisitor dates node v = pure none) :
    Json.visit? (dateVisitor dates) bound node v = pure (v.coerceDates dates) := by
  induction bound generalizing v node with
  | zero => exact absurd h (Nat.not_lt_zero _)
  | succ bound ih =>
    -- a child is replaced, or left alone and visited in its turn
    have hchild : ∀ (key : String) (child : Json), child.height < bound →
        Json.visit? (dateVisitor dates) bound (node.child key) child
          = pure (Json.coerceUnder dates key child) := by
      intro key child hheight
      have hvisit := dateVisitor_child dates node key child
      unfold Json.coerceUnder
      split at hvisit
      · next hdate =>
        rw [if_pos hdate]
        obtain ⟨bound, rfl⟩ := Nat.exists_eq_add_one.2 (Nat.zero_lt_of_lt hheight)
        exact Json.visit?_of_replaced hvisit (height_coerceTimestamp child)
      · next hdate =>
        rw [if_neg hdate]
        exact ih hheight hvisit
    cases v with
    | obj fields =>
      have hfields := Json.visit?_obj hnode fun e he => hchild e.1 e.2
        (Nat.lt_of_le_of_lt (Json.height_le_of_mem_fields he) (Nat.lt_of_succ_lt_succ h))
      rw [hfields, Json.coerceDates, Json.coerceDateFields_eq_map]
    | arr items =>
      have hitems := Json.visit?_arr hnode fun e he => hchild (toString e.2) e.1
        (Nat.lt_of_le_of_lt (Json.height_le_of_mem_items (List.fst_mem_of_mem_zipIdx he))
          (Nat.lt_of_succ_lt_succ h))
      rw [hitems, Json.coerceDates, Json.coerceDateItems_eq_map]
    | _ =>
      rw [Json.visit?, hnode]
      rfl

/-- **A record that comes in is visited for its dates** after the mapping. -/
theorem Normalizer.visit?_extract (n : Normalizer) (external : Record) {bound : Nat}
    (h : (Json.obj (Record.extract external n.mapping.live false)).height < bound) :
    Json.visit? (dateVisitor n.dates) bound .root
      (.obj (Record.extract external n.mapping.live false)) = pure (.obj (n.normalize external)) :=
  visit?_coerceDates n.dates h (dateVisitor_root n.dates _)

end UserDirectory
