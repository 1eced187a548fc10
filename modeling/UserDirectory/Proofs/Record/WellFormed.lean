import UserDirectory.Proofs.Record.Paths
import UserDirectory.Record.Extract

/-!
# Well-formed records

Readers produce well-formed values, in which every object holds each key once and in
order. Whatever is done to records keeps them well formed: looking a value up,
writing one, laying records over each other, merging and extracting. So the laws of
records that need it may be used at every stage of their way in or out.
-/

namespace UserDirectory

/-! ## Values -/

theorem Json.wellFormedFields_iff {fields : List (String × Json)} :
    WellFormedFields fields ↔ ∀ e ∈ fields, e.2.WellFormed := by
  induction fields with
  | nil => exact ⟨fun _ => nofun, fun _ => trivial⟩
  | cons e rest ih => rw [WellFormedFields, ih, List.forall_mem_cons]

theorem Json.wellFormedItems_iff {items : List Json} :
    WellFormedItems items ↔ ∀ v ∈ items, v.WellFormed := by
  induction items with
  | nil => exact ⟨fun _ => nofun, fun _ => trivial⟩
  | cons v rest ih => rw [WellFormedItems, ih, List.forall_mem_cons]

mutual

/-- Whether a value is well formed is decided node by node. -/
def Json.decWellFormed : (v : Json) → Decidable v.WellFormed
  | .arr items => Json.decWellFormedItems items
  | .obj fields =>
    match (inferInstance : Decidable (Table.Ordered fields)), Json.decWellFormedFields fields with
    | isTrue h, isTrue h' => isTrue ⟨h, h'⟩
    | isFalse h, _ => isFalse fun hv => h hv.1
    | _, isFalse h => isFalse fun hv => h hv.2
  | .null | .bool _ | .num _ | .str _ => isTrue trivial

/-- Whether all items are well formed. -/
def Json.decWellFormedItems : (items : List Json) → Decidable (Json.WellFormedItems items)
  | [] => isTrue trivial
  | v :: rest =>
    match Json.decWellFormed v, Json.decWellFormedItems rest with
    | isTrue h, isTrue h' => isTrue ⟨h, h'⟩
    | isFalse h, _ => isFalse fun hv => h hv.1
    | _, isFalse h => isFalse fun hv => h hv.2

/-- Whether the values of all fields are well formed. -/
def Json.decWellFormedFields :
    (fields : List (String × Json)) → Decidable (Json.WellFormedFields fields)
  | [] => isTrue trivial
  | (_, v) :: rest =>
    match Json.decWellFormed v, Json.decWellFormedFields rest with
    | isTrue h, isTrue h' => isTrue ⟨h, h'⟩
    | isFalse h, _ => isFalse fun hv => h hv.1
    | _, isFalse h => isFalse fun hv => h hv.2

end

namespace Record

/-- **The record is well formed**: its keys are in order, and its values are well
formed. -/
def WellFormed (r : Record) : Prop := (Json.obj r).WellFormed

instance (r : Record) : Decidable r.WellFormed := Json.decWellFormed (.obj r)

theorem wellFormed_iff {r : Record} :
    r.WellFormed ↔ Table.Ordered r ∧ ∀ e ∈ r, e.2.WellFormed :=
  and_congr_right' Json.wellFormedFields_iff

namespace WellFormed

variable {r s : Record}

theorem ordered (h : r.WellFormed) : Table.Ordered r := (wellFormed_iff.1 h).1

theorem of_mem (h : r.WellFormed) {e : String × Json} (he : e ∈ r) : e.2.WellFormed :=
  (wellFormed_iff.1 h).2 e he

theorem nil : WellFormed [] := wellFormed_iff.2 ⟨Table.ordered_nil, nofun⟩

theorem of_get? (h : r.WellFormed) {key : String} {v : Json} (hv : Table.get? r key = some v) :
    v.WellFormed :=
  h.of_mem (Table.mem_of_get? hv)

theorem insert (h : r.WellFormed) (key : String) {v : Json} (hv : v.WellFormed) :
    WellFormed (Table.insert r key v) := by
  refine wellFormed_iff.2 ⟨h.ordered.insert key v, fun e he => ?_⟩
  rcases Table.mem_insert he with rfl | he
  · exact hv
  · exact h.of_mem he

theorem restrict (h : r.WellFormed) (keep : String → Bool) :
    WellFormed (Table.restrict r keep) :=
  wellFormed_iff.2 ⟨h.ordered.restrict keep, fun _ he => h.of_mem (List.mem_of_mem_filter he)⟩

theorem overlay (h : r.WellFormed) (hs : s.WellFormed) : WellFormed (Table.overlay r s) := by
  refine wellFormed_iff.2 ⟨h.ordered.overlay s, fun e he => ?_⟩
  rcases Table.mem_overlay he with he | he
  · exact h.of_mem he
  · exact hs.of_mem he

/-- The object in a field, or an empty one, is well formed. -/
theorem fieldsOrNone {v : Option Json} (h : ∀ w ∈ v, w.WellFormed) :
    WellFormed (Json.fieldsOrNone v) := by
  match v with
  | some (.obj fields) => exact h _ rfl
  | none | some .null | some (.bool _) | some (.num _) | some (.str _) | some (.arr _) => exact nil

theorem setAt (h : r.WellFormed) (path : List String) {v : Json} (hv : v.WellFormed) :
    WellFormed (setAt r path v) := by
  induction path generalizing r with
  | nil => exact h
  | cons segment rest ih =>
    by_cases hrest : rest = []
    · subst hrest
      exact h.insert segment hv
    · rw [setAt_cons r segment hrest]
      exact h.insert segment (ih (fieldsOrNone fun w hw => h.of_get? hw))

theorem setAll (h : r.WellFormed) {writes : List (List String × Json)}
    (hw : ∀ w ∈ writes, w.2.WellFormed) : WellFormed (setAll r writes) := by
  induction writes generalizing r with
  | nil => exact h
  | cons w rest ih =>
    rw [List.forall_mem_cons] at hw
    exact ih (h.setAt w.1 hw.1) hw.2

end WellFormed

end Record

namespace Json

theorem WellFormed.child? {v w : Json} {segment : String} (h : v.WellFormed)
    (hw : v.child? segment = some w) : w.WellFormed := by
  cases v with
  | obj fields => exact Record.WellFormed.of_get? h hw
  | arr items =>
    obtain ⟨i, -, hi⟩ := Option.bind_eq_some_iff.1 hw
    exact wellFormedItems_iff.1 h w (List.mem_of_getElem? hi)
  | _ => exact absurd hw nofun

theorem WellFormed.walk? {v w : Json} {path : List String} (h : v.WellFormed)
    (hw : v.walk? path = some w) : w.WellFormed := by
  induction path generalizing v with
  | nil => exact Option.some.inj hw ▸ h
  | cons segment rest ih =>
    obtain ⟨child, hchild, hw⟩ := Option.bind_eq_some_iff.1 hw
    exact ih (h.child? hchild) hw

/-- **What is found in a well-formed value is well formed.** -/
theorem WellFormed.at? {v w : Json} {path : String} (h : v.WellFormed) (hw : v.at? path = some w) :
    w.WellFormed := by
  unfold Json.at? at hw
  split at hw
  · exact Option.some.inj hw ▸ h
  · split at hw
    · next direct hdirect =>
      obtain rfl := Option.some.inj hw
      obtain ⟨fields, hfields, hget⟩ := Option.bind_eq_some_iff.1 hdirect
      cases v with
      | obj fields =>
        obtain rfl := Option.some.inj hfields
        exact Record.WellFormed.of_get? h hget
      | _ => exact absurd hfields nofun
    · exact h.walk? hw

end Json

/-! ## Merging -/

mutual

theorem Json.WellFormed.mergeOver {existing : Option Json} (he : ∀ w ∈ existing, w.WellFormed) :
    (v : Json) → v.WellFormed → (v.mergeOver existing).WellFormed
  | .obj fields, h =>
    Record.WellFormed.mergeDeep_fields fields h.2 (Record.WellFormed.fieldsOrNone he)
  | .arr _, h | .null, h | .bool _, h | .num _, h | .str _, h => h

theorem Record.WellFormed.mergeDeep_fields :
    (fields : List (String × Json)) → Json.WellFormedFields fields → ∀ {t : Record},
      t.WellFormed → Record.WellFormed (Record.mergeDeep t fields)
  | [], _, _, ht => ht
  | (key, v) :: rest, h, _, ht =>
    Record.WellFormed.mergeDeep_fields rest h.2
      (ht.insert key (Json.WellFormed.mergeOver (fun _ hw => ht.of_get? hw) v h.1))

end

/-- **Merging keeps records well formed.** -/
theorem Record.WellFormed.mergeDeep {t s : Record} (ht : t.WellFormed) (hs : s.WellFormed) :
    Record.WellFormed (Record.mergeDeep t s) :=
  mergeDeep_fields s hs.2 ht

end UserDirectory
