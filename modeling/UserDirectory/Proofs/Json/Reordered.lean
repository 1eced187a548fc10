import Mathlib.Data.List.Perm.Basic
import UserDirectory.Proofs.Json.Printed
import UserDirectory.Proofs.Table

/-!
# Values up to the order of fields

The fields of an object have no order of their own: two trees that list them differently,
at any depth, hold the same content (`Json.SameContent`). Items do have an order, and a
number is known by its digits only.

Two trees are compared by bringing both into ascending order. That this loses nothing
needs each key to be held once (`Json.DistinctKeys`): ordering is then a permutation of
the fields of every object (`Table.perm_ofList`), and it forgets no more than what
permutations forget, since fields with distinct keys have one ascending order only
(`Json.alike_ordered_iff`).
-/

namespace UserDirectory

/-! ## Tables of distinct keys -/

namespace Table

variable {α : Type}

/-- A new key adds an entry to those that there are. -/
theorem perm_insert {t : Table α} {k : String} (h : get? t k = none) (v : α) :
    (insert t k v).Perm ((k, v) :: t) := by
  obtain ⟨before, after, rfl, hinsert⟩ := exists_insert_of_get?_eq_none h v
  rw [hinsert]
  exact List.perm_middle

/-- **Distinct keys keep all their entries**, in a table laid over another one. -/
theorem perm_overlay {t u : Table α} (h : (keys (t ++ u)).Nodup) : (overlay t u).Perm (t ++ u) := by
  induction u generalizing t with
  | nil =>
    rw [List.append_nil]
    exact .refl t
  | cons e rest ih =>
    have hnew : get? t e.1 = none := by
      refine get?_eq_none_iff.2 fun f hf heq => ?_
      rw [keys, List.map_append, List.map_cons] at h
      exact (List.nodup_append.1 h).2.2 f.1 (List.mem_map_of_mem hf) e.1 List.mem_cons_self heq
    have hinsert : (insert t e.1 e.2 ++ rest).Perm (t ++ e :: rest) :=
      ((perm_insert hnew e.2).append_right rest).trans List.perm_middle.symm
    exact (ih ((hinsert.map _).nodup_iff.2 h)).trans hinsert

theorem perm_ofList {pairs : List (String × α)} (h : (keys pairs).Nodup) :
    (ofList pairs).Perm pairs :=
  perm_overlay h

/-- **Distinct keys have one ascending order.** -/
theorem ofList_eq_of_perm {pairs others : List (String × α)} (h : (keys pairs).Nodup)
    (hperm : pairs.Perm others) : ofList pairs = ofList others := by
  have hothers : (keys others).Nodup := (hperm.map _).nodup_iff.1 h
  have htables : (ofList pairs).Perm (ofList others) :=
    ((perm_ofList h).trans hperm).trans (perm_ofList hothers).symm
  exact htables.eq_of_pairwise
    (fun _ _ _ _ hab hba => absurd (String.lt_trans hab hba) (String.lt_irrefl _))
    (ordered_ofList pairs) (ordered_ofList others)

end Table

namespace Json

/-! ## Values that are alike -/

mutual

/-- **Values that are alike have one text.** -/
theorem chars_eq_of_alike (v w : Json) (h : v.Alike w) : v.chars = w.chars := by
  match v, w, h with
  | .null, .null, _ => rfl
  | .bool a, .bool b, h => rw [show a = b from h]
  | .num a, .num b, h => rw [chars, chars, show a.text = b.text from h]
  | .str a, .str b, h => rw [show a = b from h]
  | .arr a, .arr b, h => rw [chars, chars, itemChars_eq_of_alike a b h]
  | .obj a, .obj b, h => rw [chars, chars, fieldChars_eq_of_alike a b h]

/-- Items that are alike have one text. -/
theorem itemChars_eq_of_alike (vs ws : List Json) (h : AlikeItems vs ws) :
    itemChars vs = itemChars ws := by
  match vs, ws, h with
  | [], [], _ => rfl
  | [v], [w], h => rw [itemChars, itemChars, chars_eq_of_alike v w h.1]
  | v :: v' :: vs, w :: w' :: ws, h =>
    rw [itemChars_cons, itemChars_cons, furtherItems, furtherItems, chars_eq_of_alike v w h.1,
      itemChars_eq_of_alike (v' :: vs) (w' :: ws) h.2]

/-- Fields that are alike have one text. -/
theorem fieldChars_eq_of_alike (vs ws : List (String × Json)) (h : AlikeFields vs ws) :
    fieldChars vs = fieldChars ws := by
  match vs, ws, h with
  | [], [], _ => rfl
  | [(k, v)], [(l, w)], h =>
    rw [fieldChars, fieldChars, chars_eq_of_alike v w h.2.1, show k = l from h.1]
  | (k, v) :: e :: vs, (l, w) :: f :: ws, h =>
    rw [fieldChars_cons, fieldChars_cons, furtherFields, furtherFields,
      chars_eq_of_alike v w h.2.1, fieldChars_eq_of_alike (e :: vs) (f :: ws) h.2.2,
      show k = l from h.1]

end

/-- **A text is the text of all values that are alike**, and of no other. -/
theorem text_eq_iff_alike {v w : Json} : v.text = w.text ↔ v.Alike w :=
  ⟨alike_of_text_eq, fun h => congrArg String.ofList (chars_eq_of_alike v w h)⟩

/-- Being alike, field by field. -/
theorem alikeFields_iff_forall₂ {fields others : List (String × Json)} :
    AlikeFields fields others ↔
      List.Forall₂ (fun e f => e.1 = f.1 ∧ e.2.Alike f.2) fields others := by
  induction fields generalizing others with
  | nil =>
    cases others with
    | nil => exact iff_of_true trivial .nil
    | cons f others => exact iff_of_false id nofun
  | cons e fields ih =>
    cases others with
    | nil => exact iff_of_false id nofun
    | cons f others => rw [AlikeFields, ih, List.forall₂_cons, and_assoc]

/-- A field is put at the same place among fields that are alike. -/
theorem AlikeFields.insert {t u : List (String × Json)} (h : AlikeFields t u) (k : String)
    {v w : Json} (hvalue : v.Alike w) : AlikeFields (Table.insert t k v) (Table.insert u k w) := by
  induction t generalizing u with
  | nil =>
    cases u with
    | nil => exact ⟨rfl, hvalue, trivial⟩
    | cons f u => exact absurd h id
  | cons e t ih =>
    cases u with
    | nil => exact absurd h id
    | cons f u =>
      obtain ⟨l, v'⟩ := e
      obtain ⟨l', w'⟩ := f
      obtain ⟨rfl, hhead, hrest⟩ := h
      rw [Table.insert, Table.insert]
      split
      · exact ⟨rfl, hvalue, rfl, hhead, hrest⟩
      · split
        · exact ⟨rfl, hvalue, hrest⟩
        · exact ⟨rfl, hhead, ih hrest⟩

/-- Fields that are alike make tables that are alike. -/
theorem AlikeFields.ofList {fields others : List (String × Json)} (h : AlikeFields fields others) :
    AlikeFields (Table.ofList fields) (Table.ofList others) := by
  have hover : ∀ {t u}, AlikeFields t u →
      AlikeFields (Table.overlay t fields) (Table.overlay u others) := by
    induction fields generalizing others with
    | nil =>
      cases others with
      | nil => exact id
      | cons f others => exact absurd h id
    | cons e fields ih =>
      cases others with
      | nil => exact absurd h id
      | cons f others =>
        obtain ⟨k, v⟩ := e
        obtain ⟨l, w⟩ := f
        obtain ⟨rfl, hvalue, hrest⟩ := h
        exact fun htu => ih hrest (htu.insert k hvalue)
  exact hover trivial

/-! ## The same content -/

mutual

/-- **Two values have the same content**: they are the same but for the order of the fields
of an object, at every depth, and for numbers that are written alike. -/
def SameContent : Json → Json → Prop
  | .null, .null => True
  | .bool a, .bool b => a = b
  | .num a, .num b => a.text = b.text
  | .str a, .str b => a = b
  | .arr a, .arr b => SameItems a b
  | .obj a, .obj b => ∃ c, c.Perm b ∧ SameFields a c
  | _, _ => False

/-- The items have the same content, one by one. -/
def SameItems : List Json → List Json → Prop
  | [], [] => True
  | v :: vs, w :: ws => v.SameContent w ∧ SameItems vs ws
  | _, _ => False

/-- The fields have the same keys, one by one, and values of the same content. -/
def SameFields : List (String × Json) → List (String × Json) → Prop
  | [], [] => True
  | (k, v) :: vs, (l, w) :: ws => k = l ∧ v.SameContent w ∧ SameFields vs ws
  | _, _ => False

end

mutual

/-- **Every object in the value holds each key once.** -/
def DistinctKeys : Json → Prop
  | .arr items => DistinctKeysItems items
  | .obj fields => (Table.keys fields).Nodup ∧ DistinctKeysFields fields
  | _ => True

/-- Every object in the items holds each key once. -/
def DistinctKeysItems : List Json → Prop
  | [] => True
  | v :: rest => v.DistinctKeys ∧ DistinctKeysItems rest

/-- Every object in the values of the fields holds each key once. -/
def DistinctKeysFields : List (String × Json) → Prop
  | [] => True
  | (_, v) :: rest => v.DistinctKeys ∧ DistinctKeysFields rest

end

theorem distinctKeysFields_iff {fields : List (String × Json)} :
    DistinctKeysFields fields ↔ ∀ e ∈ fields, e.2.DistinctKeys := by
  induction fields with
  | nil => exact ⟨fun _ => nofun, fun _ => trivial⟩
  | cons e rest ih => rw [DistinctKeysFields, ih, List.forall_mem_cons]

theorem orderedFields_eq_map (fields : List (String × Json)) :
    orderedFields fields = fields.map fun e => (e.1, e.2.ordered) := by
  induction fields with
  | nil => rfl
  | cons e rest ih => rw [orderedFields, ih, List.map_cons]

theorem keys_orderedFields (fields : List (String × Json)) :
    Table.keys (orderedFields fields) = Table.keys fields := by
  rw [orderedFields_eq_map, Table.keys, Table.keys, List.map_map]
  rfl

/-- **Objects are alike in order** exactly if the fields of one, ordered within, can be put
into the order of the other's. -/
theorem alikeFields_ofList_iff {a b : List (String × Json)} (ha : (Table.keys a).Nodup)
    (hb : (Table.keys b).Nodup) :
    AlikeFields (Table.ofList (orderedFields a)) (Table.ofList (orderedFields b)) ↔
      ∃ c, c.Perm b ∧ AlikeFields (orderedFields a) (orderedFields c) := by
  rw [← keys_orderedFields] at ha hb
  constructor
  · intro h
    -- the way in which ordering permutes the first is undone on the second
    obtain ⟨d, hd, hperm⟩ := List.perm_comp_forall₂ (Table.perm_ofList ha).symm
      (alikeFields_iff_forall₂.1 h)
    have hfields := hperm.trans (Table.perm_ofList hb)
    rw [orderedFields_eq_map] at hfields
    obtain ⟨c, rfl, hcb⟩ := (iff_of_eq (congrFun₂ (List.eq_map_comp_perm _) d b)).2 hfields
    rw [← orderedFields_eq_map] at hd
    exact ⟨c, hcb, alikeFields_iff_forall₂.2 hd⟩
  · rintro ⟨c, hperm, hc⟩
    have hordered : (orderedFields b).Perm (orderedFields c) := by
      rw [orderedFields_eq_map, orderedFields_eq_map]
      exact (hperm.map _).symm
    rw [Table.ofList_eq_of_perm hb hordered]
    exact hc.ofList

mutual

/-- **Ordered forms are alike exactly if the contents are the same**, each key being held
once. -/
theorem alike_ordered_iff (v w : Json) (hv : v.DistinctKeys) (hw : w.DistinctKeys) :
    v.ordered.Alike w.ordered ↔ v.SameContent w := by
  match v, w, hv, hw with
  | .null, w, _, _ | .bool _, w, _, _ | .num _, w, _, _ | .str _, w, _, _ =>
    cases w <;> exact Iff.rfl
  | .arr a, .arr b, hv, hw => exact alikeItems_ordered_iff a b hv hw
  | .arr a, .null, _, _ | .arr a, .bool _, _, _ | .arr a, .num _, _, _ | .arr a, .str _, _, _
  | .arr a, .obj _, _, _ => exact Iff.rfl
  | .obj a, .obj b, hv, hw =>
    refine (alikeFields_ofList_iff hv.1 hw.1).trans (exists_congr fun c => ?_)
    refine and_congr_right fun hperm => alikeFields_ordered_iff a c hv.2 ?_
    exact distinctKeysFields_iff.2 fun e he =>
      distinctKeysFields_iff.1 hw.2 e (hperm.mem_iff.1 he)
  | .obj a, .null, _, _ | .obj a, .bool _, _, _ | .obj a, .num _, _, _ | .obj a, .str _, _, _
  | .obj a, .arr _, _, _ => exact Iff.rfl

/-- The items of ordered forms are alike exactly if their contents are the same. -/
theorem alikeItems_ordered_iff (vs ws : List Json) (hvs : DistinctKeysItems vs)
    (hws : DistinctKeysItems ws) :
    AlikeItems (orderedItems vs) (orderedItems ws) ↔ SameItems vs ws := by
  match vs, ws, hvs, hws with
  | [], [], _, _ | [], _ :: _, _, _ | _ :: _, [], _, _ => exact Iff.rfl
  | v :: vs, w :: ws, hvs, hws =>
    exact and_congr (alike_ordered_iff v w hvs.1 hws.1)
      (alikeItems_ordered_iff vs ws hvs.2 hws.2)

/-- Fields that are ordered within are alike exactly if their contents are the same. -/
theorem alikeFields_ordered_iff (fs gs : List (String × Json)) (hfs : DistinctKeysFields fs)
    (hgs : DistinctKeysFields gs) :
    AlikeFields (orderedFields fs) (orderedFields gs) ↔ SameFields fs gs := by
  match fs, gs, hfs, hgs with
  | [], [], _, _ | [], _ :: _, _, _ | _ :: _, [], _, _ => exact Iff.rfl
  | (k, v) :: fs, (l, w) :: gs, hfs, hgs =>
    exact and_congr_right' (and_congr (alike_ordered_iff v w hfs.1 hgs.1)
      (alikeFields_ordered_iff fs gs hfs.2 hgs.2))

end

end Json

end UserDirectory
