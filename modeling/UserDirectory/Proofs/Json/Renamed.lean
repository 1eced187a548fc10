import UserDirectory.Proofs.Json.Nodes
import UserDirectory.Proofs.Json.Reordered
import UserDirectory.Proofs.Json.Visits

/-!
# Renaming fields by their names

A traversal that renames the fields of every object makes new tables as it goes, and these
are put into the order of the new names. So a second renaming goes through the fields in an
order that the first one did not have. That this does not matter is a law of tables with
distinct keys: they come out the same from every order (`Table.ofList_eq_of_perm`). Hence two
renamings are one, as long as no two keys of an object get the same name in the end
(`Json.rename_rename`).

Where two keys do get the same name, the later one wins, and as the fields of a well-formed
object are in ascending order, this is the greatest (`Table.get?_ofList_rename_iff`). The
traversal that also replaces values is this one if it leaves them as they are
(`Json.mapEntries?_of_kept`).
-/

namespace UserDirectory

/-! ## Tables of renamed keys -/

namespace Table

variable {α β : Type}

/-- A layer of any order counts from its end. -/
theorem get?_overlay_reverse (t : Table α) (u : List (String × α)) (key : String) :
    get? (overlay t u) key = (get? u.reverse key).or (get? t key) := by
  induction u generalizing t with
  | nil => rfl
  | cons e rest ih =>
    have hstep : overlay t (e :: rest) = overlay (insert t e.1 e.2) rest := rfl
    have hlast : get? (rest.reverse ++ [e]) key = (get? rest.reverse key).or (get? [e] key) :=
      List.lookup_append
    rw [hstep, ih, get?_insert, List.reverse_cons, hlast, Option.or_assoc, get?_cons]
    split <;> rfl

/-- **Of entries with one key, the last counts.** -/
theorem get?_ofList_eq_some_iff {pairs : List (String × α)} {key : String} {value : α} :
    get? (ofList pairs) key = some value ↔
      ∃ before after, pairs = before ++ (key, value) :: after ∧ ∀ e ∈ after, e.1 ≠ key := by
  have hreverse : get? (ofList pairs) key = get? pairs.reverse key :=
    (get?_overlay_reverse [] pairs key).trans Option.or_none
  rw [hreverse, get?, List.lookup_eq_some_iff]
  constructor
  · rintro ⟨after, before, hsplit, hafter⟩
    refine ⟨before.reverse, after.reverse, ?_, fun e he => ?_⟩
    · rw [← List.reverse_reverse pairs, hsplit, List.reverse_append, List.reverse_cons,
        List.append_assoc]
      rfl
    · exact (bne_iff_ne.1 (hafter e (List.mem_reverse.1 he))).symm
  · rintro ⟨before, after, rfl, hafter⟩
    refine ⟨after.reverse, before.reverse, ?_, fun e he => ?_⟩
    · rw [List.reverse_append, List.reverse_cons, List.append_assoc]
      rfl
    · exact bne_iff_ne.2 (hafter e (List.mem_reverse.1 he)).symm

theorem mem_ofList {pairs : List (String × α)} {e : String × α} (h : e ∈ ofList pairs) :
    e ∈ pairs :=
  (mem_overlay h).resolve_left List.not_mem_nil

theorem keys_rename (t : List (String × α)) (f : String → String) (g : α → β) :
    keys (t.map fun e => (f e.1, g e.2)) = (keys t).map f := by
  rw [keys, keys, List.map_map, List.map_map]
  rfl

/-- **Of keys that get one name, the greatest counts.** -/
theorem get?_ofList_rename_iff {t : Table α} (ht : Ordered t) (f : String → String) (g : α → β)
    {name : String} {w : β} :
    get? (ofList (t.map fun e => (f e.1, g e.2))) name = some w ↔
      ∃ k v, (k, v) ∈ t ∧ f k = name ∧ (∀ l ∈ keys t, f l = name → l ≤ k) ∧ w = g v := by
  rw [get?_ofList_eq_some_iff]
  constructor
  · rintro ⟨before, after, hsplit, hafter⟩
    obtain ⟨lower, upper, rfl, rfl, hupper⟩ := List.map_eq_append_iff.1 hsplit
    obtain ⟨⟨k, v⟩, upper, rfl, hpair, rfl⟩ := List.map_eq_cons_iff.1 hupper
    obtain ⟨rfl, rfl⟩ := Prod.mk.inj hpair
    refine ⟨k, v, List.mem_append_right _ List.mem_cons_self, rfl, fun l hl hname => ?_, rfl⟩
    obtain ⟨e, he, rfl⟩ := List.mem_map.1 hl
    rcases List.mem_append.1 he with he | he
    · -- the keys before it are less
      exact Std.le_of_lt ((List.pairwise_append.1 ht).2.2 e he (k, v) List.mem_cons_self)
    · rcases List.mem_cons.1 he with rfl | he
      · exact Std.le_refl k
      · exact absurd hname (hafter _ (List.mem_map_of_mem he))
  · rintro ⟨k, v, hmem, rfl, hgreatest, rfl⟩
    obtain ⟨lower, upper, rfl⟩ := List.append_of_mem hmem
    refine ⟨lower.map _, upper.map _, by rw [List.map_append, List.map_cons], fun e he hname => ?_⟩
    obtain ⟨e, hupper, rfl⟩ := List.mem_map.1 he
    -- a later key is greater, so it has another name
    have hlt : k < e.1 :=
      (List.pairwise_cons.1 (List.pairwise_append.1 ht).2.1).1 e hupper
    have hle : e.1 ≤ k := hgreatest e.1
      (List.mem_map_of_mem (List.mem_append_right _ (List.mem_cons_of_mem _ hupper))) hname
    exact Std.not_lt.2 hle hlt

end Table

namespace Json

/-! ## Renaming -/

theorem mapFieldKeys_eq_map (rename : String → Json → String) (fields : List (String × Json)) :
    mapFieldKeys rename fields = fields.map fun e => (rename e.1 e.2, e.2.mapKeys rename) := by
  induction fields with
  | nil => rfl
  | cons e rest ih => rw [mapFieldKeys, ih, List.map_cons]

theorem mapItemKeys_eq_map (rename : String → Json → String) (items : List Json) :
    mapItemKeys rename items = items.map (mapKeys rename) := by
  induction items with
  | nil => rfl
  | cons v rest ih => rw [mapItemKeys, ih, List.map_cons]

/-- **A rewriting that replaces no value** is a renaming. -/
theorem mapEntries?_of_kept (rename : String → Json → String) {bound : Nat} {v : Json}
    (h : v.height < bound) :
    mapEntries? rename (fun _ w => w) bound v = some (v.mapKeys rename) := by
  induction bound generalizing v with
  | zero => exact absurd h (Nat.not_lt_zero _)
  | succ bound ih =>
    cases v with
    | obj fields =>
      have hfields : ∀ e ∈ fields, (do
          let child ← mapEntries? rename (fun _ w => w) bound e.2
          pure (rename e.1 e.2, child) : Option (String × Json)) =
            pure (rename e.1 e.2, e.2.mapKeys rename) := by
        intro e he
        rw [ih (Nat.lt_of_le_of_lt (height_le_of_mem_fields he) (Nat.lt_of_succ_lt_succ h))]
        rfl
      rw [mapEntries?, mapKeys, mapFieldKeys_eq_map]
      show (fields.mapM _ >>= _) = _
      rw [mapM_eq_pure hfields]
      rfl
    | arr items =>
      have hitems : ∀ v ∈ items, mapEntries? rename (fun _ w => w) bound v =
          pure (v.mapKeys rename) := fun v hv =>
        ih (Nat.lt_of_le_of_lt (height_le_of_mem_items hv) (Nat.lt_of_succ_lt_succ h))
      rw [mapEntries?, mapKeys, mapItemKeys_eq_map, mapM_eq_pure hitems]
      rfl
    | _ => rfl

/-- **Renames every field by its name alone.** -/
def rename (f : String → String) (v : Json) : Json := v.mapKeys fun key _ => f key

theorem rename_obj (f : String → String) (fields : List (String × Json)) :
    (Json.obj fields).rename f =
      .obj (Table.ofList (fields.map fun e => (f e.1, e.2.rename f))) := by
  rw [rename, mapKeys, mapFieldKeys_eq_map]
  rfl

theorem rename_arr (f : String → String) (items : List Json) :
    (Json.arr items).rename f = .arr (items.map (rename f)) := by
  rw [rename, mapKeys, mapItemKeys_eq_map]
  rfl

/-- **No two keys of an object get the same name**, at any depth. -/
def KeysApart (f : String → String) (v : Json) : Prop :=
  ∀ path fields, v.HasNode path (.obj fields) →
    ∀ k ∈ Table.keys fields, ∀ l ∈ Table.keys fields, f k = f l → k = l

instance (f : String → String) (v : Json) : Decidable (v.KeysApart f) :=
  decidable_of_iff (∀ n ∈ v.nodes .root, ∀ k ∈ Table.keys (fieldsOrNone (some n.2)),
    ∀ l ∈ Table.keys (fieldsOrNone (some n.2)), f k = f l → k = l) <| by
    constructor
    · intro h path fields hpath
      exact h (⟨path⟩, .obj fields) (mem_nodes_iff.2 ⟨path, rfl, hpath⟩)
    · rintro h ⟨place, w⟩ hnode
      obtain ⟨path, -, hpath⟩ := mem_nodes_iff.1 hnode
      cases w with
      | obj fields => exact h path fields hpath
      | _ => exact fun _ => nofun

variable {f g : String → String} {v : Json}

theorem KeysApart.of_child (h : v.KeysApart f) {e : String × Json} (he : e ∈ v.children) :
    e.2.KeysApart f :=
  fun path fields hpath => h (e.1 :: path) fields (.step he hpath)

/-- The new names of an object are distinct. -/
theorem KeysApart.nodup {fields : List (String × Json)} (h : (Json.obj fields).KeysApart f)
    (hfields : Table.Ordered fields) : ((Table.keys fields).map f).Nodup :=
  hfields.nodup_keys.map_on fun k hk l hl => h [] fields (.here _) k hk l hl

/-- **Two renamings are one.** -/
theorem rename_rename (hv : v.WellFormed) (h : v.KeysApart (f ∘ g)) :
    (v.rename g).rename f = v.rename (f ∘ g) := by
  induction v using children_induction with
  | step v ih =>
    have hchildren : ∀ e ∈ v.children, (e.2.rename g).rename f = e.2.rename (f ∘ g) :=
      fun e he => ih e he (hv.of_mem_children he) (h.of_child he)
    cases v with
    | obj fields =>
      rw [rename_obj, rename_obj, rename_obj]
      -- the names in between are distinct, as they are in the end
      have hnames := h.nodup hv.1
      have hbetween : (Table.keys (fields.map fun e => (g e.1, e.2.rename g))).Nodup := by
        rw [← List.map_map] at hnames
        rw [Table.keys_rename]
        exact hnames.of_map
      have hperm := (Table.perm_ofList hbetween).map fun e => (f e.1, e.2.rename f)
      have htwice : (fields.map fun e => (g e.1, e.2.rename g)).map
          (fun e => (f e.1, e.2.rename f)) =
            fields.map fun e => ((f ∘ g) e.1, e.2.rename (f ∘ g)) := by
        rw [List.map_map]
        exact List.map_congr_left fun e he => congrArg (f (g e.1), ·) (hchildren e he)
      rw [htwice] at hperm
      refine congrArg Json.obj (Table.ofList_eq_of_perm ?_ hperm.symm).symm
      rwa [Table.keys_rename]
    | arr items =>
      rw [rename_arr, rename_arr, rename_arr, List.map_map]
      rw [← map_snd_children_arr items, List.map_map, List.map_map]
      exact congrArg Json.arr (List.map_congr_left hchildren)
    | _ => rfl

/-- **A value with other names**: the same items, and under each key's new name what stood
under the key; what has no items and no fields is the same. -/
inductive RenamedBy (f : String → String) : Json → Json → Prop
  | leaf {v : Json} (h : v.height = 0) : RenamedBy f v v
  | arr {items items' : List Json} (h : List.Forall₂ (RenamedBy f) items items') :
      RenamedBy f (.arr items) (.arr items')
  | obj {fields listed fields' : List (String × Json)}
      (hkeys : Table.keys listed = (Table.keys fields).map f)
      (hvalues : List.Forall₂ (RenamedBy f) (fields.map Prod.snd) (listed.map Prod.snd))
      (hperm : listed.Perm fields') : RenamedBy f (.obj fields) (.obj fields')

/-- **Renaming loses nothing** if it keeps keys apart. -/
theorem renamedBy_rename (hv : v.WellFormed) (h : v.KeysApart f) : v.RenamedBy f (v.rename f) := by
  induction v using children_induction with
  | step v ih =>
    have hchildren : List.Forall₂ (RenamedBy f) (v.children.map Prod.snd)
        ((v.children.map Prod.snd).map (rename f)) := by
      rw [List.forall₂_map_right_iff, List.forall₂_same, List.forall_mem_map]
      exact fun e he => ih e he (hv.of_mem_children he) (h.of_child he)
    cases v with
    | obj fields =>
      have hkeys := Table.keys_rename fields f (rename f)
      rw [rename_obj]
      refine .obj hkeys ?_ (Table.perm_ofList (hkeys ▸ h.nodup hv.1)).symm
      rw [List.map_map] at hchildren ⊢
      exact hchildren
    | arr items =>
      rw [rename_arr]
      rw [map_snd_children_arr] at hchildren
      exact .arr hchildren
    | _ => exact .leaf rfl

/-! ## What is found after renaming -/

/-- A child of a renamed value is a renamed child. -/
theorem exists_of_mem_children_rename {segment : String} {child : Json}
    (h : (segment, child) ∈ (v.rename f).children) :
    ∃ e ∈ v.children, (segment = e.1 ∨ segment = f e.1) ∧ child = e.2.rename f := by
  cases v with
  | obj fields =>
    rw [rename_obj] at h
    obtain ⟨e, he, hpair⟩ := List.mem_map.1 (Table.mem_ofList h)
    obtain ⟨rfl, rfl⟩ := Prod.mk.inj hpair
    exact ⟨e, he, .inr rfl, rfl⟩
  | arr items =>
    rw [rename_arr, mem_children_arr_iff] at h
    obtain ⟨i, hi, rfl⟩ := h
    rw [List.getElem?_map] at hi
    obtain ⟨item, hitem, rfl⟩ := Option.map_eq_some_iff.1 hi
    exact ⟨(toString i, item), mem_children_arr_iff.2 ⟨i, hitem, rfl⟩, .inl rfl, rfl⟩
  | _ => exact absurd h List.not_mem_nil

/-- **What is found after renaming** is a renamed node, the names on whose way have been
renamed. -/
theorem HasNode.exists_of_rename {path : List String} {w : Json} (h : (v.rename f).HasNode path w) :
    ∃ origin u, v.HasNode origin u ∧
      List.Forall₂ (fun old new => new = old ∨ new = f old) origin path ∧ w = u.rename f := by
  induction v using children_induction generalizing path with
  | step v ih =>
    generalize hr : v.rename f = r at h
    cases h with
    | here => exact ⟨[], v, .here v, .nil, hr.symm⟩
    | step hchild hpath =>
      subst hr
      obtain ⟨e, he, hsegment, rfl⟩ := exists_of_mem_children_rename hchild
      obtain ⟨origin, u, horigin, hnames, rfl⟩ := ih e he hpath
      exact ⟨e.1 :: origin, u, .step he horigin, .cons hsegment hnames, rfl⟩

/-- **The laws of renaming.** Where no two keys of an object get the same name in the end, two
renamings are one, and nothing but the names is changed. In any case, an object of the
result is one of the value, its names renamed, and holds under a name what stood under the
greatest of the keys that get it. -/
theorem rename_laws (f g : String → String) (hv : v.WellFormed) :
    (v.KeysApart (f ∘ g) →
      (v.rename g).rename f = v.rename (f ∘ g) ∧ v.RenamedBy (f ∘ g) (v.rename (f ∘ g))) ∧
      ∀ path out, (v.rename f).HasNode path (.obj out) →
        ∃ origin fields, v.HasNode origin (.obj fields) ∧
          List.Forall₂ (fun old new => new = old ∨ new = f old) origin path ∧
          Table.Ordered out ∧ ∀ name w, Table.get? out name = some w ↔
            ∃ k child, (k, child) ∈ fields ∧ f k = name ∧
              (∀ l ∈ Table.keys fields, f l = name → l ≤ k) ∧ w = child.rename f := by
  refine ⟨fun h => ⟨rename_rename hv h, renamedBy_rename hv h⟩, fun path out hout => ?_⟩
  obtain ⟨origin, u, horigin, hnames, hu⟩ := hout.exists_of_rename
  cases u with
  | obj fields =>
    rw [rename_obj] at hu
    obtain rfl := Json.obj.inj hu
    have hfields : Table.Ordered fields := (horigin.wellFormed hv).1
    exact ⟨origin, fields, horigin, hnames, Table.ordered_ofList _, fun name w =>
      Table.get?_ofList_rename_iff hfields f (rename f)⟩
  | arr items => exact absurd (hu.trans (rename_arr f items)) nofun
  | _ => exact absurd hu nofun

/-- A record with the same two keys at two depths. -/
def twiceRecord : Record :=
  [("a", .arr [.obj [("a", .null), ("b", .bool true)]]), ("b", .str "last")]

theorem rename_laws_twiceRecord :
    twiceRecord.WellFormed ∧
      (Json.obj twiceRecord).KeysApart
        ((fun k => if k = "y" then "c" else "d") ∘ fun k => if k = "a" then "y" else "x") ∧
      ((Json.obj twiceRecord).rename fun k => if k = "a" then "y" else "x").rename
          (fun k => if k = "y" then "c" else "d") =
        (Json.obj twiceRecord).rename
          ((fun k => if k = "y" then "c" else "d") ∘ fun k => if k = "a" then "y" else "x") ∧
      ∃ (origin : List String) (fields : Record) (k : String) (child : Json),
        (Json.obj twiceRecord).HasNode origin (.obj fields) ∧ (k, child) ∈ fields ∧
          (∀ l ∈ Table.keys fields, l ≤ k) ∧ Json.str "last" = child.rename fun _ => "z" := by
  have hrecord : twiceRecord.WellFormed := by decide +kernel
  have hapart : (Json.obj twiceRecord).KeysApart
      ((fun k => if k = "y" then "c" else "d") ∘ fun k => if k = "a" then "y" else "x") := by
    decide +kernel
  have hresult : (Json.obj twiceRecord).rename (fun _ => "z") = .obj [("z", .str "last")] := by
    decide +kernel
  -- all keys get one name here, and the greatest is kept
  obtain ⟨-, hkept⟩ := rename_laws (fun _ => "z") id (v := .obj twiceRecord) hrecord
  obtain ⟨origin, fields, horigin, -, -, hreads⟩ :=
    hkept [] [("z", .str "last")] (hresult ▸ .here _)
  obtain ⟨k, child, hchild, -, hgreatest, hlast⟩ := (hreads "z" (.str "last")).1 rfl
  exact ⟨hrecord, hapart, ((rename_laws _ _ hrecord).1 hapart).1, origin, fields, k, child,
    horigin, hchild, fun l hl => hgreatest l hl rfl, hlast⟩

end Json

end UserDirectory
