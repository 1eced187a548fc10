import UserDirectory.Table

/-!
# Entries of tables

Where the entries of a table come from: a key that has a value has an entry, and
a table laid over another one brings its own entries and keeps some of the
other's.

What a table reads after each operation does not depend on its order, with one
exception: a layer counts by what it reads only if it holds each key once, and
so the laws of `overlay` and extensionality are about ordered tables.
-/

namespace UserDirectory.Table

variable {α β : Type}

/-- **A key with a value has an entry.** -/
theorem mem_of_get? {t : Table α} {key : String} {value : α} (h : get? t key = some value) :
    (key, value) ∈ t := by
  obtain ⟨before, after, rfl, -⟩ := List.lookup_eq_some_iff.1 h
  exact List.mem_append_right before List.mem_cons_self

/-- **An entry of an overlay** is one of either table. -/
theorem mem_overlay {t u : Table α} {e : String × α} (h : e ∈ overlay t u) : e ∈ t ∨ e ∈ u := by
  induction u generalizing t with
  | nil => exact .inl h
  | cons head rest ih =>
    rcases ih h with h | h
    · rcases mem_insert h with rfl | h
      · exact .inr List.mem_cons_self
      · exact .inl h
    · exact .inr (List.mem_cons_of_mem head h)

theorem get?_mapValues (f : α → β) (t : Table α) (key : String) :
    get? (mapValues f t) key = (get? t key).map f := by
  unfold get? mapValues
  induction t with
  | nil => rfl
  | cons e rest ih =>
    rw [List.map_cons, List.lookup_cons, List.lookup_cons, ih]
    split <;> rfl

/-! ## Reading what was written -/

theorem get?_cons (k : String) (v : α) (rest : Table α) (key : String) :
    get? ((k, v) :: rest) key = if key = k then some v else get? rest key := by
  unfold get?
  rw [List.lookup_cons]
  by_cases h : key = k
  · rw [if_pos h, beq_iff_eq.2 h]
  · rw [if_neg h, beq_eq_false_iff_ne.2 h]

/-- **Insertion changes one key only**, in a table of any order. -/
theorem get?_insert (t : Table α) (k : String) (v : α) (key : String) :
    get? (insert t k v) key = if key = k then some v else get? t key := by
  induction t with
  | nil => rw [insert, get?_cons]
  | cons e rest ih =>
    obtain ⟨l, w⟩ := e
    rw [insert]
    split
    · rw [get?_cons]
    · split
      · next h =>
        subst h
        rw [get?_cons, get?_cons]
        split <;> rfl
      · next hne =>
        rw [get?_cons, get?_cons, ih]
        by_cases hl : key = l
        · rw [if_pos hl, if_pos hl, if_neg fun hk => hne (hk.symm.trans hl)]
        · rw [if_neg hl, if_neg hl]

@[simp] theorem get?_insert_self (t : Table α) (k : String) (v : α) :
    get? (insert t k v) k = some v := by
  rw [get?_insert, if_pos rfl]

theorem get?_insert_of_ne (t : Table α) {k key : String} (v : α) (h : key ≠ k) :
    get? (insert t k v) key = get? t key := by
  rw [get?_insert, if_neg h]

/-- **The later of two values counts**, in a table of any order. -/
theorem insert_insert (t : Table α) (k : String) (v w : α) :
    insert (insert t k v) k w = insert t k w := by
  induction t with
  | nil =>
    show insert [(k, v)] k w = [(k, w)]
    rw [insert, if_neg (String.lt_irrefl k), if_pos rfl]
  | cons e rest ih =>
    obtain ⟨l, u⟩ := e
    by_cases hlt : k < l
    · rw [insert, if_pos hlt, insert, if_neg (String.lt_irrefl k), if_pos rfl, insert, if_pos hlt]
    · by_cases heq : k = l
      · subst heq
        rw [insert, if_neg hlt, if_pos rfl, insert, if_neg hlt, if_pos rfl, insert, if_neg hlt,
          if_pos rfl]
      · rw [insert, if_neg hlt, if_neg heq, insert, if_neg hlt, if_neg heq, ih, insert,
          if_neg hlt, if_neg heq]

/-- Restriction hides keys and changes no value. -/
theorem get?_restrict (t : Table α) (keep : String → Bool) (key : String) :
    get? (restrict t keep) key = if keep key then get? t key else none := by
  induction t with
  | nil => split <;> rfl
  | cons e rest ih =>
    obtain ⟨k, v⟩ := e
    have hcons : restrict ((k, v) :: rest) keep
        = if keep k then (k, v) :: restrict rest keep else restrict rest keep :=
      List.filter_cons
    rw [hcons, get?_cons]
    by_cases hk : key = k
    · subst hk
      cases hkeep : keep key with
      | true => rw [if_pos rfl, if_pos rfl, if_pos rfl, get?_cons, if_pos rfl]
      | false =>
        rw [if_neg Bool.false_ne_true, ih, hkeep, if_neg Bool.false_ne_true,
          if_neg Bool.false_ne_true]
    · rw [if_neg hk, ← ih]
      split
      · rw [get?_cons, if_neg hk]
      · rfl

theorem get?_erase (t : Table α) (k key : String) :
    get? (erase t k) key = if key = k then none else get? t key := by
  have h : erase t k = restrict t fun l => l != k := rfl
  rw [h, get?_restrict]
  by_cases hk : key = k
  · rw [if_pos hk, hk, if_neg (by simp)]
  · rw [if_neg hk, if_pos (by simpa using hk)]

theorem get?_eq_none_iff {t : Table α} {key : String} :
    get? t key = none ↔ ∀ e ∈ t, e.1 ≠ key := by
  unfold get?
  rw [List.lookup_eq_none_iff]
  refine forall₂_congr fun e _ => ?_
  rw [bne_iff_ne, ne_comm]

/-- A table is empty if it has no key. -/
theorem eq_nil_iff {t : Table α} : t = [] ↔ ∀ key, get? t key = none := by
  rw [List.eq_nil_iff_forall_not_mem]
  simp only [get?_eq_none_iff]
  exact ⟨fun h _ e he => absurd he (h e), fun h e he => h e.1 e he rfl⟩

/-- A key that a layer leaves open keeps its value under it. -/
theorem get?_overlay_of_none (t : Table α) {u : Table α} {key : String} (h : get? u key = none) :
    get? (overlay t u) key = get? t key := by
  induction u generalizing t with
  | nil => rfl
  | cons e rest ih =>
    rw [get?_cons] at h
    split at h
    · exact absurd h (Option.some_ne_none _)
    · next hne =>
      have hstep : overlay t (e :: rest) = overlay (insert t e.1 e.2) rest := rfl
      rw [hstep, ih _ h, get?_insert_of_ne _ _ hne]

/-- **A new key** gets a place between the entries that there are. -/
theorem exists_insert_of_get?_eq_none {t : Table α} {k : String} (h : get? t k = none) (v : α) :
    ∃ before after, t = before ++ after ∧ insert t k v = before ++ (k, v) :: after := by
  induction t with
  | nil => exact ⟨[], [], rfl, rfl⟩
  | cons e rest ih =>
    obtain ⟨l, w⟩ := e
    rw [get?_cons] at h
    split at h
    · exact absurd h (Option.some_ne_none _)
    · next hne =>
      rw [insert]
      split
      · exact ⟨[], (l, w) :: rest, rfl, rfl⟩
      · obtain ⟨before, after, rfl, hinsert⟩ := ih h
        exact ⟨(l, w) :: before, after, rfl, by rw [hinsert, List.cons_append]⟩

/-! ## Ordered tables -/

/-- The first key of an ordered table has no entry behind it. -/
theorem Ordered.get?_rest {k : String} {v : α} {rest : Table α} (h : Ordered ((k, v) :: rest)) :
    get? rest k = none :=
  get?_eq_none_iff.2 fun e he heq =>
    String.lt_irrefl k (heq ▸ (List.pairwise_cons.1 h).1 e he)

/-- **An entry of an ordered table** is what its key reads. -/
theorem Ordered.get?_of_mem {t : Table α} (h : Ordered t) {key : String} {value : α}
    (he : (key, value) ∈ t) : get? t key = some value := by
  induction t with
  | nil => exact absurd he List.not_mem_nil
  | cons e rest ih =>
    obtain ⟨k, v⟩ := e
    rw [get?_cons]
    rcases List.mem_cons.1 he with heq | he
    · obtain ⟨rfl, rfl⟩ := Prod.mk.inj heq
      rw [if_pos rfl]
    · have hne : key ≠ k := fun hk => get?_eq_none_iff.1 h.get?_rest (key, value) he hk
      rw [if_neg hne, ih (List.pairwise_cons.1 h).2 he]

/-- **A layer counts where it has the key**, the table below it elsewhere. -/
theorem get?_overlay (t : Table α) {u : Table α} (hu : Ordered u) (key : String) :
    get? (overlay t u) key = (get? u key).or (get? t key) := by
  induction u generalizing t with
  | nil => rfl
  | cons e rest ih =>
    obtain ⟨k, v⟩ := e
    have hstep : overlay t ((k, v) :: rest) = overlay (insert t k v) rest := rfl
    rw [hstep, ih _ (List.pairwise_cons.1 hu).2, get?_insert, get?_cons]
    by_cases hk : key = k
    · rw [if_pos hk, if_pos hk, hk, hu.get?_rest]
      rfl
    · rw [if_neg hk, if_neg hk]

/-- **A new value** takes the place of the old one. -/
theorem Ordered.exists_insert_of_get?_eq_some {t : Table α} (ht : Ordered t) {k : String} {old : α}
    (h : get? t k = some old) (v : α) :
    ∃ before after, t = before ++ (k, old) :: after ∧
      Table.insert t k v = before ++ (k, v) :: after := by
  induction t with
  | nil => exact absurd h (Option.some_ne_none old).symm
  | cons e rest ih =>
    obtain ⟨l, w⟩ := e
    rw [get?_cons] at h
    rw [Table.insert]
    split at h
    · next heq =>
      subst heq
      obtain rfl := Option.some.inj h
      exact ⟨[], rest, rfl, by rw [if_neg (String.lt_irrefl k), if_pos rfl]; rfl⟩
    · next hne =>
      obtain ⟨hfirst, hrest⟩ := List.pairwise_cons.1 ht
      -- the key is among the later entries, hence greater than the first
      have hlt : l < k := hfirst (k, old) (mem_of_get? h)
      obtain ⟨before, after, rfl, hinsert⟩ := ih hrest h
      refine ⟨(l, w) :: before, after, rfl, ?_⟩
      rw [if_neg (fun hk => String.lt_irrefl k (String.lt_trans hk hlt)), if_neg hne, hinsert,
        List.cons_append]

theorem Ordered.get?_eq_some_iff {t : Table α} (h : Ordered t) {key : String} {value : α} :
    get? t key = some value ↔ (key, value) ∈ t :=
  ⟨mem_of_get?, h.get?_of_mem⟩

theorem Ordered.nodup {t : Table α} (h : Ordered t) : t.Nodup := by
  refine List.Pairwise.imp ?_ h
  rintro a b hab rfl
  exact String.lt_irrefl a.1 hab

/-- An ordered table holds each key once. -/
theorem Ordered.nodup_keys {t : Table α} (h : Ordered t) : (keys t).Nodup := by
  refine List.pairwise_map.2 (List.Pairwise.imp ?_ h)
  intro a b hab heq
  exact String.lt_irrefl a.1 (heq ▸ hab)

/-- **Ordered tables that read the same are the same.** -/
theorem Ordered.ext {t u : Table α} (ht : Ordered t) (hu : Ordered u)
    (h : ∀ key, get? t key = get? u key) : t = u := by
  have hperm : t.Perm u := (List.perm_ext_iff_of_nodup ht.nodup hu.nodup).2 fun e => by
    rw [← ht.get?_eq_some_iff, ← hu.get?_eq_some_iff, h]
  exact hperm.eq_of_pairwise
    (fun _ _ _ _ hab hba => absurd (String.lt_trans hab hba) (String.lt_irrefl _)) ht hu

/-- **Two keys are written in either order.** -/
theorem Ordered.insert_comm {t : Table α} (h : Ordered t) {k l : String} (hne : k ≠ l) (v w : α) :
    Table.insert (Table.insert t k v) l w = Table.insert (Table.insert t l w) k v := by
  refine ((h.insert k v).insert l w).ext ((h.insert l w).insert k v) fun key => ?_
  rw [get?_insert, get?_insert, get?_insert, get?_insert]
  by_cases hk : key = k
  · subst hk
    rw [if_neg hne, if_pos rfl, if_pos rfl]
  · rw [if_neg hk, if_neg hk]

/-- Writing what is there changes nothing. -/
theorem Ordered.insert_self {t : Table α} (h : Ordered t) {k : String} {v : α}
    (hv : get? t k = some v) : Table.insert t k v = t := by
  refine (h.insert k v).ext h fun key => ?_
  rw [get?_insert]
  split
  · next hk => rw [hk, hv]
  · rfl

theorem Ordered.restrict {t : Table α} (h : Ordered t) (keep : String → Bool) :
    Ordered (restrict t keep) :=
  List.Pairwise.filter _ h

theorem overlay_nil {t : Table α} (h : Ordered t) : overlay [] t = t :=
  (ordered_nil.overlay t).ext h fun key => by
    rw [get?_overlay _ h]
    exact Option.or_none

end UserDirectory.Table
