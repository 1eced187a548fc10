/-!
# Tables: association lists in ascending key order

A record, a mapping and every other named collection of the library is a `Table`: a list of keys
and values. Tables built by `insert`, `erase` and `ofList` hold each key once and in ascending
order (`Table.Ordered`), so that walking one is walking it in the order of its keys, code point by
code point.

The operations are defined on any list of pairs; order is a property beside them, which `insert`,
`erase` and `filter` keep.
-/

namespace UserDirectory

/-- **A table** from names to values. -/
abbrev Table (α : Type) := List (String × α)

namespace Table

variable {α β : Type}

/-- Keys strictly ascending, hence each at most once. -/
def Ordered (t : Table α) : Prop := t.Pairwise fun a b => a.1 < b.1

instance (t : Table α) : Decidable t.Ordered := inferInstanceAs (Decidable (List.Pairwise _ t))

/-- The value of a key. -/
def get? (t : Table α) (key : String) : Option α := t.lookup key

/-- Whether a key has a value. -/
def contains (t : Table α) (key : String) : Bool := (get? t key).isSome

/-- The keys, in order. -/
def keys (t : Table α) : List String := t.map (·.1)

/-- **Gives a key a value**, at its place in the order, replacing the value it had. -/
def insert (t : Table α) (key : String) (value : α) : Table α :=
  match t with
  | [] => [(key, value)]
  | (k, v) :: rest =>
    if key < k then (key, value) :: (k, v) :: rest
    else if key = k then (key, value) :: rest
    else (k, v) :: insert rest key value

/-- Removes a key. -/
def erase (t : Table α) (key : String) : Table α := t.filter fun e => e.1 != key

/-- The table of a list of pairs; of two pairs with one key the later counts. -/
def ofList (pairs : List (String × α)) : Table α :=
  pairs.foldl (fun t e => insert t e.1 e.2) []

/-- Writes every entry of the second table over the first. -/
def overlay (t u : Table α) : Table α := u.foldl (fun t e => insert t e.1 e.2) t

/-- Keeps the keys that satisfy the test. -/
def restrict (t : Table α) (keep : String → Bool) : Table α := t.filter fun e => keep e.1

/-- Replaces each value, keys kept. -/
def mapValues (f : α → β) (t : Table α) : Table β := t.map fun e => (e.1, f e.2)

/-! ## Order is kept -/

theorem ordered_nil : Ordered ([] : Table α) := List.Pairwise.nil

theorem mem_insert {t : Table α} {key : String} {value : α} {e : String × α}
    (h : e ∈ insert t key value) : e = (key, value) ∨ e ∈ t := by
  induction t with
  | nil => simpa [insert] using h
  | cons head rest ih =>
    obtain ⟨k, v⟩ := head
    rw [insert] at h
    split at h
    · simpa using h
    · split at h
      · rcases List.mem_cons.1 h with h | h
        · exact .inl h
        · exact .inr (List.mem_cons_of_mem _ h)
      · rcases List.mem_cons.1 h with h | h
        · exact .inr (h ▸ List.mem_cons_self)
        · rcases ih h with h | h
          · exact .inl h
          · exact .inr (List.mem_cons_of_mem _ h)

theorem Ordered.insert {t : Table α} (h : Ordered t) (key : String) (value : α) :
    Ordered (insert t key value) := by
  induction t with
  | nil => exact List.pairwise_singleton _ _
  | cons head rest ih =>
    obtain ⟨k, v⟩ := head
    have hrest := List.pairwise_cons.1 h
    rw [Table.insert]
    split
    · next hlt =>
      refine List.pairwise_cons.2 ⟨fun e he => ?_, h⟩
      rcases List.mem_cons.1 he with rfl | he
      · exact hlt
      · exact String.lt_trans hlt (hrest.1 e he)
    · split
      · next heq => exact List.pairwise_cons.2 ⟨heq ▸ hrest.1, hrest.2⟩
      · next hlt hne =>
        refine List.pairwise_cons.2 ⟨fun e he => ?_, ih hrest.2⟩
        rcases mem_insert he with rfl | he
        · exact Std.lt_of_le_of_ne (Std.not_lt.1 hlt) (Ne.symm hne)
        · exact hrest.1 e he

theorem Ordered.erase {t : Table α} (h : Ordered t) (key : String) : Ordered (erase t key) :=
  List.Pairwise.filter _ h

theorem Ordered.overlay {t : Table α} (h : Ordered t) (u : Table α) : Ordered (overlay t u) := by
  induction u generalizing t with
  | nil => exact h
  | cons e rest ih => exact ih (h.insert e.1 e.2)

theorem ordered_ofList (pairs : List (String × α)) : Ordered (ofList pairs) :=
  Ordered.overlay ordered_nil pairs

end Table

end UserDirectory
