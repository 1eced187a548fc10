import UserDirectory.Proofs.Record.Commuting

/-!
# Reading after writing

Reading and writing at a dotted path do not walk alike. Reading takes a field that has
the whole path for its name before it splits anything, and it goes into arrays by index;
writing always splits, and replaces by an object whatever else stands on its way. So the
laws of a lens hold with two reservations:

* what was written is read again, unless a field named by the whole dotted path hides it;
  that field is never touched, as no write is made under a name with a dot
  (`Record.at?_set_self`);
* a write leaves other paths alone if neither path begins the other and nothing but objects
  stands where the two still run together. Below that, the other path may go on through
  arrays as it likes (`Record.walk?_setAt_of_apart`).
-/

namespace UserDirectory

namespace Record

variable {r : Record}

/-- A field is touched by a write only if its name is the first segment. -/
theorem get?_set_of_ne {path key : String} (v : Json) (h : (pathSegments path).head? ≠ some key) :
    Table.get? (set r path v) key = Table.get? r key :=
  get?_setAt_of_ne r v h

/-- The first segment of a path holds no dot. -/
theorem head?_pathSegments_ne {path key : String} (h : '.' ∈ key.toList) :
    (pathSegments path).head? ≠ some key :=
  fun hhead => dot_not_mem_of_mem_pathSegments (List.mem_of_head? hhead) h

/-! ## One path -/

/-- **What is read after a write**: the value written, or what the name of the whole
dotted path hides it with. -/
theorem at?_set_self {path : String} (h : path ≠ "") (v : Json) :
    (Json.obj (set r path v)).at? path =
      some (if '.' ∈ path.toList then (Table.get? r path).getD v else v) := by
  by_cases hdot : '.' ∈ path.toList
  · have hwalk : (Json.obj (set r path v)).walk? (pathSegments path) = some v :=
      walk?_setAt_self r (pathSegments_ne_nil path) v
    rw [if_pos hdot, Json.at?_eq_or h, get?_set_of_ne v (head?_pathSegments_ne hdot), hwalk]
    cases Table.get? r path <;> rfl
  · rw [if_neg hdot, Json.at?_of_undotted h hdot, set, pathSegments_of_undotted hdot,
      setAt_singleton, Table.get?_insert_self]

/-- **The later of two writes at a path counts.** -/
theorem set_set (r : Record) (path : String) (v w : Json) :
    set (set r path v) path w = set r path w := by
  have h := setAt_setAt_append r (pathSegments_ne_nil path) [] w v
  rwa [List.append_nil] at h

/-! ## Two paths -/

/-- **A write does not change what is read at a path apart.** -/
theorem at?_set_of_apart {p q : String} (h : PathsApart (pathSegments p) (pathSegments q))
    (hq : q ≠ "") (hr : r.SharesObjects (pathSegments p) (pathSegments q)) (v : Json) :
    (Json.obj (set r p v)).at? q = (Json.obj r).at? q := by
  have hhead : (pathSegments p).head? ≠ some q := by
    intro hhead
    -- the name of a field that is written is a segment, so that it begins the path
    have hundotted := dot_not_mem_of_mem_pathSegments (List.mem_of_head? hhead)
    have hprefix := h.2
    rw [pathSegments_of_undotted hundotted] at hprefix
    obtain ⟨rest, hrest⟩ := List.head?_eq_some_iff.1 hhead
    exact hprefix (hrest ▸ List.prefix_append [q] rest)
  rw [Json.at?_eq_or hq, Json.at?_eq_or hq, get?_set_of_ne v hhead]
  exact congrArg _ (walk?_setAt_of_apart h hr v)

/-- **The laws of dotted paths.** What is written is read again if the path has no dot or
no field has the whole path for its name; the later of two writes at a path counts; writes
at paths of which neither begins the other may be exchanged; and a write does not change
what is read at such another path, if nothing but objects stands where both run
together. -/
theorem set_lens (hr : r.WellFormed) {p q : String} (hp : p ≠ "") (hq : q ≠ "") (v w : Json) :
    ('.' ∉ p.toList ∨ Table.get? r p = none → (Json.obj (set r p v)).at? p = some v) ∧
      set (set r p v) p w = set r p w ∧
      (PathsApart (pathSegments p) (pathSegments q) →
        set (set r p v) q w = set (set r q w) p v ∧
          (r.SharesObjects (pathSegments p) (pathSegments q) →
            (Json.obj (set r p v)).at? q = (Json.obj r).at? q)) := by
  refine ⟨fun h => ?_, set_set r p v w, fun h => ⟨setAt_comm_of_apart hr h v w,
    fun hshared => at?_set_of_apart h hq hshared v⟩⟩
  rw [at?_set_self hp]
  rcases h with hdot | hnone
  · rw [if_neg hdot]
  · rw [hnone, Option.getD_none, ite_self]

/-- A record with a dotted name, and with an array below an object. -/
def listedRecord : Record :=
  [("a", .obj [("b", .bool true), ("tags", .arr [.str "x", .obj [("c", .null)]])]),
    ("a.z", .str "literal")]

theorem set_lens_listedRecord :
    listedRecord.WellFormed ∧
      (Json.obj (set listedRecord "a.b.c" (.str "new"))).at? "a.b.c" = some (.str "new") ∧
      set (set listedRecord "a.b.c" (.str "new")) "a.tags.1.c" .null =
        set (set listedRecord "a.tags.1.c" .null) "a.b.c" (.str "new") ∧
      (Json.obj (set listedRecord "a.b.c" (.str "new"))).at? "a.tags.1.c" = some .null := by
  have hapart : PathsApart (pathSegments "a.b.c") (pathSegments "a.tags.1.c") := by decide +kernel
  have hshared :
      listedRecord.SharesObjects (pathSegments "a.b.c") (pathSegments "a.tags.1.c") := by
    decide +kernel
  have hwf : listedRecord.WellFormed := by decide +kernel
  obtain ⟨hself, -, hother⟩ := set_lens (p := "a.b.c") (q := "a.tags.1.c") hwf (by decide)
    (by decide) (.str "new") .null
  obtain ⟨hcomm, hread⟩ := hother hapart
  refine ⟨hwf, hself (.inr (by decide +kernel)), hcomm, (hread hshared).trans ?_⟩
  decide +kernel

end Record

end UserDirectory
