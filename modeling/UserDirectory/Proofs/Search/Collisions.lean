import UserDirectory.Proofs.Search.Reordering
import UserDirectory.Proofs.Table

/-!
# Keys that come to one name

Renaming may bring several keys of a condition to one name, of which an object can hold
one only. The entries that find their key taken are set aside and then moved into the
conjunction of the object, each as a condition of its own, behind those that are there.

Nothing is lost by it. The object and what is set aside hold the entries between them
(`RenamedFields.Holds`), and the filter that the object is read as in the end compiles
like the filter of all entries side by side, but for their order
(`RenamedFields.Holds.exists_reading`).
-/

namespace UserDirectory

open Query (Connective)

/-! ## Entries between two places -/

/-- **The fields and the collisions hold the entries between them.** -/
structure RenamedFields.Holds (r : RenamedFields) (es : List (String × Json)) : Prop where
  ordered : Table.Ordered r.fields
  entries : ∃ aside : List (String × Json),
    r.collisions = aside.map (fun e => singleCondition e.1 e.2) ∧ (r.fields ++ aside).Perm es

namespace RenamedFields.Holds

variable {r : RenamedFields} {es : List (String × Json)}

theorem empty : ({} : RenamedFields).Holds [] := ⟨Table.ordered_nil, [], rfl, .refl []⟩

/-- **One entry more** goes to one of the two places. -/
theorem add (h : r.Holds es) (e : String × Json) : (r.add e).Holds (es ++ [e]) := by
  obtain ⟨hordered, aside, hcollisions, hperm⟩ := h
  unfold RenamedFields.add
  split
  · refine ⟨hordered, aside ++ [e], ?_, ?_⟩
    · rw [hcollisions, List.map_append]
      rfl
    · rw [← List.append_assoc]
      exact hperm.append_right [e]
  · next hnew =>
    have hnone : Table.get? r.fields e.1 = none := by
      simpa [Table.contains] using hnew
    obtain ⟨before, after, hfields, hinsert⟩ :=
      Table.exists_insert_of_get?_eq_none hnone e.2
    refine ⟨hordered.insert e.1 e.2, aside, hcollisions, ?_⟩
    show (Table.insert r.fields e.1 e.2 ++ aside).Perm (es ++ [e])
    rw [hfields] at hperm
    rw [hinsert, List.append_assoc, List.cons_append]
    refine List.perm_middle.trans (.trans ?_ List.perm_append_comm)
    rw [← List.append_assoc]
    exact hperm.cons e

theorem foldl (h : r.Holds es) (more : List (String × Json)) :
    (more.foldl RenamedFields.add r).Holds (es ++ more) := by
  induction more generalizing r es with
  | nil => rwa [List.append_nil]
  | cons e rest ih =>
    have hrest := ih (h.add e)
    rwa [List.append_assoc] at hrest

end RenamedFields.Holds

/-! ## Reading both places -/

/-- What was set aside is read entry by entry, each as a filter of its own. -/
theorem exists_reading_aside {d : Nat} {key : String} {aside : List (String × Json)}
    {fs : List Filter}
    (h : Filter.ofItems d key (aside.map fun e => singleCondition e.1 e.2) = .ok fs) :
    ∃ cs, Filter.ofFields 0 aside = .ok cs ∧ fs = cs.map ([·]) := by
  induction aside generalizing fs with
  | nil => exact ⟨[], rfl, (Except.ok.inj h).symm⟩
  | cons e rest ih =>
    obtain ⟨f, gs, hf, hgs, rfl⟩ := Filter.ofItems_eq_ok_cons h
    obtain ⟨cs, hcs, rfl⟩ := ih hgs
    obtain ⟨c, hc, hf⟩ := bind_eq_ok_iff.1
      (show Filter.ofFields 0 [(e.1, e.2)] = .ok f from hf)
    obtain rfl : [c] = f := Except.ok.inj hf
    exact ⟨c :: cs, bind_eq_ok_iff.2 ⟨c, hc, bind_eq_ok_iff.2 ⟨cs, hcs, rfl⟩⟩, rfl⟩

/-- **An object whose conjunction has taken in what was set aside** is read like its
fields and what was set aside, in another order. What stood in the place of the
conjunction before is to compile like the conditions in it. -/
theorem exists_reading_conjunction (there : List (String × Json)) (items : List Json)
    {before after aside : List (String × Json)} (hthere : ∀ fs, Filter.ofItems 1 "and" items = .ok fs →
      ∃ m, Filter.ofFields 0 there = .ok m ∧ Filter.SameText m fs.flatten) {g : Filter}
    (h : Filter.ofFields 0 (before ++
      ("and", .arr (items ++ aside.map fun e => singleCondition e.1 e.2)) :: after) = .ok g) :
    ∃ f k, Filter.ofFields 0 (before ++ there ++ after ++ aside) = .ok f ∧ f.Perm k ∧
      Filter.SameText k g := by
  obtain ⟨bs, rest, hbs, hrest, rfl⟩ := exists_append_of_forall₂ (Filter.ofFields_eq_ok_iff.1 h)
  cases hrest with
  | @cons _ c _ as hc has =>
  obtain ⟨_, gs, hitems, hgs, rfl⟩ := Filter.exists_items_of_ofField (c := .and) hc
  obtain rfl := Json.arr.inj hitems
  obtain ⟨fs, ks, hfs, hks, rfl⟩ := Filter.exists_append_of_ofItems hgs
  obtain ⟨cs, hcs, rfl⟩ := exists_reading_aside hks
  obtain ⟨m, hm, hsame⟩ := hthere fs hfs
  rw [← Filter.ofFields_eq_ok_iff] at hbs has
  refine ⟨bs ++ m ++ as ++ cs, bs ++ (m ++ cs) ++ as, ?_, ?_, ?_⟩
  · exact Filter.ofFields_append (Filter.ofFields_append (Filter.ofFields_append hbs hm) has) hcs
  · rw [← List.append_assoc, List.append_assoc _ as, List.append_assoc _ cs]
    exact List.perm_append_comm.append_left (bs ++ m)
  · -- the conjunction has the text of its conditions, the old ones and the new ones
    have hflat : (fs ++ cs.map ([·])).flatten = fs.flatten ++ cs := by
      rw [List.flatten_append, ← List.flatMap_def, List.flatMap_singleton']
    have hgroup := (Filter.SameText.and_flatten (fs ++ cs.map ([·]))).symm
    rw [hflat] at hgroup
    have hwhole := ((Filter.SameText.refl bs).append
      ((hsame.append (.refl cs)).trans hgroup)).append (.refl as)
    rwa [List.append_assoc bs [_]] at hwhole

/-- **The object is read like the entries side by side**, in some order. -/
theorem RenamedFields.Holds.exists_reading {r : RenamedFields} {es : List (String × Json)}
    (h : r.Holds es) {g : Filter} (hg : Filter.ofFields 0 r.toRecord = .ok g) :
    ∃ f k, Filter.ofFields 0 es = .ok f ∧ f.Perm k ∧ Filter.SameText k g := by
  obtain ⟨hordered, aside, hcollisions, hperm⟩ := h
  -- it is enough to read the fields and what was set aside
  suffices hboth : ∃ f k, Filter.ofFields 0 (r.fields ++ aside) = .ok f ∧ f.Perm k ∧
      Filter.SameText k g by
    obtain ⟨f, k, hf, hk, hsame⟩ := hboth
    obtain ⟨f', hf', hperm'⟩ :=
      List.perm_comp_forall₂ hperm.symm (Filter.ofFields_eq_ok_iff.1 hf)
    exact ⟨f', k, Filter.ofFields_eq_ok_iff.2 hf', hperm'.trans hk, hsame⟩
  have hempty : ∀ fs, Filter.ofItems 1 "and" [] = .ok fs →
      ∃ m, Filter.ofFields 0 [] = .ok m ∧ Filter.SameText m fs.flatten := by
    intro fs hfs
    obtain rfl := Except.ok.inj hfs
    exact ⟨[], rfl, .refl []⟩
  unfold RenamedFields.toRecord at hg
  rw [hcollisions] at hg
  split at hg
  · next hnone =>
    obtain rfl := List.map_eq_nil_iff.1 (List.isEmpty_iff.1 hnone)
    rw [List.append_nil]
    exact ⟨g, g, hg, .refl g, .refl g⟩
  · split at hg
    · next items hget =>
      obtain ⟨before, after, hfields, hinsert⟩ := hordered.exists_insert_of_get?_eq_some hget
        (.arr (items ++ aside.map fun e => singleCondition e.1 e.2))
      rw [hinsert] at hg
      rw [hfields, show before ++ ("and", Json.arr items) :: after
        = before ++ [("and", .arr items)] ++ after by rw [List.append_assoc]; rfl]
      refine exists_reading_conjunction _ items (fun fs hfs => ⟨[.and fs], ?_, .and_flatten fs⟩) hg
      exact bind_eq_ok_iff.2 ⟨.and fs, map_eq_ok_iff.2 ⟨fs, hfs, rfl⟩, rfl⟩
    · next existing hno hget =>
      -- a conjunction that is no array is no filter, wherever it stands
      have hlast : aside.map (fun e => singleCondition e.1 e.2) ++ [singleCondition "and" existing]
          = [] ++ (aside ++ [("and", existing)]).map fun e => singleCondition e.1 e.2 := by
        rw [List.map_append]
        rfl
      obtain ⟨before, after, -, hinsert⟩ := hordered.exists_insert_of_get?_eq_some hget
        (.arr (aside.map (fun e => singleCondition e.1 e.2) ++ [singleCondition "and" existing]))
      rw [hinsert, hlast] at hg
      obtain ⟨f, -, hf, -⟩ := exists_reading_conjunction [] [] hempty hg
      obtain ⟨c, -, hc⟩ := exists_right_of_mem (Filter.ofFields_eq_ok_iff.1 hf)
        (List.mem_append_right _ (List.mem_append_right _ (List.mem_singleton.2 rfl)))
      obtain ⟨items, -, hitems, -⟩ := Filter.exists_items_of_ofField (c := .and) hc
      exact absurd hitems (hno items)
    · next hget =>
      obtain ⟨before, after, hfields, hinsert⟩ := Table.exists_insert_of_get?_eq_none hget
        (.arr (aside.map fun e => singleCondition e.1 e.2))
      rw [hinsert] at hg
      rw [hfields, show before ++ after = before ++ [] ++ after by rw [List.append_nil]]
      exact exists_reading_conjunction [] [] hempty hg

end UserDirectory
