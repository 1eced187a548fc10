import Mathlib.Data.List.Pairwise
import UserDirectory.Proofs.Record.Merges

/-!
# What an extraction copies

An extraction writes, for each pair of paths whose source has a value, this value at
the target. If the targets are apart from each other, then what stands at a target
afterwards is exactly what the source has, be it a value or nothing
(`Record.walk?_copyPairs`): no other write has touched it, and none has made
something appear there. Only objects stand on the way.

The fields that no pair has used are carried over beneath the copied values.
-/

namespace UserDirectory

/-- **The targets of the pairs are apart from each other.** -/
def TargetsApart (pairs : List (String × String)) : Prop :=
  pairs.Pairwise fun a b => PathsApart (pathSegments a.2) (pathSegments b.2)

instance (pairs : List (String × String)) : Decidable (TargetsApart pairs) :=
  inferInstanceAs (Decidable (List.Pairwise _ pairs))

theorem TargetsApart.of_mem {pairs : List (String × String)} (h : TargetsApart pairs)
    {a b : String × String} (ha : a ∈ pairs) (hb : b ∈ pairs) (hne : a ≠ b) :
    PathsApart (pathSegments a.2) (pathSegments b.2) := by
  have hsymm : Std.Symm fun a b : String × String =>
      PathsApart (pathSegments a.2) (pathSegments b.2) := ⟨fun _ _ => PathsApart.symm⟩
  exact List.Pairwise.forall h ha hb hne

namespace Record

variable {source : Record} {pairs : List (String × String)}

/-! ## Copies as writes -/

/-- **What the pairs write**: at each target, the value of its source. -/
def writes (source : Record) (pairs : List (String × String)) : List (List String × Json) :=
  (usedPairs source pairs).filterMap fun pair =>
    ((Json.obj source).at? pair.1).map (pathSegments pair.2, ·)

theorem copyPairs_eq_setAll (source : Record) (pairs : List (String × String)) :
    copyPairs source pairs = setAll [] (writes source pairs) := by
  unfold copyPairs writes setAll
  generalize ([] : Record) = r
  induction usedPairs source pairs generalizing r with
  | nil => rfl
  | cons pair rest ih =>
    rw [List.foldl_cons, ih, List.filterMap_cons]
    cases (Json.obj source).at? pair.1 <;> rfl

theorem mem_usedPairs_iff {pair : String × String} :
    pair ∈ usedPairs source pairs ↔
      pair ∈ pairs ∧ isLivePair pair = true ∧ ∃ v, (Json.obj source).at? pair.1 = some v := by
  rw [usedPairs, List.mem_filter, Bool.and_eq_true, Option.isSome_iff_exists]

theorem mem_writes_iff {w : List String × Json} :
    w ∈ writes source pairs ↔ ∃ pair ∈ pairs, isLivePair pair = true ∧
      w.1 = pathSegments pair.2 ∧ (Json.obj source).at? pair.1 = some w.2 := by
  rw [writes, List.mem_filterMap]
  constructor
  · rintro ⟨pair, hpair, hw⟩
    obtain ⟨hmem, hlive, -⟩ := mem_usedPairs_iff.1 hpair
    obtain ⟨v, hv, rfl⟩ := Option.map_eq_some_iff.1 hw
    exact ⟨pair, hmem, hlive, rfl, hv⟩
  · rintro ⟨pair, hmem, hlive, hpath, hv⟩
    exact ⟨pair, mem_usedPairs_iff.2 ⟨hmem, hlive, w.2, hv⟩,
      Option.map_eq_some_iff.2 ⟨w.2, hv, by rw [← hpath]⟩⟩

theorem pairwise_writes (h : TargetsApart pairs) :
    (writes source pairs).Pairwise fun a b => PathsApart a.1 b.1 := by
  refine List.Pairwise.filterMap _ (fun a b hab w hw w' hw' => ?_) (List.Pairwise.filter _ h)
  obtain ⟨_, -, rfl⟩ := Option.map_eq_some_iff.1 hw
  obtain ⟨_, -, rfl⟩ := Option.map_eq_some_iff.1 hw'
  exact hab

/-- **A target reads what its source reads**, and only objects stand on the way to
it. -/
theorem copyPairs_of_mem (source : Record) (h : TargetsApart pairs) {pair : String × String}
    (hmem : pair ∈ pairs) (hlive : isLivePair pair = true) :
    (copyPairs source pairs).Leads (pathSegments pair.2) ∧
      (Json.obj (copyPairs source pairs)).walk? (pathSegments pair.2) =
        (Json.obj source).at? pair.1 := by
  rw [copyPairs_eq_setAll]
  cases hv : (Json.obj source).at? pair.1 with
  | some v =>
    have hw : (pathSegments pair.2, v) ∈ writes source pairs :=
      mem_writes_iff.2 ⟨pair, hmem, hlive, rfl, hv⟩
    exact walk?_setAll (pairwise_writes h) hw (pathSegments_ne_nil pair.2) []
  | none =>
    -- all writes are those of other pairs, so nothing has come there
    have hapart : ∀ w ∈ writes source pairs, PathsApart w.1 (pathSegments pair.2) := by
      intro w hw
      obtain ⟨pair', hmem', -, hpath, hv'⟩ := mem_writes_iff.1 hw
      rw [hpath]
      refine h.of_mem hmem' hmem ?_
      rintro rfl
      exact Option.some_ne_none _ (hv'.symm.trans hv)
    obtain ⟨hleads, hwalk⟩ := setAll_of_apart hapart (leads_nil _)
    exact ⟨hleads, hwalk.trans (Json.walk?_obj_nil (pathSegments_ne_nil pair.2))⟩

/-- A field that no target begins with is not written. -/
theorem get?_copyPairs_of_ne {key : String}
    (h : ∀ pair ∈ pairs, isLivePair pair = true → (pathSegments pair.2).head? = some key →
      (Json.obj source).at? pair.1 = none) :
    Table.get? (copyPairs source pairs) key = none := by
  rw [copyPairs_eq_setAll]
  refine get?_setAll_of_ne (fun w hw hkey => ?_) []
  obtain ⟨pair, hmem, hlive, hpath, hv⟩ := mem_writes_iff.1 hw
  exact Option.some_ne_none _ (hv.symm.trans (h pair hmem hlive (hpath ▸ hkey)))

/-- **A value that is no object** comes under a key by a write of just this key. -/
theorem eq_of_get?_setAt {r : Record} {path : List String} {value : Json} {key : String} {v : Json}
    (hv : v.NonObject) (h : Table.get? (setAt r path value) key = some v) :
    Table.get? r key = some v ∨ path = [key] ∧ value = v := by
  match path with
  | [] => exact .inl h
  | [segment] =>
    rw [setAt_singleton, Table.get?_insert] at h
    split at h
    · next hkey =>
      rw [hkey]
      exact .inr ⟨rfl, Option.some.inj h⟩
    · exact .inl h
  | segment :: next :: below =>
    rw [setAt_cons r segment (List.cons_ne_nil next below), Table.get?_insert] at h
    split at h
    · obtain rfl := Option.some.inj h
      exact absurd hv nofun
    · exact .inl h

theorem mem_of_get?_setAll {ws : List (List String × Json)} {r : Record} {key : String} {v : Json}
    (hv : v.NonObject) (h : Table.get? (setAll r ws) key = some v) :
    Table.get? r key = some v ∨ ([key], v) ∈ ws := by
  induction ws generalizing r with
  | nil => exact .inl h
  | cons w rest ih =>
    obtain ⟨path, value⟩ := w
    rcases ih h with hfirst | hrest
    · rcases eq_of_get?_setAt hv hfirst with hbefore | ⟨rfl, rfl⟩
      · exact .inl hbefore
      · exact .inr List.mem_cons_self
    · exact .inr (List.mem_cons_of_mem _ hrest)

/-- A copy that is no object, found under a key, is the copy of a pair with this target. -/
theorem exists_of_get?_copyPairs {key : String} {v : Json} (hv : v.NonObject)
    (h : Table.get? (copyPairs source pairs) key = some v) :
    ∃ pair ∈ pairs, isLivePair pair = true ∧ pair.2 = key ∧
      (Json.obj source).at? pair.1 = some v := by
  rw [copyPairs_eq_setAll] at h
  rcases mem_of_get?_setAll hv h with h | h
  · exact absurd h nofun
  · obtain ⟨pair, hmem, hlive, hpath, hread⟩ := mem_writes_iff.1 h
    exact ⟨pair, hmem, hlive, eq_of_pathSegments_eq_singleton hpath.symm, hread⟩

theorem ordered_copyPairs (source : Record) (pairs : List (String × String)) :
    Table.Ordered (copyPairs source pairs) := by
  rw [copyPairs_eq_setAll]
  exact ordered_setAll Table.ordered_nil _

theorem WellFormed.copyPairs (h : source.WellFormed) (pairs : List (String × String)) :
    WellFormed (copyPairs source pairs) := by
  rw [copyPairs_eq_setAll]
  refine nil.setAll fun w hw => ?_
  obtain ⟨_, -, -, -, hv⟩ := mem_writes_iff.1 hw
  exact Json.WellFormed.at? h hv

/-! ## Extractions -/

/-- The fields of the source that no pair has used. -/
def unused (source : Record) (pairs : List (String × String)) : Record :=
  Table.restrict source fun key => !((usedPairs source pairs).map (·.1)).contains key

theorem extract_true (source : Record) (pairs : List (String × String)) :
    extract source pairs true = mergeDeep (unused source pairs) (copyPairs source pairs) := rfl

theorem extract_false (source : Record) (pairs : List (String × String)) :
    extract source pairs false = copyPairs source pairs := rfl

/-- A field is unused unless it is the source of a pair. -/
theorem get?_unused_of_ne {key : String} (h : ∀ pair ∈ pairs, pair.1 ≠ key) :
    Table.get? (unused source pairs) key = Table.get? source key := by
  have hnot : key ∉ (usedPairs source pairs).map (·.1) := by
    rw [List.mem_map]
    rintro ⟨pair, hpair, hkey⟩
    exact h pair (mem_usedPairs_iff.1 hpair).1 hkey
  rw [unused, Table.get?_restrict, if_pos (by simpa using hnot)]

/-- Nothing is left if every field is the source of a live pair. -/
theorem unused_eq_nil (h : ∀ e ∈ source, ∃ pair ∈ pairs, pair.1 = e.1 ∧ isLivePair pair = true)
    (hs : Table.Ordered source) : unused source pairs = [] := by
  refine List.filter_eq_nil_iff.2 fun e he => ?_
  obtain ⟨pair, hpair, hkey, hlive⟩ := h e he
  have hne : pair.1 ≠ "" := fun hempty => by simp [isLivePair, hempty] at hlive
  have hv : (Json.obj source).at? pair.1 = some e.2 :=
    Json.at?_of_get? hne (hkey ▸ hs.get?_of_mem he)
  have hused : pair ∈ usedPairs source pairs := mem_usedPairs_iff.2 ⟨hpair, hlive, e.2, hv⟩
  have hmem : e.1 ∈ (usedPairs source pairs).map (·.1) := List.mem_map.2 ⟨pair, hused, hkey⟩
  simpa using hmem

/-- **A record of fields that pairs use** is extracted to their copies. -/
theorem extract_true_of_forall (hs : source.WellFormed)
    (h : ∀ e ∈ source, ∃ pair ∈ pairs, pair.1 = e.1 ∧ isLivePair pair = true) :
    extract source pairs true = copyPairs source pairs := by
  rw [extract_true, unused_eq_nil h hs.ordered, mergeDeep_nil (hs.copyPairs pairs)]

theorem WellFormed.extract (h : source.WellFormed) (pairs : List (String × String))
    (carried : Bool) : WellFormed (extract source pairs carried) := by
  cases carried with
  | false => exact h.copyPairs pairs
  | true => exact (h.restrict _).mergeDeep (h.copyPairs pairs)

end Record

end UserDirectory
