import UserDirectory.Proofs.Record.Commuting

/-!
# What an extraction yields

An extraction is a list of writes into an empty record and, if it carries fields along, a
merge of the result over the fields that no pair has used. If the targets of the live pairs
are apart from each other, then all of this is known from the pairs as a set: the order of
the writes does not matter, each target holds what its source has, and nothing else comes
into the record, as a path that is apart from all targets is never written
(`Record.exists_of_walk?_copyPairs`).

Whether a field is used is a matter of the paths as they are written: a pair that reads
`tags.0` has not used the field `tags`, which is therefore carried along.
-/

namespace UserDirectory

namespace Record

variable {source : Record} {pairs pairs' : List (String × String)}

/-! ## Live pairs -/

/-- Pairs with an empty side do not take part. -/
theorem usedPairs_live (source : Record) (pairs : List (String × String)) :
    usedPairs source (pairs.filter isLivePair) = usedPairs source pairs := by
  rw [usedPairs, usedPairs, List.filter_filter]
  refine List.filter_congr fun pair _ => ?_
  cases isLivePair pair <;> simp

theorem copyPairs_live (source : Record) (pairs : List (String × String)) :
    copyPairs source (pairs.filter isLivePair) = copyPairs source pairs := by
  rw [copyPairs, copyPairs, usedPairs_live]

theorem writes_live (source : Record) (pairs : List (String × String)) :
    writes source (pairs.filter isLivePair) = writes source pairs := by
  rw [writes, writes, usedPairs_live]

/-! ## The order of the pairs -/

theorem unused_perm (h : pairs.Perm pairs') : unused source pairs = unused source pairs' := by
  refine List.filter_congr fun e _ => congrArg not (Bool.eq_iff_iff.2 ?_)
  rw [List.contains_iff_mem, List.contains_iff_mem]
  exact ((h.filter _).map _).mem_iff

/-- **Copies that agree** are extracted in any order, with or without the other fields. -/
theorem extract_perm (hs : source.WellFormed) (hagree : CopiesAgree source pairs)
    (h : pairs.Perm pairs') (carried : Bool) :
    extract source pairs carried = extract source pairs' carried := by
  have hcopies := copyPairs_perm hs hagree h
  cases carried with
  | false => exact hcopies
  | true => rw [extract_true, extract_true, hcopies, unused_perm h]

/-! ## What comes into the record -/

/-- **What is found among the copies** lies at, above or below a target. -/
theorem exists_of_walk?_copyPairs {path : List String} (hne : path ≠ []) {v : Json}
    (h : (Json.obj (copyPairs source pairs)).walk? path = some v) :
    ∃ pair ∈ usedPairs source pairs,
      path <+: pathSegments pair.2 ∨ pathSegments pair.2 <+: path := by
  by_contra hnone
  -- then the path is apart from all writes, and nothing has come there
  have hapart : ∀ w ∈ writes source pairs, PathsApart w.1 path := by
    intro w hw
    obtain ⟨pair, hmem, hlive, hpath, hv⟩ := mem_writes_iff.1 hw
    have hused : pair ∈ usedPairs source pairs := mem_usedPairs_iff.2 ⟨hmem, hlive, w.2, hv⟩
    rw [hpath]
    exact ⟨fun hp => hnone ⟨pair, hused, .inr hp⟩, fun hp => hnone ⟨pair, hused, .inl hp⟩⟩
  rw [copyPairs_eq_setAll, (setAll_of_apart hapart (leads_nil path)).2, Json.walk?_obj_nil hne] at h
  exact Option.some_ne_none v h.symm

theorem get?_unused (source : Record) (pairs : List (String × String)) (key : String) :
    Table.get? (unused source pairs) key =
      if key ∈ (usedPairs source pairs).map Prod.fst then none else Table.get? source key := by
  rw [unused, Table.get?_restrict]
  by_cases h : key ∈ (usedPairs source pairs).map Prod.fst
  · rw [if_pos h, if_neg (by simpa using h)]
  · rw [if_neg h, if_pos (by simpa using h)]

/-- **A field that no copy comes into** is carried along if no pair has used it. -/
theorem get?_extract_of_ne {key : String}
    (h : ∀ pair ∈ usedPairs source pairs, (pathSegments pair.2).head? ≠ some key) :
    Table.get? (extract source pairs true) key =
      if key ∈ (usedPairs source pairs).map Prod.fst then none else Table.get? source key := by
  have hnone : Table.get? (copyPairs source pairs) key = none := by
    refine get?_copyPairs_of_ne fun pair hmem hlive hhead => ?_
    by_contra hv
    obtain ⟨v, hv⟩ := Option.ne_none_iff_exists'.1 hv
    exact h pair (mem_usedPairs_iff.2 ⟨hmem, hlive, v, hv⟩) hhead
  rw [extract_true, get?_mergeDeep_of_none _ (ordered_copyPairs source pairs) hnone, get?_unused]

/-! ## The result -/

/-- **The laws of extraction.** If the targets of the live pairs are apart from each other, the
pairs may be taken in any order; without the other fields, each target holds what its source
has and nothing else is found but above and below such targets; and with them, a field that
no target begins with is carried along unless a pair has used it, and left out if one has. -/
theorem extract_laws (hs : source.WellFormed) (h : TargetsApart (pairs.filter isLivePair)) :
    (∀ pairs', pairs'.Perm pairs → ∀ carried,
        extract source pairs' carried = extract source pairs carried) ∧
      (∀ pair ∈ pairs, isLivePair pair = true →
        (Json.obj (extract source pairs false)).walk? (pathSegments pair.2) =
          (Json.obj source).at? pair.1) ∧
      (∀ path v, path ≠ [] → (Json.obj (extract source pairs false)).walk? path = some v →
        ∃ pair ∈ usedPairs source pairs,
          path <+: pathSegments pair.2 ∨ pathSegments pair.2 <+: path) ∧
      ∀ key, (∀ pair ∈ usedPairs source pairs, (pathSegments pair.2).head? ≠ some key) →
        Table.get? (extract source pairs true) key =
          if key ∈ (usedPairs source pairs).map Prod.fst then none else Table.get? source key := by
  have hagree : CopiesAgree source pairs := by
    have hlive : CopiesAgree source (pairs.filter isLivePair) := copiesAgree_of_targetsApart h
    rwa [CopiesAgree, writes_live] at hlive
  refine ⟨fun pairs' hperm carried => (extract_perm hs hagree hperm.symm carried).symm,
    fun pair hmem hlive => ?_, fun path v hne hv => exists_of_walk?_copyPairs hne hv,
    fun key hkey => get?_extract_of_ne hkey⟩
  rw [extract_false, ← copyPairs_live]
  exact (copyPairs_of_mem source h (List.mem_filter.2 ⟨hmem, hlive⟩) hlive).2

/-- A record with a dotted name and with an array that is read by index. -/
def taggedRecord : Record :=
  [("a.b", .str "literal"), ("mail", .str "ada@example.org"), ("note", .null),
    ("tags", .arr [.str "x", .str "y"])]

/-- Pairs into one object and beside it, one of them without a value and one of them dead. -/
def taggedPairs : List (String × String) :=
  [("tags.1", "meta.tag"), ("a.b", "meta.name.first"), ("gone", "meta.gone"), ("", "meta"),
    ("mail", "email")]

theorem extract_laws_taggedRecord :
    taggedRecord.WellFormed ∧ TargetsApart (taggedPairs.filter isLivePair) ∧
      extract taggedRecord taggedPairs.reverse true = extract taggedRecord taggedPairs true ∧
      (Json.obj (extract taggedRecord taggedPairs false)).walk? ["meta", "tag"] =
        some (.str "y") ∧
      (∃ pair ∈ usedPairs taggedRecord taggedPairs,
        ["meta", "name"] <+: pathSegments pair.2 ∨ pathSegments pair.2 <+: ["meta", "name"]) ∧
      Table.get? (extract taggedRecord taggedPairs true) "tags" =
        some (.arr [.str "x", .str "y"]) ∧
      Table.get? (extract taggedRecord taggedPairs true) "mail" = none := by
  have hrecord : taggedRecord.WellFormed := by decide +kernel
  have hapart : TargetsApart (taggedPairs.filter isLivePair) := by decide +kernel
  obtain ⟨hperm, hcopied, honly, hcarried⟩ := extract_laws hrecord hapart
  refine ⟨hrecord, hapart, hperm _ taggedPairs.reverse_perm true, ?_, ?_, ?_, ?_⟩
  · exact (hcopied ("tags.1", "meta.tag") (by decide +kernel) (by decide +kernel)).trans
      (by decide +kernel)
  · exact honly ["meta", "name"] (.obj [("first", .str "literal")]) (by decide) (by decide +kernel)
  · exact (hcarried "tags" (by decide +kernel)).trans (by decide +kernel)
  · exact (hcarried "mail" (by decide +kernel)).trans (by decide +kernel)

end Record

end UserDirectory
