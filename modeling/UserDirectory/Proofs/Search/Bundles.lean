import Mathlib.Data.List.ReduceOption
import UserDirectory.Proofs.Search.Layers

/-!
# Layers of bundles

A bundle that is layered over others adds its directives to theirs, each directive by a
rule of its own. Every rule looks at two bundles only, at what there is so far and at
what comes in, and what there is so far has no memory of the layers it was made of. The
result can all the same be read off the whole sequence of layers, absent values passed
over: a directive is the first or the last value in it, a list of fields is the last
one or the first one with what the others have besides, the relations are all that any
layer lists, and the condition is the conjunction of all.

The condition is the only directive that grows: with each layer it comes to stand one
conjunction deeper. This cannot be seen in its query, which is the one of the layers'
queries side by side (`SearchBundle.layered_foldl`). It can be seen where the conditions
are too deep together; the merged condition is then no filter, and nothing is promised.

The page is encoded in two directives at once, and each of them keeps its first value.
The page that a caller chose in one of them is therefore lost to a later layer that
sets the other (`SearchBundle.pageIndex_merge_iff`).
-/

namespace UserDirectory

/-- **A part of the state** of which each step makes what it makes of it alone. -/
theorem foldl_part {σ τ α β : Type} (part : σ → τ) (argument : α → β) (step : σ → α → σ)
    (step' : τ → β → τ) (h : ∀ x a, part (step x a) = step' (part x) (argument a)) (x : σ)
    (as : List α) : part (as.foldl step x) = (as.map argument).foldl step' (part x) := by
  induction as generalizing x with
  | nil => rfl
  | cons a rest ih => rw [List.foldl_cons, ih, h, List.map_cons, List.foldl_cons]

/-! ## Directives -/

section

variable {α : Type}

/-- **The value that counts** of the values in the layers, in their order. -/
def Precedence.pick : Precedence → List α → Option α
  | .keepExisting, values => values.head?
  | .override, values => values.getLast?

theorem foldl_mergeDirective (rule : Precedence) (x : Option α) (xs : List (Option α)) :
    xs.foldl (mergeDirective rule) x = rule.pick (x :: xs).reduceOption := by
  induction xs generalizing x with
  | nil => cases rule <;> cases x <;> rfl
  | cons y rest ih =>
    rw [List.foldl_cons, ih]
    -- of two values, the one that does not count can be left out
    cases rule <;> cases x <;> cases y <;>
      simp [mergeDirective, Precedence.pick, List.reduceOption]

end

/-! ## Fields -/

/-- **The fields that count** of the lists in the layers, in their order: the last list,
or the first one and behind it what the others have besides, each once. -/
def FieldsMerge.combine : FieldsMerge → List (List String) → Option (List String)
  | .replace, lists => lists.getLast?
  | .append, [] => none
  | .append, first :: later => some (first ++ (later.flatten.filter (!first.contains ·)).eraseDups)

theorem appendNew_eq (existing incoming : List String) :
    appendNew (· == ·) existing incoming =
      existing ++ (incoming.filter (!existing.contains ·)).eraseDups := by
  unfold appendNew
  induction incoming generalizing existing with
  | nil => exact (List.append_nil _).symm
  | cons a rest ih =>
    rw [List.foldl_cons, ih]
    by_cases ha : a ∈ existing
    · simp [ha]
    · -- from here on, the item is one of those that are there
      have hfilter : rest.filter (!(existing ++ [a]).contains ·) =
          (rest.filter (!existing.contains ·)).filter fun b => !b == a := by
        rw [List.filter_filter]
        refine List.filter_congr fun b _ => ?_
        rw [List.contains_eq_mem, List.contains_eq_mem, ← Bool.not_or]
        simp [or_comm, beq_eq_decide]
      have hany : (existing.any fun b => b == a) = false :=
        List.any_eq_false.2 fun b hb hba => ha (beq_iff_eq.1 hba ▸ hb)
      rw [hany, if_neg Bool.false_ne_true, hfilter, List.filter_cons_of_pos (by simpa using ha),
        List.eraseDups_cons, List.append_assoc, List.singleton_append]

theorem FieldsMerge.combine_append (first : List String) (later : List (List String)) :
    combine .append (first :: later) = some (appendNew (· == ·) first later.flatten) :=
  congrArg some (appendNew_eq first later.flatten).symm

theorem foldl_mergeFields (rule : FieldsMerge) (x : Option (List String))
    (xs : List (Option (List String))) :
    xs.foldl (mergeFields rule) x = rule.combine (x :: xs).reduceOption := by
  induction xs generalizing x with
  | nil => cases rule <;> cases x <;> simp [FieldsMerge.combine, List.reduceOption]
  | cons y rest ih =>
    rw [List.foldl_cons, ih]
    match rule, x, y with
    | _, _, none => rfl
    | .replace, none, some _ | .append, none, some _ => rfl
    | .replace, some _, some _ => rfl
    | .append, some fs, some gs =>
      -- what is new to both lists is added behind them, in either way of adding
      show FieldsMerge.append.combine (appendNew (· == ·) fs gs :: rest.reduceOption) =
        FieldsMerge.append.combine (fs :: gs :: rest.reduceOption)
      rw [FieldsMerge.combine_append, FieldsMerge.combine_append, List.flatten_cons, appendNew,
        appendNew, appendNew, List.foldl_append]

/-! ## Relations -/

/-- Merged relations that are not nested are listed. -/
theorem mergeRelations_some (existing incoming : Json) :
    mergeRelations false (some existing) (some incoming) =
      some (.arr (appendNew Json.sameValue (relationList existing) (relationList incoming))) := by
  cases incoming <;> rfl

section

variable {α : Type} {same : α → α → Bool} {existing incoming : List α}

theorem appendNew_cons (a : α) (rest : List α) :
    appendNew same existing (a :: rest) =
      appendNew same (if existing.any (same · a) then existing else existing ++ [a]) rest := rfl

theorem mem_appendNew_of_mem {a : α} (ha : a ∈ existing) :
    a ∈ appendNew same existing incoming := by
  induction incoming generalizing existing with
  | nil => exact ha
  | cons b rest ih =>
    rw [appendNew_cons]
    split
    · exact ih ha
    · exact ih (List.mem_append_left _ ha)

/-- What a list holds to which others were added was there, or is one of them. -/
theorem mem_of_mem_appendNew {a : α} (ha : a ∈ appendNew same existing incoming) :
    a ∈ existing ∨ a ∈ incoming := by
  induction incoming generalizing existing with
  | nil => exact .inl ha
  | cons b rest ih =>
    rw [appendNew_cons] at ha
    split at ha
    · exact (ih ha).imp_right (List.mem_cons_of_mem b)
    · rcases ih ha with h | h
      · rcases List.mem_append.1 h with h | h
        · exact .inl h
        · exact .inr (List.mem_singleton.1 h ▸ List.mem_cons_self)
      · exact .inr (List.mem_cons_of_mem b h)

/-- What is added to a list is in it, or something is that counts as the same. -/
theorem exists_same_of_mem (hsame : ∀ a, same a a = true) {a : α} (ha : a ∈ incoming) :
    ∃ b ∈ appendNew same existing incoming, same b a = true := by
  induction incoming generalizing existing with
  | nil => exact absurd ha List.not_mem_nil
  | cons b rest ih =>
    rw [appendNew_cons]
    rcases List.mem_cons.1 ha with rfl | ha
    · split
      · next h =>
        obtain ⟨c, hc, hca⟩ := List.any_eq_true.1 h
        exact ⟨c, mem_appendNew_of_mem hc, hca⟩
      · exact ⟨a, mem_appendNew_of_mem (List.mem_append_right _ (List.mem_singleton_self a)),
          hsame a⟩
    · exact ih ha

end

theorem Json.sameValue_self (v : Json) : v.sameValue v = true := beq_self_eq_true _

/-- **The relations list what the values list**, and nothing else; where numbers are
equal, one of them stands for both. -/
structure ListsAll (values : List Json) (relations : Option Json) : Prop where
  eq_none_iff : relations = none ↔ values = []
  of_mem : ∀ v ∈ relations, ∀ item ∈ relationList v, ∃ w ∈ values, item ∈ relationList w
  mem : ∀ w ∈ values, ∀ item ∈ relationList w,
    ∃ v ∈ relations, ∃ same ∈ relationList v, Json.sameValue same item = true

theorem ListsAll.toList (x : Option Json) : ListsAll x.toList x where
  eq_none_iff := Option.toList_eq_nil_iff.symm
  of_mem v hv _ hitem := ⟨v, Option.mem_toList.2 hv, hitem⟩
  mem w hw item hitem := ⟨w, Option.mem_toList.1 hw, item, hitem, Json.sameValue_self item⟩

/-- **One layer more** lists what it lists besides. -/
theorem ListsAll.merge {values : List Json} {x : Option Json} (h : ListsAll values x)
    (y : Option Json) : ListsAll (values ++ y.toList) (mergeRelations false x y) := by
  match x, y with
  | _, none =>
    rw [Option.toList_none, List.append_nil]
    exact h
  | none, some incoming =>
    obtain rfl := h.eq_none_iff.1 rfl
    exact .toList (some incoming)
  | some existing, some incoming =>
    rw [mergeRelations_some]
    refine ⟨iff_of_false nofun (by simp), ?_, ?_⟩
    · rintro _ ⟨⟩ item hitem
      rcases mem_of_mem_appendNew hitem with hitem | hitem
      · obtain ⟨w, hw, hmem⟩ := h.of_mem existing rfl item hitem
        exact ⟨w, List.mem_append_left _ hw, hmem⟩
      · exact ⟨incoming, List.mem_append_right _ (List.mem_singleton_self incoming), hitem⟩
    · intro w hw item hitem
      rcases List.mem_append.1 hw with hw | hw
      · obtain ⟨_, ⟨⟩, same, hmem, hsame⟩ := h.mem w hw item hitem
        exact ⟨_, rfl, same, mem_appendNew_of_mem hmem, hsame⟩
      · obtain rfl := List.mem_singleton.1 hw
        obtain ⟨same, hmem, hsame⟩ := exists_same_of_mem Json.sameValue_self hitem
        exact ⟨_, rfl, same, hmem, hsame⟩

theorem ListsAll.foldl {values : List (Option Json)} {x : Option Json}
    (h : ListsAll values.reduceOption x) (xs : List (Option Json)) :
    ListsAll (values ++ xs).reduceOption (xs.foldl (mergeRelations false) x) := by
  induction xs generalizing values x with
  | nil => rwa [List.append_nil]
  | cons y rest ih =>
    have hstep := h.merge y
    rw [← List.reduceOption_singleton, ← List.reduceOption_append] at hstep
    rw [List.foldl_cons, ← List.singleton_append, ← List.append_assoc]
    exact ih hstep

theorem listsAll_foldl (x : Option Json) (xs : List (Option Json)) :
    ListsAll (x :: xs).reduceOption (xs.foldl (mergeRelations false) x) := by
  have h : ListsAll [x].reduceOption x := List.reduceOption_singleton x ▸ .toList x
  exact h.foldl xs

/-! ## Conditions -/

theorem getD_mergeCondition (x y : Option Json) :
    (mergeCondition x y).getD .null = conjunction (x.getD .null) (y.getD .null) := by
  cases y with
  | none => rfl
  | some addition =>
    cases h : conjunction (x.getD .null) addition <;> simp [mergeCondition, h]

/-- **Layered conditions** are their conjunction, an absent one counting as `null`. -/
theorem getD_foldl_mergeCondition (x : Option Json) (xs : List (Option Json)) :
    (xs.foldl mergeCondition x).getD .null =
      (xs.map (·.getD .null)).foldl conjunction (x.getD .null) :=
  foldl_part (·.getD .null) (·.getD .null) mergeCondition conjunction getD_mergeCondition x xs

/-- The conditions that ask something, of the values in the layers. -/
def askingConditions (values : List Json) : List Json :=
  values.filter fun v => !isEmptyCondition v

theorem askingConditions_getD (xs : List (Option Json)) :
    askingConditions (xs.map (·.getD .null)) = askingConditions xs.reduceOption := by
  induction xs with
  | nil => rfl
  | cons x rest ih =>
    cases x with
    | none => exact ih
    | some v =>
      show List.filter _ (v :: _) = List.filter _ (v :: _)
      rw [List.filter_cons, List.filter_cons]
      exact congrArg (fun vs => if (!isEmptyCondition v) = true then v :: vs else vs) ih

/-- **A layered condition reads as its layers do**, one after the other, those that ask
nothing left out. -/
theorem exists_filters_of_foldl_mergeCondition {x : Option Json} {xs : List (Option Json)}
    {f : Filter} (h : Filter.ofJson ((xs.foldl mergeCondition x).getD .null) = .ok f) :
    ∃ fs, List.Forall₂ (fun v k => Filter.ofJson v = .ok k)
        (askingConditions (x :: xs).reduceOption) fs ∧ f.SameText fs.flatten := by
  rw [getD_foldl_mergeCondition] at h
  obtain ⟨g, gs, hg, hgs, hsame⟩ := readsConjunctions_ofJson.foldl h
  obtain ⟨fs, hfs, hflatten⟩ := readsConjunctions_ofJson.forall₂_filter (hgs.cons hg)
  refine ⟨fs, ?_, ?_⟩
  · rw [← askingConditions_getD]
    exact hfs
  · rw [hflatten]
    exact hsame

/-! ## Bundles -/

/-- **What layers come to**, directive by directive, of a bundle and others layered
over it. -/
structure Layered (spec : MergeSpec) (base : SearchBundle) (updates : List SearchBundle)
    (merged : SearchBundle) : Prop where
  order : merged.order = spec.order.pick ((base :: updates).filterMap (·.order))
  limit : merged.limit = spec.limit.pick ((base :: updates).filterMap (·.limit))
  offset : merged.offset = spec.offset.pick ((base :: updates).filterMap (·.offset))
  skip : merged.skip = spec.offset.pick ((base :: updates).filterMap (·.skip))
  totals : merged.totals = ((base :: updates).filterMap (·.totals)).head?
  fields : merged.fields = spec.fields.combine ((base :: updates).filterMap (·.fields))
  relations : if spec.relations then
      ListsAll ((base :: updates).filterMap (·.relations)) merged.relations
    else merged.relations = base.relations
  /-- A condition that is a filter compiles as those of the layers do side by side. -/
  condition : ∀ f, Filter.ofJson (merged.condition.getD .null) = .ok f →
    ∃ parts, List.Forall₂ (fun v part => (Filter.ofJson v).map Filter.compile = .ok part)
        (askingConditions ((base :: updates).filterMap (·.condition))) parts ∧
      f.compile = {
        query := Query.conjoin ((parts.map (·.query)).filter (!·.isEmpty))
        dropped := parts.flatMap (·.dropped) }

namespace SearchBundle

section

variable {spec : MergeSpec} {base : SearchBundle} {updates : List SearchBundle} {α : Type}
  {directive : SearchBundle → Option α}

/-- A directive is layered apart from the others. -/
theorem directive_foldl (directive : SearchBundle → Option α)
    (step : Option α → Option α → Option α)
    (h : ∀ b u, directive (merge spec b u) = step (directive b) (directive u)) :
    directive (updates.foldl (merge spec) base) =
      (updates.map directive).foldl step (directive base) :=
  foldl_part directive directive _ step h base updates

theorem reduceOption_directives :
    (directive base :: updates.map directive).reduceOption =
      (base :: updates).filterMap directive := by
  rw [← List.map_cons, List.reduceOption, List.filterMap_map]
  rfl

/-- A directive of which one value counts. -/
theorem pick_foldl {rule : Precedence}
    (h : ∀ b u, directive (merge spec b u) = mergeDirective rule (directive b) (directive u)) :
    directive (updates.foldl (merge spec) base) =
      rule.pick ((base :: updates).filterMap directive) := by
  rw [directive_foldl _ _ h, foldl_mergeDirective, reduceOption_directives]

end

/-- **Layered bundles read off the layers.** Without nested relations, each directive of a
bundle with others layered over it is what its rule makes of the values in the layers, in
their order; and if the merged condition is a filter, then so is that of every layer, and
its query joins theirs in order, less the empty ones, and drops what they drop. -/
theorem layered_foldl {spec : MergeSpec} (hspec : spec.nestedRelations = false)
    (base : SearchBundle) (updates : List SearchBundle) :
    Layered spec base updates (updates.foldl (merge spec) base) where
  order := pick_foldl fun _ _ => rfl
  limit := pick_foldl fun _ _ => rfl
  offset := pick_foldl fun _ _ => rfl
  skip := pick_foldl fun _ _ => rfl
  totals := pick_foldl fun b u => show _ = mergeDirective .keepExisting b.totals u.totals from rfl
  fields := by
    rw [directive_foldl (·.fields) (mergeFields spec.fields) fun _ _ => rfl, foldl_mergeFields,
      reduceOption_directives]
  relations := by
    split
    · next h =>
      rw [directive_foldl (·.relations) (mergeRelations false) fun _ _ => by
        rw [merge, if_pos h, hspec], ← reduceOption_directives]
      exact listsAll_foldl _ _
    · next h =>
      rw [directive_foldl (·.relations) (fun x _ => x) fun _ _ => by rw [merge, if_neg h]]
      exact List.foldl_fixed _
  condition := by
    intro f hf
    rw [directive_foldl (·.condition) mergeCondition fun _ _ => rfl] at hf
    obtain ⟨fs, hfs, hsame⟩ := exists_filters_of_foldl_mergeCondition hf
    rw [reduceOption_directives] at hfs
    refine ⟨fs.map Filter.compile, ?_, ?_⟩
    · exact List.forall₂_map_right_iff.2 (hfs.imp fun v k hk => map_eq_ok_iff.2 ⟨k, hk, rfl⟩)
    · rw [hsame.compile_eq, ConnectorSettings.compile_flatten]

/-- A caller's bundle with two layers over it: the last limit counts, fields are
appended, and a layer without a condition leaves no trace. -/
theorem layered_foldl_twoLayers :
    let spec : MergeSpec := { fields := .append, limit := .override }
    let caller : Json := .obj [("name", .str "Jo"), ("near", .null)]
    let scope : Json := .obj [("blocked", .bool false)]
    let base : SearchBundle := {
      condition := some caller
      limit := some 10
      skip := some 2
      fields := some ["email", "name"]
      relations := some (.str "roles") }
    let updates : List SearchBundle := [
      { condition := some (.obj [])
        limit := some 20
        offset := some 3
        fields := some ["name", "id", "id"]
        relations := some (.arr [.str "roles", .str "groups"]) },
      { condition := some scope
        offset := some 4
        totals := some true
        relations := some .null }]
    let merged : SearchBundle := {
      condition := some (.obj [("and", .arr [caller, scope])])
      limit := some 20
      offset := some 3
      skip := some 2
      fields := some ["email", "name", "id"]
      totals := some true
      relations := some (.arr [.str "roles", .str "groups"]) }
    spec.nestedRelations = false ∧ updates.foldl (merge spec) base = merged ∧
      Layered spec base updates merged ∧
      (Filter.ofJson (merged.condition.getD .null)).map Filter.compile =
        .ok ⟨"name:\"Jo\" AND blocked:false", [⟨"near", none, .unsupportedOperator⟩]⟩ := by
  intro spec caller scope base updates merged
  have hmerged : updates.foldl (merge spec) base = merged := by decide +kernel
  exact ⟨rfl, hmerged, hmerged ▸ layered_foldl rfl base updates, by decide +kernel⟩

end SearchBundle

/-! ## Pages -/

/-- An offset above one names the page, whatever the skip. -/
theorem pageIndex_of_offset {n : Nat} (h : 1 < n) (skip : Option Nat) :
    pageIndex (some n) skip = some (n - 1) := by
  unfold pageIndex
  rw [Option.filter_some_pos (by simpa using h)]

/-- Any other offset leaves the page to the skip. -/
theorem pageIndex_of_first {offset : Option Nat} (h : ∀ n ∈ offset, n ≤ 1) (skip : Option Nat) :
    pageIndex offset skip = pageIndex skip none := by
  have hoffset : offset.filter (1 < ·) = none :=
    Option.filter_eq_none_iff.2 fun n hn => by simpa using h n hn
  unfold pageIndex
  rw [hoffset]
  cases skip.filter (1 < ·) <;> rfl

theorem pageIndex_eq_none_iff {skip : Option Nat} :
    pageIndex skip none = none ↔ ∀ k ∈ skip, k ≤ 1 := by
  constructor
  · intro h k hk
    obtain rfl : skip = some k := hk
    refine Nat.le_of_not_lt fun hlt => ?_
    rw [pageIndex_of_offset hlt] at h
    exact absurd h nofun
  · intro h
    rw [pageIndex_of_first h]
    rfl

/-- Two positions above one are the same if their pages are. -/
theorem pageIndex_eq_some_iff {skip : Option Nat} {n : Nat} (hn : 1 < n) :
    pageIndex skip none = some (n - 1) ↔ skip = some n := by
  constructor
  · intro h
    by_cases hlt : ∃ k ∈ skip, 1 < k
    · obtain ⟨k, rfl, hk⟩ := hlt
      rw [pageIndex_of_offset hk, Option.some_inj] at h
      rw [Option.some_inj]
      omega
    · have hnone := pageIndex_eq_none_iff.2 fun k hk => Nat.le_of_not_lt fun h => hlt ⟨k, hk, h⟩
      exact absurd (hnone.symm.trans h) nofun
  · rintro rfl
    exact pageIndex_of_offset hn none

/-- A skip that comes in is looked at if there is none. -/
theorem pageIndex_or_iff (s s' : Option Nat) :
    pageIndex (s.or s') none = pageIndex s none ↔ (s = none → ∀ k ∈ s', k ≤ 1) := by
  cases s with
  | some n => exact iff_of_true rfl nofun
  | none =>
    rw [Option.none_or, ← pageIndex_eq_none_iff]
    exact ⟨fun h _ => h, fun h => h rfl⟩

/-- Positions that only fill in what is absent keep the page, unless the first of them
to be looked at was absent and now names another one. -/
theorem pageIndex_or_or_iff (o s o' s' : Option Nat) :
    pageIndex (o.or o') (s.or s') = pageIndex o s ↔
      (∃ n ∈ o, 1 < n) ∨
        ((o = none → ∀ k ∈ o', 1 < k → s = some k) ∧ (s = none → ∀ k ∈ s', k ≤ 1)) := by
  by_cases ho : ∃ n ∈ o, 1 < n
  · obtain ⟨n, rfl, hn⟩ := ho
    rw [Option.some_or, pageIndex_of_offset hn, pageIndex_of_offset hn]
    exact iff_of_true rfl (.inl ⟨n, rfl, hn⟩)
  rw [or_iff_right ho]
  have hfirst : ∀ n ∈ o, n ≤ 1 := fun n hn => Nat.le_of_not_lt fun h => ho ⟨n, hn, h⟩
  rw [pageIndex_of_first hfirst]
  by_cases hnew : o = none ∧ ∃ k ∈ o', 1 < k
  · -- the offset that comes in names the page
    obtain ⟨rfl, k, rfl, hk⟩ := hnew
    rw [Option.none_or, pageIndex_of_offset hk, eq_comm, pageIndex_eq_some_iff hk]
    constructor
    · rintro rfl
      exact ⟨fun _ _ hk' _ => hk', nofun⟩
    · exact fun h => h.1 rfl k rfl hk
  · -- no offset names a page, so that the skips decide
    have hmerged : ∀ n ∈ o.or o', n ≤ 1 := by
      intro n hn
      rcases Option.or_eq_some_iff.1 hn with hn | ⟨hnone, hn⟩
      · exact hfirst n hn
      · exact Nat.le_of_not_lt fun h => hnew ⟨hnone, n, hn, h⟩
    rw [pageIndex_of_first hmerged, pageIndex_or_iff, and_iff_right]
    exact fun hnone k hk h => absurd ⟨hnone, k, hk, h⟩ hnew

namespace SearchBundle

/-- **When the page survives a layer.** Where the first `offset` and the first `skip`
count, the page of the bundle is kept by a layer in just these cases: its offset names
a page; or the layer sets no offset that names one, unless the bundle has an offset or
this is the page of its skip, and the layer sets no skip that names one, unless the
bundle has a skip. -/
theorem pageIndex_merge_iff {spec : MergeSpec} (hspec : spec.offset = .keepExisting)
    (base update : SearchBundle) :
    pageIndex (merge spec base update).offset (merge spec base update).skip =
        pageIndex base.offset base.skip ↔
      (∃ n ∈ base.offset, 1 < n) ∨
        ((base.offset = none → ∀ k ∈ update.offset, 1 < k → base.skip = some k) ∧
          (base.skip = none → ∀ k ∈ update.skip, k ≤ 1)) := by
  unfold merge
  rw [hspec]
  exact pageIndex_or_or_iff base.offset base.skip update.offset update.skip

/-- A bundle with both positions keeps its page, which is that of the skip. -/
theorem pageIndex_merge_of_both :
    let spec : MergeSpec := {}
    let base : SearchBundle := { offset := some 1, skip := some 3 }
    let update : SearchBundle := { offset := some 5, skip := some 7 }
    spec.offset = .keepExisting ∧
      pageIndex (merge spec base update).offset (merge spec base update).skip =
        pageIndex base.offset base.skip :=
  ⟨rfl, (pageIndex_merge_iff rfl _ _).2 (.inr ⟨nofun, nofun⟩)⟩

/-- **A page may be lost to a layer**: a caller who skips to the third page is sent the
fifth after a layer with an offset, and one who asks for the first page is sent the
fifth after a layer with a skip, although each position keeps its first value. -/
theorem page_lost_to_layer :
    let spec : MergeSpec := {}
    let skipped := merge spec { skip := some 3 } { offset := some 5 }
    let first := merge spec { offset := some 1 } { skip := some 5 }
    spec.offset = .keepExisting ∧
      (pageIndex none (some 3) = some 2 ∧ pageIndex skipped.offset skipped.skip = some 4) ∧
      (pageIndex (some 1) none = none ∧ pageIndex first.offset first.skip = some 4) := by
  decide +kernel

end SearchBundle

end UserDirectory
