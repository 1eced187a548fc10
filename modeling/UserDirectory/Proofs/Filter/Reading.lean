import UserDirectory.Filter.Reader
import UserDirectory.Proofs.Results

/-!
# Reading filters at another depth

The depth at which an object stands decides only whether it is refused for being
too deep. What can be read at some depth can be read at any smaller one, and is
the same filter there: a condition that was accepted inside a group of
conditions is accepted on its own.
-/

namespace UserDirectory

/-- An operand is read through the reading of its value as a filter. -/
theorem Operand.ofEntry_mono {key : String} {v : Json} {nested nested' : FilterResult Filter}
    (hn : ∀ f, nested = .ok f → nested' = .ok f) {operand : Operand}
    (h : Operand.ofEntry key v nested = .ok operand) :
    Operand.ofEntry key v nested' = .ok operand := by
  cases v with
  | obj fields =>
    obtain ⟨f, hf, rfl⟩ := map_eq_ok_iff.1 h
    exact map_eq_ok_iff.2 ⟨f, hn f hf, rfl⟩
  | _ => exact h

/-- An operator is read through the reading of its value as a filter. -/
theorem Operator.ofEntry_mono {keyword : Keyword} {key : String} {v : Json}
    {nested nested' : FilterResult Filter} (hn : ∀ f, nested = .ok f → nested' = .ok f)
    {op : Operator} (h : Operator.ofEntry keyword key v nested = .ok op) :
    Operator.ofEntry keyword key v nested' = .ok op := by
  cases keyword with
  | neq =>
    obtain ⟨operand, ho, rfl⟩ := map_eq_ok_iff.1 h
    exact map_eq_ok_iff.2 ⟨operand, Operand.ofEntry_mono hn ho, rfl⟩
  | _ => exact h

/-- **A clause is read through the readings of its value**, as a filter and as a
list of filters. -/
theorem Clause.ofEntry_mono {key : String} {v : Json} {nested nested' : FilterResult Filter}
    {children children' : FilterResult (List Filter)} (hn : ∀ f, nested = .ok f → nested' = .ok f)
    (hc : ∀ fs, children = .ok fs → children' = .ok fs) {clause : Clause}
    (h : Clause.ofEntry key v nested children = .ok clause) :
    Clause.ofEntry key v nested' children' = .ok clause := by
  unfold Clause.ofEntry at h ⊢
  cases hkey : FilterKey.ofKey key with
  | and | or =>
    rw [hkey] at h
    obtain ⟨fs, hfs, rfl⟩ := map_eq_ok_iff.1 h
    exact map_eq_ok_iff.2 ⟨fs, hc fs hfs, rfl⟩
  | operator keyword =>
    rw [hkey] at h
    obtain ⟨op, hop, rfl⟩ := map_eq_ok_iff.1 h
    exact map_eq_ok_iff.2 ⟨op, Operator.ofEntry_mono hn hop, rfl⟩
  | field =>
    rw [hkey] at h
    obtain ⟨operand, ho, rfl⟩ := map_eq_ok_iff.1 h
    exact map_eq_ok_iff.2 ⟨operand, Operand.ofEntry_mono hn ho, rfl⟩
  | _ =>
    rw [hkey] at h
    exact h

/-- A depth that is allowed allows all smaller ones. -/
theorem checkDepth_mono {d d' : Nat} (hd : d' ≤ d) (h : checkDepth d = .ok ()) :
    checkDepth d' = .ok () := by
  unfold checkDepth at h ⊢
  split at h
  · exact Except.noConfusion rfl rfl (heq_of_eq h)
  · rw [if_neg (by omega)]

mutual

theorem Clause.ofField_mono {d d' : Nat} (hd : d' ≤ d) (key : String) :
    (v : Json) → ∀ {clause : Clause}, Clause.ofField d key v = .ok clause →
      Clause.ofField d' key v = .ok clause
  | .obj fields, _, h => by
    refine Clause.ofEntry_mono (fun f hf => ?_) (fun _ hfs => hfs) h
    obtain ⟨_, hdepth, hf⟩ := bind_eq_ok_iff.1 hf
    exact bind_eq_ok_iff.2 ⟨(), checkDepth_mono (Nat.add_le_add_right hd 1) hdepth,
      Filter.ofFields_mono (Nat.add_le_add_right hd 1) fields hf⟩
  | .arr items, _, h =>
    Clause.ofEntry_mono (fun _ hf => hf)
      (fun _ hfs => Filter.ofItems_mono (Nat.add_le_add_right hd 1) key items hfs) h
  | .null, _, h | .bool _, _, h | .num _, _, h | .str _, _, h => h

/-- **What is read at some depth is read at any smaller one.** -/
theorem Filter.ofFields_mono {d d' : Nat} (hd : d' ≤ d) :
    (fields : List (String × Json)) → ∀ {f : Filter}, Filter.ofFields d fields = .ok f →
      Filter.ofFields d' fields = .ok f
  | [], _, h => h
  | (key, v) :: rest, _, h => by
    obtain ⟨clause, hclause, h⟩ := bind_eq_ok_iff.1 h
    obtain ⟨clauses, hclauses, h⟩ := bind_eq_ok_iff.1 h
    exact bind_eq_ok_iff.2 ⟨clause, Clause.ofField_mono hd key v hclause,
      bind_eq_ok_iff.2 ⟨clauses, Filter.ofFields_mono hd rest hclauses, h⟩⟩

theorem Filter.ofItems_mono {d d' : Nat} (hd : d' ≤ d) (key : String) :
    (items : List Json) → ∀ {fs : List Filter}, Filter.ofItems d key items = .ok fs →
      Filter.ofItems d' key items = .ok fs
  | [], _, h => h
  | .obj fields :: rest, _, h => by
    obtain ⟨_, hdepth, h⟩ := bind_eq_ok_iff.1 h
    obtain ⟨f, hf, h⟩ := bind_eq_ok_iff.1 h
    obtain ⟨fs, hfs, h⟩ := bind_eq_ok_iff.1 h
    exact bind_eq_ok_iff.2 ⟨(), checkDepth_mono hd hdepth,
      bind_eq_ok_iff.2 ⟨f, Filter.ofFields_mono hd fields hf,
        bind_eq_ok_iff.2 ⟨fs, Filter.ofItems_mono hd key rest hfs, h⟩⟩⟩
  | .null :: _, _, h | .bool _ :: _, _, h | .num _ :: _, _, h | .str _ :: _, _, h
  | .arr _ :: _, _, h => h

end

/-! ## Conditions as filters -/

/-- The conditions of a group are read one by one, each as on its own. -/
theorem Filter.ofItems_eq_ok_cons {d : Nat} {key : String} {v : Json} {rest : List Json}
    {fs : List Filter} (h : Filter.ofItems d key (v :: rest) = .ok fs) :
    ∃ f gs, Filter.ofJson v = .ok f ∧ Filter.ofItems d key rest = .ok gs ∧ fs = f :: gs := by
  cases v with
  | obj fields =>
    obtain ⟨_, -, h⟩ := bind_eq_ok_iff.1 h
    obtain ⟨f, hf, h⟩ := bind_eq_ok_iff.1 h
    obtain ⟨gs, hgs, h⟩ := bind_eq_ok_iff.1 h
    exact ⟨f, gs, Filter.ofFields_mono (Nat.zero_le d) fields hf, hgs, (Except.ok.inj h).symm⟩
  | _ => exact Except.noConfusion rfl rfl (heq_of_eq h)

/-- **A conjunction of two conditions** is read as the conjunction of the two
filters. -/
theorem Filter.ofJson_pair {v w : Json} {f : Filter}
    (h : Filter.ofJson (.obj [("and", .arr [v, w])]) = .ok f) :
    ∃ g k, Filter.ofJson v = .ok g ∧ Filter.ofJson w = .ok k ∧ f = [.and [g, k]] := by
  obtain ⟨clause, hclause, h⟩ := bind_eq_ok_iff.1 h
  obtain ⟨fs, hfs, rfl⟩ := map_eq_ok_iff.1
    (show (Filter.ofItems 1 "and" [v, w]).map Clause.and = .ok clause from hclause)
  obtain ⟨g, gs, hg, hgs, rfl⟩ := Filter.ofItems_eq_ok_cons hfs
  obtain ⟨k, ks, hk, hks, rfl⟩ := Filter.ofItems_eq_ok_cons hgs
  obtain rfl : [] = ks := Except.ok.inj hks
  exact ⟨g, k, hg, hk, (Except.ok.inj h).symm⟩

/-! ## Reading entry by entry -/

/-- **A filter is read entry by entry.** -/
theorem Filter.ofFields_eq_ok_iff {d : Nat} {fields : List (String × Json)} {f : Filter} :
    Filter.ofFields d fields = .ok f ↔
      List.Forall₂ (fun e c => Clause.ofField d e.1 e.2 = .ok c) fields f := by
  induction fields generalizing f with
  | nil =>
    rw [List.forall₂_nil_left_iff]
    exact ⟨fun h => (Except.ok.inj h).symm, fun h => h ▸ rfl⟩
  | cons e rest ih =>
    rw [List.forall₂_cons_left_iff]
    constructor
    · intro h
      obtain ⟨c, hc, h⟩ := bind_eq_ok_iff.1 h
      obtain ⟨cs, hcs, h⟩ := bind_eq_ok_iff.1 h
      exact ⟨c, cs, hc, ih.1 hcs, (Except.ok.inj h).symm⟩
    · rintro ⟨c, cs, hc, hcs, rfl⟩
      exact bind_eq_ok_iff.2 ⟨c, hc, bind_eq_ok_iff.2 ⟨cs, ih.2 hcs, rfl⟩⟩

/-- Entries side by side are read side by side. -/
theorem Filter.ofFields_append {d : Nat} {es es' : List (String × Json)} {f f' : Filter}
    (h : Filter.ofFields d es = .ok f) (h' : Filter.ofFields d es' = .ok f') :
    Filter.ofFields d (es ++ es') = .ok (f ++ f') :=
  ofFields_eq_ok_iff.2 (List.rel_append (ofFields_eq_ok_iff.1 h) (ofFields_eq_ok_iff.1 h'))

/-- **A clause is the same at every depth** at which it can be read. -/
theorem Clause.ofField_unique {d d' : Nat} {key : String} {v : Json} {c c' : Clause}
    (h : Clause.ofField d key v = .ok c) (h' : Clause.ofField d' key v = .ok c') : c = c' :=
  Except.ok.inj ((Clause.ofField_mono (Nat.zero_le d) key v h).symm.trans
    (Clause.ofField_mono (Nat.zero_le d') key v h'))

/-- Groups are read in parts. -/
theorem Filter.exists_append_of_ofItems {d : Nat} {key : String} {items items' : List Json}
    {fs : List Filter} (h : Filter.ofItems d key (items ++ items') = .ok fs) :
    ∃ gs ks, Filter.ofItems d key items = .ok gs ∧ Filter.ofItems d key items' = .ok ks ∧
      fs = gs ++ ks := by
  induction items generalizing fs with
  | nil => exact ⟨[], fs, rfl, h, rfl⟩
  | cons v rest ih =>
    cases v with
    | obj fields =>
      obtain ⟨_, hdepth, h⟩ := bind_eq_ok_iff.1 h
      obtain ⟨f, hf, h⟩ := bind_eq_ok_iff.1 h
      obtain ⟨fs', hfs', h⟩ := bind_eq_ok_iff.1 h
      obtain rfl := Except.ok.inj h
      obtain ⟨gs, ks, hgs, hks, rfl⟩ := ih hfs'
      refine ⟨f :: gs, ks, ?_, hks, rfl⟩
      exact bind_eq_ok_iff.2 ⟨(), hdepth, bind_eq_ok_iff.2 ⟨f, hf, bind_eq_ok_iff.2 ⟨gs, hgs, rfl⟩⟩⟩
    | _ => exact Except.noConfusion rfl rfl (heq_of_eq h)

/-! ## Reading under another key

The key of an operand is named in errors only. -/

theorem expectScalars_of_eq_ok {key : String} (key' : String) {items : List Json}
    {values : List Literal} (h : expectScalars key items = .ok values) :
    expectScalars key' items = .ok values := by
  unfold expectScalars at h ⊢
  induction items generalizing values with
  | nil => exact h
  | cons v rest ih =>
    rw [List.mapM_cons] at h ⊢
    obtain ⟨value, hvalue, h⟩ := bind_eq_ok_iff.1 h
    obtain ⟨values', hvalues, h⟩ := bind_eq_ok_iff.1 h
    refine bind_eq_ok_iff.2 ⟨value, ?_, bind_eq_ok_iff.2 ⟨values', ih hvalues, h⟩⟩
    cases hl : Literal.ofJson? v with
    | none =>
      rw [hl] at hvalue
      exact absurd hvalue nofun
    | some l =>
      rw [hl] at hvalue
      exact hvalue

theorem Operand.ofEntry_of_eq_ok {key : String} (key' : String) {v : Json}
    {nested : FilterResult Filter} {operand : Operand}
    (h : Operand.ofEntry key v nested = .ok operand) :
    Operand.ofEntry key' v nested = .ok operand := by
  cases v with
  | arr items =>
    obtain ⟨values, hvalues, rfl⟩ := map_eq_ok_iff.1 h
    exact map_eq_ok_iff.2 ⟨values, expectScalars_of_eq_ok key' hvalues, rfl⟩
  | _ => exact h

/-- The clause of a field is its name and its operand. -/
theorem Clause.ofField_eq_map (d : Nat) (v : Json) :
    ∃ nested, ∀ key, FilterKey.ofKey key = .field →
      Clause.ofField d key v = (Operand.ofEntry key v nested).map (.field key) := by
  cases v with
  | obj fields =>
    refine ⟨(checkDepth (d + 1)).bind fun _ => Filter.ofFields (d + 1) fields, fun key hkey => ?_⟩
    rw [Clause.ofField, Clause.ofEntry, hkey]
  | _ =>
    refine ⟨.ok [], fun key hkey => ?_⟩
    rw [Clause.ofField, Clause.ofEntry, hkey]
    all_goals nofun

/-- **A field keeps its operand under any other name.** -/
theorem Clause.exists_operand_of_ofField {d : Nat} {key : String} {v : Json} {c : Clause}
    (hkey : FilterKey.ofKey key = .field) (h : Clause.ofField d key v = .ok c) :
    ∃ operand, c = .field key operand ∧
      ∀ key', FilterKey.ofKey key' = .field → Clause.ofField d key' v = .ok (.field key' operand) := by
  obtain ⟨nested, hnested⟩ := Clause.ofField_eq_map d v
  rw [hnested key hkey] at h
  obtain ⟨operand, ho, rfl⟩ := map_eq_ok_iff.1 h
  refine ⟨operand, rfl, fun key' hkey' => ?_⟩
  rw [hnested key' hkey']
  exact map_eq_ok_iff.2 ⟨operand, Operand.ofEntry_of_eq_ok key' ho, rfl⟩

end UserDirectory
