import UserDirectory.Connector.Search
import UserDirectory.Proofs.Query.Meaning
import UserDirectory.Proofs.Results
import UserDirectory.Proofs.Table

/-!
# Conditions with plain names

Which names a filter holds is decided by the keys of the condition that writes
it, and by the fields that its tests of existence name. A key that is plain where
it stands (`PlainKey`) leads to a clause that is plain, so a condition whose keys
are plain at every depth writes a plain filter.

Renaming keeps this as long as plain names get plain names. It changes the keys
of a condition and of those in its groups, and moves entries whose keys come to
be equal into the conjunction; it makes no new operands.
-/

namespace UserDirectory

open Query (PlainName)

/-! ## Entries at every depth -/

section

variable (P : String → Json → Prop)

mutual

/-- **Every entry of the value, at any depth**, has the property. -/
def Json.AllEntries : Json → Prop
  | .arr items => AllItems items
  | .obj fields => AllFields fields
  | _ => True

/-- Every entry in the items has the property. -/
def Json.AllItems : List Json → Prop
  | [] => True
  | v :: rest => v.AllEntries ∧ AllItems rest

/-- Every entry has the property, and so have those in its value. -/
def Json.AllFields : List (String × Json) → Prop
  | [] => True
  | (key, v) :: rest => (P key v ∧ v.AllEntries) ∧ AllFields rest

end

end

namespace Json

variable {P : String → Json → Prop}

theorem allItems_iff {items : List Json} :
    AllItems P items ↔ ∀ v ∈ items, v.AllEntries P := by
  induction items with
  | nil => exact iff_of_true trivial (List.forall_mem_nil _)
  | cons v rest ih => rw [AllItems, ih, List.forall_mem_cons]

theorem allFields_iff {fields : List (String × Json)} :
    AllFields P fields ↔ ∀ e ∈ fields, P e.1 e.2 ∧ e.2.AllEntries P := by
  induction fields with
  | nil => exact iff_of_true trivial (List.forall_mem_nil _)
  | cons e rest ih => rw [AllFields, ih, List.forall_mem_cons]

end Json

/-! ## Plain keys -/

/-- **The key is plain where it stands.** It is no key of query text; if it tests
existence, the field that it names is plain; and otherwise it is a plain name, or
an operator with a dollar sign. -/
def PlainKey (key : String) (v : Json) : Prop :=
  key ≠ "$where" ∧ key ≠ "$search" ∧
    (fieldValuedKeys.contains key = true → ∀ field ∈ v.string?, PlainName field) ∧
    (fieldValuedKeys.contains key = false → startsWithDollar key = false → PlainName key)

instance (key : String) (v : Json) : Decidable (PlainKey key v) := inferInstanceAs
  (Decidable (_ ∧ _ ∧ (_ → ∀ field ∈ v.string?, PlainName field) ∧ (_ → _ → PlainName key)))

/-- **All keys of the condition are plain**, at any depth. -/
def Json.PlainKeys (v : Json) : Prop := v.AllEntries PlainKey

/-- No plain name begins with a dollar sign. -/
theorem Query.PlainName.startsWithDollar_eq {name : String} (h : PlainName name) :
    startsWithDollar name = false := by
  unfold startsWithDollar
  obtain ⟨c, cs, hcs⟩ := List.exists_cons_of_ne_nil h.toList_ne_nil
  have hc : c ≠ '$' :=
    Query.isNameChar_ne (h.plain c (hcs ▸ List.mem_cons_self)) (by decide)
  rw [hcs, List.head?_cons]
  simpa using hc

/-- **A plain name is plain wherever it stands as a key.** -/
theorem Query.PlainName.plainKey {name : String} (h : PlainName name) (v : Json) :
    PlainKey name v := by
  have hdollar : ∀ s : String, startsWithDollar s = true → name ≠ s := by
    rintro s hs rfl
    exact Bool.false_ne_true (h.startsWithDollar_eq.symm.trans hs)
  refine ⟨hdollar _ (by decide), hdollar _ (by decide), fun hfield => ?_, fun _ _ => h⟩
  have hmem : name ∈ fieldValuedKeys := List.contains_iff_mem.1 hfield
  simp only [fieldValuedKeys, List.mem_cons, List.not_mem_nil, or_false] at hmem
  rcases hmem with hmem | hmem | hmem | hmem
  · exact absurd hmem (hdollar _ (by decide))
  · exact absurd hmem h.ne_exists
  · exact absurd hmem (hdollar _ (by decide))
  · exact absurd hmem h.ne_missing

/-! ## What plain conditions write -/

theorem Keyword.name_of_ofName? {key : String} {k : Keyword} (h : Keyword.ofName? key = some k) :
    k.name = key := by
  unfold ofName? at h
  exact beq_iff_eq.1 (List.find?_some (p := fun k : Keyword => k.name == key) h)

/-- **What a key says about itself.** -/
theorem FilterKey.ofKey_spec (key : String) :
    match FilterKey.ofKey key with
    | .raw => key = "$where" ∨ key = "$search"
    | .exists => key = "$exists" ∨ key = "_exists_"
    | .missing => key = "$missing" ∨ key = "_missing_"
    | .and => key = "and"
    | .or => key = "or"
    | .unsupported => fieldValuedKeys.contains key = false ∧
        (startsWithDollar key = true ∨ key ∈ unsupportedOperators)
    | .operator k => fieldValuedKeys.contains key = false ∧ startsWithDollar key = false ∧
        k.name = key
    | .field => fieldValuedKeys.contains key = false ∧ startsWithDollar key = false ∧
        Keyword.ofName? key = none := by
  generalize hkey : FilterKey.ofKey key = meaning
  unfold FilterKey.ofKey at hkey
  simp only [Bool.or_eq_true, beq_iff_eq] at hkey
  split at hkey
  · next h => exact hkey ▸ h
  split at hkey
  · next h => exact hkey ▸ h
  next hexists =>
  split at hkey
  · next h => exact hkey ▸ h
  next hmissing =>
  have htest : fieldValuedKeys.contains key = false := by
    simp [fieldValuedKeys, not_or.1 hexists, not_or.1 hmissing]
  split at hkey
  · next h => exact hkey ▸ h
  split at hkey
  · next h => exact hkey ▸ h
  split at hkey
  · next h => exact hkey ▸ ⟨htest, h.symm.imp_right List.contains_iff_mem.1⟩
  next h =>
  have hdollar : startsWithDollar key = false := Bool.not_eq_true _ ▸ (not_or.1 h).2
  split at hkey
  · next k hk => exact hkey ▸ ⟨htest, hdollar, Keyword.name_of_ofName? hk⟩
  · next hk => exact hkey ▸ ⟨htest, hdollar, hk⟩

theorem expectString_eq_ok {key field : String} {v : Json} (h : expectString key v = .ok field) :
    field ∈ v.string? := by
  cases v with
  | str s => exact congrArg some (Except.ok.inj h)
  | _ => exact absurd h nofun

theorem Operand.plain_of_ofEntry {key : String} {v : Json} {nested : FilterResult Filter}
    (hn : ∀ f, nested = .ok f → Filter.Plain f) {operand : Operand}
    (h : Operand.ofEntry key v nested = .ok operand) : operand.Plain := by
  cases v with
  | null =>
    obtain rfl := Except.ok.inj h
    trivial
  | arr items =>
    obtain ⟨_, -, rfl⟩ := map_eq_ok_iff.1 h
    trivial
  | obj fields =>
    obtain ⟨f, hf, rfl⟩ := map_eq_ok_iff.1 h
    exact hn f hf
  | _ =>
    obtain rfl := Except.ok.inj h
    trivial

theorem Operator.plain_of_ofEntry {keyword : Keyword} {key : String} {v : Json}
    {nested : FilterResult Filter} (hn : ∀ f, nested = .ok f → Filter.Plain f) {op : Operator}
    (h : Operator.ofEntry keyword key v nested = .ok op) : op.Plain := by
  cases keyword with
  | neq =>
    obtain ⟨operand, ho, rfl⟩ := map_eq_ok_iff.1 h
    exact Operand.plain_of_ofEntry hn ho
  | _ =>
    obtain ⟨_, -, rfl⟩ := map_eq_ok_iff.1 h
    trivial

/-- **A plain key makes a plain clause** of a value that is read as plain filters. -/
theorem Clause.plain_of_ofEntry {key : String} {v : Json} {nested : FilterResult Filter}
    {children : FilterResult (List Filter)} (hkey : PlainKey key v)
    (hn : ∀ f, nested = .ok f → Filter.Plain f)
    (hc : ∀ fs, children = .ok fs → Filter.AllPlain fs) {clause : Clause}
    (h : Clause.ofEntry key v nested children = .ok clause) : clause.Plain := by
  obtain ⟨hwhere, hsearch, hnamed, hplain⟩ := hkey
  have hspec := FilterKey.ofKey_spec key
  unfold Clause.ofEntry at h
  cases hk : FilterKey.ofKey key with
  | raw =>
    rw [hk] at hspec
    exact (hspec.elim hwhere hsearch).elim
  | «exists» | missing =>
    rw [hk] at h hspec
    obtain ⟨field, hfield, rfl⟩ := map_eq_ok_iff.1 h
    refine hnamed ?_ field (expectString_eq_ok hfield)
    rcases hspec with rfl | rfl <;> rfl
  | and | or =>
    rw [hk] at h
    obtain ⟨fs, hfs, rfl⟩ := map_eq_ok_iff.1 h
    exact hc fs hfs
  | unsupported =>
    rw [hk] at h
    obtain rfl := Except.ok.inj h
    trivial
  | operator keyword =>
    rw [hk] at h
    obtain ⟨op, hop, rfl⟩ := map_eq_ok_iff.1 h
    exact Operator.plain_of_ofEntry hn hop
  | field =>
    rw [hk] at h hspec
    obtain ⟨operand, ho, rfl⟩ := map_eq_ok_iff.1 h
    exact ⟨hplain hspec.1 hspec.2.1, Operand.plain_of_ofEntry hn ho⟩

/-- The filter that asks nothing is plain. -/
theorem Filter.plain_of_ok_nil {f : Filter} (h : (.ok [] : FilterResult Filter) = .ok f) :
    Filter.Plain f := by
  obtain rfl := Except.ok.inj h
  trivial

mutual

theorem Clause.plain_of_ofField {d : Nat} {key : String} :
    (v : Json) → PlainKey key v → v.PlainKeys → ∀ {clause : Clause},
      Clause.ofField d key v = .ok clause → clause.Plain
  | .obj fields, hkey, hv, _, h => by
    refine Clause.plain_of_ofEntry hkey (fun f hf => ?_) (fun _ => by nofun) h
    obtain ⟨_, -, hf⟩ := bind_eq_ok_iff.1 hf
    exact Filter.plain_of_ofFields fields hv hf
  | .arr items, hkey, hv, _, h =>
    Clause.plain_of_ofEntry hkey (fun _ => Filter.plain_of_ok_nil)
      (fun _ hfs => Filter.allPlain_of_ofItems items hv hfs) h
  | .null, hkey, _, _, h | .bool _, hkey, _, _, h | .num _, hkey, _, _, h
  | .str _, hkey, _, _, h =>
    Clause.plain_of_ofEntry hkey (fun _ => Filter.plain_of_ok_nil) (fun _ => by nofun) h

/-- **Entries with plain keys write a plain filter.** -/
theorem Filter.plain_of_ofFields {d : Nat} :
    (fields : List (String × Json)) → Json.AllFields PlainKey fields → ∀ {f : Filter},
      Filter.ofFields d fields = .ok f → Filter.Plain f
  | [], _, _, h => Filter.plain_of_ok_nil h
  | (key, v) :: rest, hfields, _, h => by
    obtain ⟨clause, hclause, h⟩ := bind_eq_ok_iff.1 h
    obtain ⟨clauses, hclauses, h⟩ := bind_eq_ok_iff.1 h
    obtain rfl := Except.ok.inj h
    exact ⟨Clause.plain_of_ofField v hfields.1.1 hfields.1.2 hclause,
      Filter.plain_of_ofFields rest hfields.2 hclauses⟩

theorem Filter.allPlain_of_ofItems {d : Nat} {key : String} :
    (items : List Json) → Json.AllItems PlainKey items → ∀ {fs : List Filter},
      Filter.ofItems d key items = .ok fs → Filter.AllPlain fs
  | [], _, _, h => by
    obtain rfl := Except.ok.inj h
    trivial
  | .obj fields :: rest, hitems, _, h => by
    obtain ⟨_, -, h⟩ := bind_eq_ok_iff.1 h
    obtain ⟨f, hf, h⟩ := bind_eq_ok_iff.1 h
    obtain ⟨fs, hfs, h⟩ := bind_eq_ok_iff.1 h
    obtain rfl := Except.ok.inj h
    exact ⟨Filter.plain_of_ofFields fields hitems.1 hf,
      Filter.allPlain_of_ofItems rest hitems.2 hfs⟩
  | .null :: _, _, _, h | .bool _ :: _, _, _, h | .num _ :: _, _, _, h | .str _ :: _, _, _, h
  | .arr _ :: _, _, _, h => absurd h nofun

end

/-- **A condition with plain keys writes a plain filter.** -/
theorem Filter.plain_of_ofJson {v : Json} (hv : v.PlainKeys) {f : Filter}
    (h : Filter.ofJson v = .ok f) : Filter.Plain f := by
  cases v with
  | null => exact Filter.plain_of_ok_nil h
  | obj fields => exact Filter.plain_of_ofFields fields hv h
  | _ => exact absurd h nofun

/-! ## Renaming -/

section

variable {rename : String → Json → String}

/-- An entry has a plain key, and so has every entry in its value. -/
def PlainEntry (e : String × Json) : Prop := PlainKey e.1 e.2 ∧ e.2.PlainKeys

theorem Json.plainKeys_obj {fields : List (String × Json)} :
    (Json.obj fields).PlainKeys ↔ ∀ e ∈ fields, PlainEntry e :=
  allFields_iff

theorem PlainEntry.singleCondition {e : String × Json} (h : PlainEntry e) :
    (singleCondition e.1 e.2).PlainKeys :=
  ⟨h, trivial⟩

/-- Outside groups, plain names get plain names. -/
theorem PlainEntry.renameEntry
    (hr : ∀ key v, PlainName key → PlainName (rename key v)) {key : String} {v : Json}
    (h : PlainEntry (key, v)) : PlainEntry (renameEntry rename key v) := by
  obtain ⟨hkey, hv⟩ := h
  unfold UserDirectory.renameEntry
  split
  · next hnamed =>
    cases v with
    | str field =>
      have hfield : PlainName field := hkey.2.2.1 hnamed field rfl
      refine ⟨⟨hkey.1, hkey.2.1, fun _ name hname => ?_, hkey.2.2.2⟩, trivial⟩
      obtain rfl := Option.some.inj hname
      exact hr field .null hfield
    | _ => exact ⟨hkey, hv⟩
  · next hnamed =>
    split
    · exact ⟨hkey, hv⟩
    · next hdollar =>
      have hname : PlainName key :=
        hkey.2.2.2 (Bool.not_eq_true _ ▸ hnamed) (Bool.not_eq_true _ ▸ hdollar)
      exact ⟨(hr key v hname).plainKey v, hv⟩

/-- **Entries and collisions with plain keys.** -/
structure RenamedFields.Plain (r : RenamedFields) : Prop where
  fields : ∀ e ∈ r.fields, PlainEntry e
  collisions : ∀ v ∈ r.collisions, v.PlainKeys

theorem RenamedFields.Plain.empty : ({} : RenamedFields).Plain :=
  ⟨fun _ he => absurd he List.not_mem_nil, fun _ hv => absurd hv List.not_mem_nil⟩

theorem RenamedFields.Plain.add {r : RenamedFields} (h : r.Plain) {e : String × Json}
    (he : PlainEntry e) : (r.add e).Plain := by
  unfold RenamedFields.add
  split
  · refine ⟨h.fields, fun v hv => ?_⟩
    rcases List.mem_append.1 hv with hv | hv
    · exact h.collisions v hv
    · obtain rfl := List.mem_singleton.1 hv
      exact he.singleCondition
  · refine ⟨fun e' he' => ?_, h.collisions⟩
    rcases Table.mem_insert he' with rfl | he'
    · exact he
    · exact h.fields e' he'

theorem RenamedFields.Plain.foldl {es : List (String × Json)} (hes : ∀ e ∈ es, PlainEntry e)
    {r : RenamedFields} (h : r.Plain) : (es.foldl RenamedFields.add r).Plain := by
  induction es generalizing r with
  | nil => exact h
  | cons e rest ih =>
    rw [List.forall_mem_cons] at hes
    exact ih hes.2 (h.add hes.1)

/-- **The collisions join the conjunction**, if there is one. -/
theorem RenamedFields.Plain.toRecord {r : RenamedFields} (h : r.Plain) :
    ∀ e ∈ r.toRecord, PlainEntry e := by
  have hname : PlainName "and" := by decide
  have hand : ∀ {items : List Json}, (∀ v ∈ items, v.PlainKeys) →
      ∀ e ∈ Table.insert r.fields "and" (.arr items), PlainEntry e := by
    intro items hitems e he
    rcases Table.mem_insert he with rfl | he
    · exact ⟨hname.plainKey _, Json.allItems_iff.2 hitems⟩
    · exact h.fields e he
  unfold RenamedFields.toRecord
  split
  · exact h.fields
  · -- the conjunction there may be a list of conditions, a single one, or none
    split
    · next items hget =>
      have hitems : Json.PlainKeys (.arr items) := (h.fields _ (Table.mem_of_get? hget)).2
      refine hand fun v hv => ?_
      rcases List.mem_append.1 hv with hv | hv
      · exact Json.allItems_iff.1 hitems v hv
      · exact h.collisions v hv
    · next existing _ hget =>
      refine hand fun v hv => ?_
      rcases List.mem_append.1 hv with hv | hv
      · exact h.collisions v hv
      · obtain rfl := List.mem_singleton.1 hv
        exact (h.fields _ (Table.mem_of_get? hget)).singleCondition
    · exact hand h.collisions

mutual

/-- **Renaming keeps keys plain**, if plain names get plain names. -/
theorem Json.PlainKeys.renameCondition
    (hr : ∀ key v, PlainName key → PlainName (rename key v)) :
    (v : Json) → v.PlainKeys → (renameCondition rename v).PlainKeys
  | .obj fields, h =>
    Json.plainKeys_obj.2
      (RenamedFields.Plain.foldl (plainEntry_renameEntries hr fields h) .empty).toRecord
  | .arr _, h => h
  | .null, h | .bool _, h | .num _, h | .str _, h => h

theorem plainKeys_renameConditions
    (hr : ∀ key v, PlainName key → PlainName (rename key v)) :
    (items : List Json) → Json.AllItems PlainKey items →
      Json.AllItems PlainKey (renameConditions rename items)
  | [], h => h
  | v :: rest, h =>
    ⟨Json.PlainKeys.renameCondition hr v h.1, plainKeys_renameConditions hr rest h.2⟩

theorem plainEntry_renameEntries
    (hr : ∀ key v, PlainName key → PlainName (rename key v)) :
    (fields : List (String × Json)) → Json.AllFields PlainKey fields →
      ∀ e ∈ renameEntries rename fields, PlainEntry e
  | [], _ => nofun
  | (key, .arr items) :: rest, h => by
    refine List.forall_mem_cons.2 ⟨?_, plainEntry_renameEntries hr rest h.2⟩
    split
    · next hgroup =>
      have hname : PlainName key := by
        rcases Bool.or_eq_true_iff.1 hgroup with hkey | hkey
        · exact beq_iff_eq.1 hkey ▸ by decide
        · exact beq_iff_eq.1 hkey ▸ by decide
      exact ⟨hname.plainKey _, plainKeys_renameConditions hr items h.1.2⟩
    · exact PlainEntry.renameEntry hr h.1
  -- a group that is no list stays as it is
  | (key, .null) :: rest, h | (key, .bool _) :: rest, h | (key, .num _) :: rest, h
  | (key, .str _) :: rest, h | (key, .obj _) :: rest, h => by
    refine List.forall_mem_cons.2 ⟨?_, plainEntry_renameEntries hr rest h.2⟩
    split
    · exact h.1
    · exact PlainEntry.renameEntry hr h.1

end

end

end UserDirectory
