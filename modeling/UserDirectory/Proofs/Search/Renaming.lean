import UserDirectory.Proofs.Filter.Names
import UserDirectory.Proofs.Search.Collisions

/-!
# What renaming keeps

Renaming a condition and reading it is reading it and renaming the filter: the fields
at the top and in groups get their new names, and so do those that tests of existence
name; operands stay as they are. So much holds of any renaming that leaves operators
alone and turns names of fields into names of fields (`KeepsKinds`).

It holds up to the order of conjuncts, since entries whose keys come to be equal move
into the conjunction of their object (`Filter.AgreesWith`). Above all, no condition is
lost: all that were there constrain the search afterwards
(`compile_renameCondition`).
-/

namespace UserDirectory

open Query (Connective)

/-- **A renaming that keeps apart what keys mean.** Operators keep their names, and the
name of a field becomes the name of a field: no key of a group, no test of existence,
no operator and nothing with a dollar sign. -/
structure KeepsKinds (rename : String → Json → String) : Prop where
  keywords : ∀ (k : Keyword) v, rename k.name v = k.name
  unsupported : ∀ key ∈ unsupportedOperators, ∀ v, rename key v = key
  fields : ∀ key v, FilterKey.ofKey key = .field → FilterKey.ofKey (rename key v) = .field

/-! ## Renamed filters -/

mutual

/-- **The clause that is read from a value**, with its fields renamed. -/
def Clause.renamed (rename : String → Json → String) : Json → Clause → Clause
  | _, .exists field => .exists (rename field .null)
  | _, .missing field => .missing (rename field .null)
  | v, .field name operand => .field (rename name v) operand
  | .arr items, .and children => .and (Filter.renamedItems rename items children)
  | .arr items, .or children => .or (Filter.renamedItems rename items children)
  | _, clause => clause

/-- The clauses that are read from entries, one from each, with their fields renamed. -/
def Filter.renamedFields (rename : String → Json → String) :
    List (String × Json) → List Clause → List Clause
  | (_, v) :: fields, clause :: rest =>
    clause.renamed rename v :: Filter.renamedFields rename fields rest
  | _, _ => []

/-- The filters that are read from items, one from each, with their fields renamed. -/
def Filter.renamedItems (rename : String → Json → String) :
    List Json → List (List Clause) → List (List Clause)
  | v :: items, filter :: rest =>
    Filter.renamedFields rename (Json.fieldsOrNone (some v)) filter ::
      Filter.renamedItems rename items rest
  | _, _ => []

end

/-- **The filter that is read from a condition, with its fields renamed**: those at the
top and in groups, and those that tests of existence name. -/
def Filter.renamed (rename : String → Json → String) (condition : Json) (f : Filter) : Filter :=
  Filter.renamedFields rename (Json.fieldsOrNone (some condition)) f

/-! ## Entries -/

section

variable {rename : String → Json → String}

theorem renameEntry_of_test {key : String} (h : fieldValuedKeys.contains key = true)
    (field : String) :
    renameEntry rename key (.str field) = (key, .str (rename field .null)) := by
  rw [renameEntry, if_pos h]

theorem renameEntry_of_dollar {key : String} (h : fieldValuedKeys.contains key = false)
    (hdollar : startsWithDollar key = true) (v : Json) : renameEntry rename key v = (key, v) := by
  unfold renameEntry
  rw [if_neg (by rw [h]; exact Bool.false_ne_true), if_pos hdollar]

theorem renameEntry_of_name {key : String} (h : fieldValuedKeys.contains key = false)
    (hdollar : startsWithDollar key = false) (v : Json) :
    renameEntry rename key v = (rename key v, v) := by
  unfold renameEntry
  rw [if_neg (by rw [h]; exact Bool.false_ne_true),
    if_neg (by rw [hdollar]; exact Bool.false_ne_true)]

/-- A clause is read from its entry as its key says. -/
theorem Clause.exists_ofEntry (d : Nat) (key : String) (v : Json) :
    ∃ nested children, Clause.ofField d key v = Clause.ofEntry key v nested children := by
  cases v <;> exact ⟨_, _, rfl⟩

/-- A test of existence is read from the name of a field. -/
theorem Clause.exists_field_of_ofField {key : String} {make : String → Clause}
    (hmake : ∀ v nested children,
      Clause.ofEntry key v nested children = (expectString key v).map make)
    {d : Nat} {v : Json} {c : Clause} (h : Clause.ofField d key v = .ok c) :
    ∃ field, v = .str field ∧ c = make field := by
  obtain ⟨nested, children, hentry⟩ := Clause.exists_ofEntry d key v
  rw [hentry, hmake] at h
  obtain ⟨field, hfield, rfl⟩ := map_eq_ok_iff.1 h
  cases v with
  | str s =>
    obtain rfl := Except.ok.inj hfield
    exact ⟨s, rfl, rfl⟩
  | _ => exact absurd hfield nofun

/-- **Outside groups, a renamed entry is read as the renamed clause.** -/
theorem KeepsKinds.renamed_of_ofField (hr : KeepsKinds rename) {d d' : Nat} {key : String} {v : Json}
    (hgroup : ¬(key == "and" || key == "or") = true) {c c' : Clause}
    (h : Clause.ofField d key v = .ok c)
    (h' : Clause.ofField d' (renameEntry rename key v).1 (renameEntry rename key v).2 = .ok c') :
    c.renamed rename v = c' := by
  obtain ⟨nested, children, hentry⟩ := Clause.exists_ofEntry d key v
  have hspec := FilterKey.ofKey_spec key
  -- what is neither a field nor a test stays as it is
  have hsame : renameEntry rename key v = (key, v) → c.renamed rename v = c →
      c.renamed rename v = c' := by
    intro he hc
    rw [he] at h'
    rw [hc]
    exact Clause.ofField_unique h h'
  -- a test of existence names its field anew
  have htest : ∀ make : String → Clause, (∀ v nested children,
      Clause.ofEntry key v nested children = (expectString key v).map make) →
      (∀ field, (make field).renamed rename v = make (rename field .null)) →
      fieldValuedKeys.contains key = true → c.renamed rename v = c' := by
    intro make hmake hrenamed hcontains
    obtain ⟨field, rfl, rfl⟩ := Clause.exists_field_of_ofField hmake h
    rw [renameEntry_of_test hcontains] at h'
    obtain ⟨field', hfield, rfl⟩ := Clause.exists_field_of_ofField hmake h'
    obtain rfl := Json.str.inj hfield
    exact hrenamed field
  have hread := h
  rw [hentry, Clause.ofEntry] at hread
  cases hk : FilterKey.ofKey key with
  | and =>
    rw [hk] at hspec
    rw [hspec] at hgroup
    exact absurd rfl hgroup
  | or =>
    rw [hk] at hspec
    rw [hspec] at hgroup
    exact absurd rfl hgroup
  | raw =>
    rw [hk] at hread hspec
    obtain ⟨text, -, rfl⟩ := map_eq_ok_iff.1 hread
    refine hsame ?_ rfl
    rcases hspec with rfl | rfl
    · exact renameEntry_of_dollar (by decide) (by decide) v
    · exact renameEntry_of_dollar (by decide) (by decide) v
  | «exists» =>
    rw [hk] at hspec
    exact htest .exists (fun v nested children => by rw [Clause.ofEntry, hk]) (fun _ => rfl)
      (by rcases hspec with rfl | rfl <;> rfl)
  | missing =>
    rw [hk] at hspec
    exact htest .missing (fun v nested children => by rw [Clause.ofEntry, hk]) (fun _ => rfl)
      (by rcases hspec with rfl | rfl <;> rfl)
  | unsupported =>
    rw [hk] at hread hspec
    obtain rfl := Except.ok.inj hread
    refine hsame ?_ rfl
    obtain ⟨htest, hname⟩ := hspec
    cases hdollar : startsWithDollar key with
    | true => exact renameEntry_of_dollar htest hdollar v
    | false =>
      rw [hdollar, or_iff_right Bool.false_ne_true] at hname
      rw [renameEntry_of_name htest hdollar, hr.unsupported key hname]
  | operator k =>
    rw [hk] at hread hspec
    obtain ⟨op, -, rfl⟩ := map_eq_ok_iff.1 hread
    refine hsame ?_ rfl
    obtain ⟨htest, hdollar, rfl⟩ := hspec
    rw [renameEntry_of_name htest hdollar, hr.keywords]
  | field =>
    rw [hk] at hspec
    obtain ⟨operand, rfl, hrename⟩ := Clause.exists_operand_of_ofField hk h
    rw [renameEntry_of_name hspec.1 hspec.2.1] at h'
    exact Clause.ofField_unique (hrename _ (hr.fields key v hk)) h'

theorem KeepsKinds.agreesWith_entry (hr : KeepsKinds rename) {d d' : Nat} {key : String} {v : Json}
    (hgroup : ¬(key == "and" || key == "or") = true) {c c' : Clause}
    (h : Clause.ofField d key v = .ok c)
    (h' : Clause.ofField d' (renameEntry rename key v).1 (renameEntry rename key v).2 = .ok c') :
    Filter.AgreesWith [c.renamed rename v] [c'] := by
  rw [hr.renamed_of_ofField hgroup h h']
  exact .refl [c']

/-! ## Conditions -/

theorem groupKey_of_beq {key : String} (h : (key == "and" || key == "or") = true) :
    ∃ c : Connective, key = groupKey c := by
  rcases Bool.or_eq_true_iff.1 h with h | h
  · exact ⟨.and, beq_iff_eq.1 h⟩
  · exact ⟨.or, beq_iff_eq.1 h⟩

theorem Clause.renamed_group (c : Connective) (items : List Json) (fs : List Filter) :
    (Clause.group c fs).renamed rename (.arr items) =
      .group c (Filter.renamedItems rename items fs) := by
  cases c <;> rfl

mutual

/-- **Reading a renamed condition** is renaming the filter that is read from it, up to
the order of conjuncts. -/
theorem KeepsKinds.agreesWith_condition (hr : KeepsKinds rename) :
    (w : Json) → ∀ {f g : Filter}, Filter.ofJson w = .ok f →
      Filter.ofJson (renameCondition rename w) = .ok g → (Filter.renamed rename w f).AgreesWith g
  | .obj fields, _, _, hf, hg => by
    obtain ⟨cs, k, hcs, hperm, hsame⟩ :=
      (RenamedFields.Holds.empty.foldl (renameEntries rename fields)).exists_reading hg
    have hclauses := KeepsKinds.agreesWith_entries hr fields (Filter.ofFields_eq_ok_iff.1 hf)
      (Filter.ofFields_eq_ok_iff.1 hcs)
    exact (Filter.AgreesWith.of_forall₂_perm hclauses hperm).trans_sameText hsame
  | .null, _, _, hf, hg => by
    obtain rfl := Except.ok.inj hf
    obtain rfl := Except.ok.inj hg
    exact .refl []
  | .bool _, _, _, hf, _ | .num _, _, _, hf, _ | .str _, _, _, hf, _ | .arr _, _, _, hf, _ =>
    absurd hf nofun

theorem KeepsKinds.agreesWith_items (hr : KeepsKinds rename) :
    (items : List Json) → ∀ {d d' : Nat} {key : String} {fs gs : List Filter},
      Filter.ofItems d key items = .ok fs →
      Filter.ofItems d' key (renameConditions rename items) = .ok gs →
      List.Forall₂ Filter.AgreesWith (Filter.renamedItems rename items fs) gs
  | [], _, _, _, _, _, hfs, hgs => by
    obtain rfl := Except.ok.inj hfs
    obtain rfl := Except.ok.inj hgs
    exact .nil
  | v :: rest, _, _, _, _, _, hfs, hgs => by
    obtain ⟨f, fs, hf, hrest, rfl⟩ := Filter.ofItems_eq_ok_cons hfs
    obtain ⟨g, gs, hg, hrest', rfl⟩ := Filter.ofItems_eq_ok_cons hgs
    exact .cons (KeepsKinds.agreesWith_condition hr v hf hg)
      (KeepsKinds.agreesWith_items hr rest hrest hrest')

theorem KeepsKinds.agreesWith_entries (hr : KeepsKinds rename) :
    (fields : List (String × Json)) → ∀ {d d' : Nat} {f g : Filter},
      List.Forall₂ (fun e c => Clause.ofField d e.1 e.2 = .ok c) fields f →
      List.Forall₂ (fun e c => Clause.ofField d' e.1 e.2 = .ok c) (renameEntries rename fields) g →
      List.Forall₂ (fun c c' => Filter.AgreesWith [c] [c'])
        (Filter.renamedFields rename fields f) g
  | [], _, _, _, _, .nil, hg => by
    cases hg
    exact .nil
  | (key, .arr items) :: rest, _, _, _, _, .cons hc hf, hg => by
    rw [renameEntries] at hg
    obtain - | ⟨hc', hg⟩ := hg
    refine .cons ?_ (KeepsKinds.agreesWith_entries hr rest hf hg)
    by_cases hgroup : (key == "and" || key == "or") = true
    · rw [if_pos hgroup] at hc'
      obtain ⟨c, rfl⟩ := groupKey_of_beq hgroup
      obtain ⟨_, fs, hitems, hfs, rfl⟩ := Filter.exists_items_of_ofField hc
      obtain rfl := Json.arr.inj hitems
      obtain ⟨_, gs, hitems, hgs, rfl⟩ := Filter.exists_items_of_ofField hc'
      obtain rfl := Json.arr.inj hitems
      rw [Clause.renamed_group]
      exact .group c (KeepsKinds.agreesWith_items hr items hfs hgs)
    · rw [if_neg hgroup] at hc'
      exact hr.agreesWith_entry hgroup hc hc'
  -- a group that is no list is no filter
  | (key, .null) :: rest, _, _, _, _, .cons hc hf, hg
  | (key, .bool _) :: rest, _, _, _, _, .cons hc hf, hg
  | (key, .num _) :: rest, _, _, _, _, .cons hc hf, hg
  | (key, .str _) :: rest, _, _, _, _, .cons hc hf, hg
  | (key, .obj _) :: rest, _, _, _, _, .cons hc hf, hg => by
    rw [renameEntries] at hg
    · obtain - | ⟨hc', hg⟩ := hg
      refine .cons ?_ (KeepsKinds.agreesWith_entries hr rest hf hg)
      by_cases hgroup : (key == "and" || key == "or") = true
      · obtain ⟨c, rfl⟩ := groupKey_of_beq hgroup
        obtain ⟨_, _, hitems, -⟩ := Filter.exists_items_of_ofField hc
        exact absurd hitems nofun
      · rw [if_neg hgroup] at hc'
        exact hr.agreesWith_entry hgroup hc hc'
    · nofun

end

/-- **Renaming loses no condition.** Let a condition be a filter both before and after
its keys are renamed. Then the renamed condition has the query of the filter before,
with its fields renamed and its conjuncts in another order, and it drops the same
clauses, each as often. In particular, what any field at the top asks under its new
name is a piece of the query, however many keys have come to this name. -/
theorem compile_renameCondition (hr : KeepsKinds rename) {w : Json} {f g : Filter}
    (hf : Filter.ofJson w = .ok f) (hg : Filter.ofJson (renameCondition rename w) = .ok g) :
    ∃ k, (Filter.renamed rename w f).Reordered k ∧ g.compile.query = k.compile.query ∧
      g.compile.dropped.Perm (Filter.renamed rename w f).compile.dropped ∧
      ∀ name operand, .field name operand ∈ Filter.renamed rename w f →
        ∀ piece ∈ operand.pieces name, piece ∈ Filter.pieces none g := by
  obtain ⟨k, hk, hsame⟩ := hr.agreesWith_condition w hf hg
  refine ⟨k, hk, congrArg (·.query) hsame.compile_eq.symm, ?_, fun name operand hmem piece hpiece => ?_⟩
  · show (Filter.dropped none g).Perm (Filter.dropped none (Filter.renamed rename w f))
    rw [← hsame.dropped]
    exact hk.dropped_perm.symm
  · rw [← hsame.pieces, Filter.pieces_eq_flatMap]
    exact List.mem_flatMap.2 ⟨_, hk.field_mem hmem, hpiece⟩

end

/-! ## The renaming of searches -/

/-- **The mapping keeps apart what keys mean**: it maps no operator, and it maps to names
of fields. -/
def FieldMapping.KeepsKinds (m : FieldMapping) : Prop :=
  ∀ e ∈ m.entries, e.2 ≠ "" →
    Keyword.ofName? e.1 = none ∧ e.1 ∉ unsupportedOperators ∧ FilterKey.ofKey e.2 = .field

instance (m : FieldMapping) : Decidable m.KeepsKinds :=
  inferInstanceAs (Decidable (∀ e ∈ m.entries, _))

/-- A name is its own target unless an entry says otherwise. -/
theorem FieldMapping.apply_cases (m : FieldMapping) (name : String) :
    m.apply name = name ∨ ∃ target, (name, target) ∈ m.entries ∧ target ≠ "" ∧
      m.apply name = target := by
  unfold apply
  cases hget : m.get? name with
  | none => exact .inl rfl
  | some target =>
    obtain ⟨hentry, htarget⟩ := Option.filter_eq_some_iff.1 hget
    exact .inr ⟨target, Table.mem_of_get? hentry, by simpa using htarget, rfl⟩

theorem Keyword.ofName?_name (k : Keyword) : Keyword.ofName? k.name = some k := by
  cases k <;> rfl

/-- The aliases stand for fields. -/
theorem keepsKinds_searchAlias : KeepsKinds searchAlias where
  keywords k _ := by cases k <;> rfl
  unsupported key hkey v := by
    simp only [unsupportedOperators, List.mem_cons, List.not_mem_nil, or_false] at hkey
    rcases hkey with rfl | rfl | rfl | rfl | rfl <;> rfl
  fields key v h := by
    unfold searchAlias
    split
    · split
      · split <;> decide +kernel
      · decide +kernel
    · split
      · decide +kernel
      · exact h

/-- **The renaming of a search** keeps apart what keys mean if the mapping of its model
does. -/
theorem ConnectorSettings.keepsKinds_remoteKey {s : ConnectorSettings} {model : String}
    (h : (s.mapper.table model .serialize).KeepsKinds) : KeepsKinds (s.remoteKey model) where
  keywords k v := by
    rw [remoteKey, keepsKinds_searchAlias.keywords]
    obtain hsame | ⟨target, hentry, htarget, -⟩ :=
      (s.mapper.table model .serialize).apply_cases k.name
    · exact hsame
    · exact absurd ((h _ hentry htarget).1.symm.trans k.ofName?_name) (Option.some_ne_none k).symm
  unsupported key hkey v := by
    rw [remoteKey, keepsKinds_searchAlias.unsupported key hkey]
    obtain hsame | ⟨target, hentry, htarget, -⟩ := (s.mapper.table model .serialize).apply_cases key
    · exact hsame
    · exact absurd hkey (h _ hentry htarget).2.1
  fields key v hkey := by
    have halias := keepsKinds_searchAlias.fields key v hkey
    rw [remoteKey]
    obtain hsame | ⟨target, hentry, htarget, happly⟩ :=
      (s.mapper.table model .serialize).apply_cases (searchAlias key v)
    · rwa [hsame]
    · rw [happly]
      exact (h _ hentry htarget).2.2

/-- Two keys that come to the same name, twice, and again in a branch. -/
def collidingCondition : Json := .obj [("email", .str "b@c.org"), ("givenName", .str "Ada"),
  ("given_name", .str "Bea"), ("id", .str "a@b.org"), ("near", .num (.int 1)),
  ("or", .arr [.obj [("email", .str "x"), ("id", .str "y@z.org")],
    .obj [("$exists", .str "connection")]])]

theorem compile_renameCondition_colliding :
    let rename := ConnectorSettings.threeScopes.remoteKey "staff"
    let before : CompiledQuery := {
      query := "email:\"b@c.org\" AND given_name:\"Ada\" AND given_name:\"Bea\" AND " ++
        "email:\"a@b.org\" AND " ++
        "((email:\"x\" AND email:\"y@z.org\") OR _exists_:identities.connection)"
      dropped := [⟨"near", none, .unsupportedOperator⟩] }
    let after : CompiledQuery := {
      query := "given_name:\"Bea\" AND email:\"a@b.org\" AND email:\"b@c.org\" AND " ++
        "given_name:\"Ada\" AND " ++
        "((email:\"y@z.org\" AND email:\"x\") OR _exists_:identities.connection)"
      dropped := [⟨"near", none, .unsupportedOperator⟩] }
    ∃ f g k, Filter.ofJson collidingCondition = .ok f ∧
      Filter.ofJson (renameCondition rename collidingCondition) = .ok g ∧
      (Filter.renamed rename collidingCondition f).compile = before ∧ g.compile = after ∧
      (Filter.renamed rename collidingCondition f).Reordered k ∧ after.query = k.compile.query := by
  intro rename before after
  have hr : KeepsKinds rename := ConnectorSettings.keepsKinds_remoteKey (by decide +kernel)
  have hbefore : (Filter.ofJson collidingCondition).map
      (fun f => (Filter.renamed rename collidingCondition f).compile) = .ok before := by
    decide +kernel
  have hafter : (Filter.ofJson (renameCondition rename collidingCondition)).map Filter.compile
      = .ok after := by
    decide +kernel
  obtain ⟨f, hf, hbefore⟩ := map_eq_ok_iff.1 hbefore
  obtain ⟨g, hg, hafter⟩ := map_eq_ok_iff.1 hafter
  obtain ⟨k, hk, hquery, -, -⟩ := compile_renameCondition hr hf hg
  exact ⟨f, g, k, hf, hg, hbefore, hafter, hk, hafter ▸ hquery⟩

end UserDirectory
