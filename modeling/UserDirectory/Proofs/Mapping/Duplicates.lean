import UserDirectory.Proofs.Mapping.Directions

/-!
# Tables that cannot be inverted

An inversion goes through the live entries in the order of their names and stops at the
first one whose target has been seen. So it fails exactly if two live entries share a
target, and the error is determined by the table alone: its second name is the least one
whose target belongs to a smaller name already, and its first name is the only such
smaller name, as the entries before the second one have targets of their own
(`FieldMapping.IsFirstDuplicate.unique`).

Where it succeeds, nothing is lost: the inverse can be inverted in its turn, and this
gives back the table without the entries that were dropped.
-/

namespace UserDirectory.FieldMapping

variable {m n : FieldMapping}

/-- Tables that read the same are the same. -/
theorem eq_of_get? (h : ∀ name, m.entries.get? name = n.entries.get? name) : m = n := by
  cases m with
  | mk entries ordered =>
    cases n with
    | mk entries' ordered' =>
      obtain rfl : entries = entries' := ordered.ext ordered' h
      rfl

/-- Live entries stand in the order of their names. -/
theorem ordered_live (m : FieldMapping) : Table.Ordered m.live := List.Pairwise.filter _ m.ordered

/-- **The table without its dropped entries.** -/
def withoutDropped (m : FieldMapping) : FieldMapping := ⟨m.live, m.ordered_live⟩

/-! ## The first duplicate -/

/-- **The target of a name belongs to a smaller name already.** -/
structure Repeats (m : FieldMapping) (first second target : String) : Prop where
  first_mem : (first, target) ∈ m.live
  second_mem : (second, target) ∈ m.live
  first_lt : first < second

/-- **The first duplicate of a table**: no smaller name than the second repeats the
target of another one. -/
structure IsFirstDuplicate (m : FieldMapping) (e : DuplicateTarget) : Prop where
  repeats : m.Repeats e.first e.second e.target
  least : ∀ {first second target}, m.Repeats first second target → e.second ≤ second

theorem IsFirstDuplicate.not_targetsDistinct {e : DuplicateTarget} (h : m.IsFirstDuplicate e) :
    ¬m.TargetsDistinct := fun hdistinct =>
  String.lt_irrefl e.second <|
    hdistinct.name_unique h.repeats.first_mem h.repeats.second_mem ▸ h.repeats.first_lt

/-- No smaller name than the first one has the target. -/
theorem IsFirstDuplicate.first_le {e : DuplicateTarget} (h : m.IsFirstDuplicate e) {first : String}
    (hfirst : (first, e.target) ∈ m.live) : e.first ≤ first := by
  refine Std.not_lt.1 fun hlt => ?_
  -- otherwise the first name repeats a target itself, below the second one
  have hle := h.least ⟨hfirst, h.repeats.first_mem, hlt⟩
  exact Std.not_lt.2 hle h.repeats.first_lt

/-- **A table has one first duplicate at most.** -/
theorem IsFirstDuplicate.unique {e e' : DuplicateTarget} (h : m.IsFirstDuplicate e)
    (h' : m.IsFirstDuplicate e') : e = e' := by
  have hsecond : e.second = e'.second := Std.le_antisymm (h.least h'.repeats) (h'.least h.repeats)
  have htarget : e.target = e'.target :=
    live_unique (hsecond ▸ h.repeats.second_mem) h'.repeats.second_mem
  have hfirst : e.first = e'.first := Std.le_antisymm
    (h.first_le (htarget ▸ h'.repeats.first_mem)) (h'.first_le (htarget ▸ h.repeats.first_mem))
  cases e
  cases e'
  simp_all

/-! ## What an inversion comes to -/

theorem invertStep_eq_error_iff {inverse : FieldMapping} {entry : String × String}
    {e : DuplicateTarget} : invertStep inverse entry = .error e ↔
      inverse.entries.get? entry.2 = some e.first ∧ entry = (e.second, e.target) := by
  obtain ⟨target, first, second⟩ := e
  obtain ⟨name, target'⟩ := entry
  unfold invertStep
  cases hget : inverse.entries.get? target' with
  | none => simp
  | some found => simp [and_comm, and_left_comm, eq_comm]

/-- An inversion that fails has read the entries before a second one, with its target
among them. -/
theorem exists_of_invert_eq_error {e : DuplicateTarget} (h : m.invert = .error e) :
    ∃ before after inverse, m.live = before ++ (e.second, e.target) :: after ∧
      before.foldlM invertStep empty = .ok inverse ∧ (e.first, e.target) ∈ before := by
  obtain ⟨before, entry, after, inverse, hlive, hbefore, hentry⟩ := foldlM_eq_error_iff.1 h
  obtain ⟨hfirst, rfl⟩ := invertStep_eq_error_iff.1 hentry
  refine ⟨before, after, inverse, hlive, hbefore, ?_⟩
  exact ((get?_foldlM_invertStep hbefore).1 hfirst).resolve_left nofun

/-- **An inversion that fails reports the first duplicate.** -/
theorem isFirstDuplicate_of_invert {e : DuplicateTarget} (h : m.invert = .error e) :
    m.IsFirstDuplicate e := by
  obtain ⟨before, after, inverse, hlive, hbefore, hfirst⟩ := exists_of_invert_eq_error h
  have hmem : ∀ {entry}, entry ∈ before → entry ∈ m.live := fun he =>
    hlive ▸ List.mem_append_left _ he
  have hordered := hlive ▸ m.ordered_live
  have hrest := List.pairwise_append.1 hordered
  refine ⟨⟨hmem hfirst, hlive ▸ List.mem_append_right before List.mem_cons_self,
    hrest.2.2 _ hfirst _ List.mem_cons_self⟩, fun {first second target} hrepeats => ?_⟩
  refine Std.not_lt.1 fun hlt => ?_
  -- both names of a smaller duplicate would have been read before
  have hread : ∀ {name}, (name, target) ∈ m.live → name < e.second → (name, target) ∈ before := by
    intro name hname hlt
    rw [hlive] at hname
    rcases List.mem_append.1 hname with hname | hname
    · exact hname
    · rcases List.mem_cons.1 hname with heq | hname
      · obtain rfl : name = e.second := congrArg Prod.fst heq
        exact absurd hlt (String.lt_irrefl _)
      · have hgt := (List.pairwise_cons.1 hrest.2.1).1 _ hname
        exact absurd (String.lt_trans hlt hgt) (String.lt_irrefl name)
  have hfound := hread hrepeats.first_mem (String.lt_trans hrepeats.first_lt hlt)
  have hagain := hread hrepeats.second_mem hlt
  have hget := (get?_foldlM_invertStep hbefore).2 (.inr hfound)
  have hget' := (get?_foldlM_invertStep hbefore).2 (.inr hagain)
  obtain rfl := Option.some.inj (hget.symm.trans hget')
  exact String.lt_irrefl _ hrepeats.first_lt

/-- **A table can be inverted** exactly if no two live entries share a target. -/
theorem exists_invert_iff : (∃ n, m.invert = .ok n) ↔ m.TargetsDistinct := by
  refine ⟨fun ⟨n, h⟩ => targetsDistinct_of_invert h, fun hdistinct => ?_⟩
  cases h : m.invert with
  | ok n => exact ⟨n, rfl⟩
  | error e => exact absurd hdistinct (isFirstDuplicate_of_invert h).not_targetsDistinct

theorem invert_eq_error_iff {e : DuplicateTarget} :
    m.invert = .error e ↔ m.IsFirstDuplicate e := by
  refine ⟨isFirstDuplicate_of_invert, fun he => ?_⟩
  cases h : m.invert with
  | ok n => exact absurd (targetsDistinct_of_invert h) he.not_targetsDistinct
  | error e' => rw [(isFirstDuplicate_of_invert h).unique he]

/-- **Inverting an inverse** gives back the live entries. -/
theorem invert_of_invert (h : m.invert = .ok n) : n.invert = .ok m.withoutDropped := by
  obtain ⟨k, hk⟩ := exists_invert_iff.2 (targetsDistinct_invert h)
  rw [hk]
  refine congrArg Except.ok (eq_of_get? fun name => Option.ext fun target => ?_)
  have hread : m.withoutDropped.entries.get? name = some target ↔ (name, target) ∈ m.live :=
    m.ordered_live.get?_eq_some_iff
  rw [get?_invert hk, mem_live_invert h, hread]

/-- **What becomes of an inversion.** It succeeds exactly if the live targets of the table
are distinct. Then the inverse reads exactly the live entries, turned round, and
inverting it again gives the table without its dropped entries. Otherwise it reports
the first duplicate, and nothing else: two live names of one target, the second of which
is the least name that repeats the target of a smaller one. -/
theorem invert_outcomes (m : FieldMapping) :
    ((∃ n, m.invert = .ok n) ↔ m.TargetsDistinct) ∧
      (∀ n, m.invert = .ok n →
        (∀ target name, n.entries.get? target = some name ↔ (name, target) ∈ m.live) ∧
          n.invert = .ok m.withoutDropped) ∧
      ∀ e, m.invert = .error e ↔ m.IsFirstDuplicate e :=
  ⟨exists_invert_iff, fun _ h => ⟨fun _ _ => get?_invert h, invert_of_invert h⟩,
    fun _ => invert_eq_error_iff⟩

/-- A table with entries dropped on either side. -/
def droppingTable : FieldMapping :=
  .ofList [("", "tag"), ("color", "user_metadata.color"), ("id", "user_id"), ("name", "")]

/-- A table in which three names share one target and two share another. -/
def sharingTable : FieldMapping :=
  .ofList [("a", "x"), ("b", "y"), ("c", "y"), ("d", "x"), ("e", "x")]

theorem invert_outcomes_tables :
    let inverse : FieldMapping := .ofList [("user_id", "id"), ("user_metadata.color", "color")]
    (droppingTable.invert = .ok inverse ∧
        inverse.invert = .ok (.ofList [("color", "user_metadata.color"), ("id", "user_id")])) ∧
      sharingTable.invert = .error ⟨"y", "b", "c"⟩ ∧
        sharingTable.IsFirstDuplicate ⟨"y", "b", "c"⟩ ∧ ¬sharingTable.TargetsDistinct := by
  intro inverse
  have hdropping : droppingTable.invert = .ok inverse := by decide +kernel
  have hsharing : sharingTable.invert = .error ⟨"y", "b", "c"⟩ := by decide +kernel
  have hwithout : droppingTable.withoutDropped =
      .ofList [("color", "user_metadata.color"), ("id", "user_id")] := by decide +kernel
  have hback := ((invert_outcomes droppingTable).2.1 inverse hdropping).2
  obtain ⟨hdistinct, -, herror⟩ := invert_outcomes sharingTable
  refine ⟨⟨hdropping, hwithout ▸ hback⟩, hsharing, (herror _).1 hsharing, fun h => ?_⟩
  obtain ⟨n, hn⟩ := hdistinct.2 h
  exact absurd (hn.symm.trans hsharing) nofun

end UserDirectory.FieldMapping
