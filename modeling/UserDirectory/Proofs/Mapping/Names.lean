import UserDirectory.Proofs.Mapping.Resolved
import UserDirectory.Proofs.Query.Terms

/-!
# Mappings between plain names

A table whose live entries have plain names on both sides gives plain names to
plain names. Being such a table survives resolution, and the built-in table is
one; so a configuration with plain tables renames plain names to plain names in
every model.
-/

namespace UserDirectory

open Query (PlainName)

namespace FieldMapping

/-- **Both sides of each live entry are plain.** -/
def Plain (m : FieldMapping) : Prop := ∀ e ∈ m.live, PlainName e.1 ∧ PlainName e.2

instance (m : FieldMapping) : Decidable m.Plain :=
  inferInstanceAs (Decidable (∀ e ∈ m.live, _))

theorem plain_builtin : builtin.Plain := by decide +kernel

theorem mem_live_iff {m : FieldMapping} {e : String × String} :
    e ∈ m.live ↔ e ∈ m.entries ∧ e.1 ≠ "" ∧ e.2 ≠ "" := by
  rw [live, List.mem_filter]
  simp

theorem Plain.extend {m n : FieldMapping} (hm : m.Plain) (hn : n.Plain) : (m.extend n).Plain := by
  intro e he
  obtain ⟨hmem, hne⟩ := mem_live_iff.1 he
  rcases Table.mem_overlay hmem with hmem | hmem
  · exact hm e (mem_live_iff.2 ⟨hmem, hne⟩)
  · exact hn e (mem_live_iff.2 ⟨hmem, hne⟩)

/-- One more entry of an inverse. -/
theorem invertStep_eq_ok {inverse next : FieldMapping} {entry : String × String}
    (h : invertStep inverse entry = .ok next) : next = inverse.insert entry.2 entry.1 := by
  unfold invertStep at h
  split at h
  · exact absurd h nofun
  · exact (Except.ok.inj h).symm

/-- **An inverse has the entries of its table, turned round.** -/
theorem Plain.invert {m n : FieldMapping} (hm : m.Plain) (h : m.invert = .ok n) : n.Plain := by
  -- the steps keep that all entries are plain, the live ones and the others
  have hall : ∀ e ∈ n.entries, PlainName e.1 ∧ PlainName e.2 := by
    refine foldlM_invariant (P := fun k => ∀ e ∈ k.entries, PlainName e.1 ∧ PlainName e.2)
      (fun entry hentry inverse next hinv hstep => ?_)
      (fun e he => absurd he List.not_mem_nil) h
    obtain rfl := invertStep_eq_ok hstep
    intro e he
    rcases Table.mem_insert he with rfl | he
    · exact (hm entry hentry).symm
    · exact hinv e he
  exact fun e he => hall e (mem_live_iff.1 he).1

theorem kept_plain : Kept Plain where
  empty := fun _ he => absurd he List.not_mem_nil
  extend := Plain.extend
  invert := Plain.invert

/-- **A plain table gives plain names to plain names.** -/
theorem Plain.apply {m : FieldMapping} (hm : m.Plain) {name : String} (h : PlainName name) :
    PlainName (m.apply name) := by
  unfold FieldMapping.apply
  cases hget : m.get? name with
  | none => exact h
  | some target =>
    obtain ⟨hentry, htarget⟩ := Option.filter_eq_some_iff.1 hget
    have hlive : (name, target) ∈ m.live :=
      mem_live_iff.2 ⟨Table.mem_of_get? hentry, h.nonempty, by simpa using htarget⟩
    exact (hm _ hlive).2

end FieldMapping

end UserDirectory
