import UserDirectory.Proofs.Mapping.Names

/-!
# Inverses

A table that can be inverted loses nothing by it: the inverse holds exactly its live
entries, turned round (`FieldMapping.mem_live_invert`). Each step of the inversion
adds one entry under a target that has none yet, so that no entry is overwritten.
-/

namespace UserDirectory.FieldMapping

/-- **One step** adds an entry and keeps the others. -/
theorem get?_invertStep {inverse next : FieldMapping} {entry : String × String}
    (h : invertStep inverse entry = .ok next) {target name : String} :
    next.entries.get? target = some name ↔
      inverse.entries.get? target = some name ∨ (name, target) = entry := by
  have hnew : inverse.entries.get? entry.2 = none := by
    unfold invertStep at h
    split at h
    · exact absurd h nofun
    · assumption
  obtain rfl := invertStep_eq_ok h
  have hread : Table.get? (inverse.insert entry.2 entry.1).entries target
      = if target = entry.2 then some entry.1 else inverse.entries.get? target :=
    Table.get?_insert _ _ _ _
  rw [hread, Prod.mk.injEq]
  by_cases htarget : target = entry.2
  · subst htarget
    rw [if_pos rfl, hnew]
    simp [eq_comm]
  · rw [if_neg htarget]
    simp [htarget]

/-- **What an inversion collects** from the entries that it goes through. -/
theorem get?_foldlM_invertStep {entries : List (String × String)} {inverse final : FieldMapping}
    (h : entries.foldlM invertStep inverse = .ok final) {target name : String} :
    final.entries.get? target = some name ↔
      inverse.entries.get? target = some name ∨ (name, target) ∈ entries := by
  induction entries generalizing inverse with
  | nil =>
    obtain rfl := Except.ok.inj h
    simp
  | cons entry rest ih =>
    rw [List.foldlM_cons] at h
    obtain ⟨next, hnext, h⟩ := bind_eq_ok_iff.1 h
    rw [ih h, get?_invertStep hnext, List.mem_cons, or_assoc]

/-- **An inverse reads exactly the live entries of its table**, turned round. -/
theorem get?_invert {m n : FieldMapping} (h : m.invert = .ok n) {target name : String} :
    n.entries.get? target = some name ↔ (name, target) ∈ m.live := by
  rw [get?_foldlM_invertStep h]
  exact or_iff_right nofun

/-- **An inverse holds exactly the live entries of its table**, turned round. -/
theorem mem_live_invert {m n : FieldMapping} (h : m.invert = .ok n) {target name : String} :
    (target, name) ∈ n.live ↔ (name, target) ∈ m.live := by
  rw [mem_live_iff, ← n.ordered.get?_eq_some_iff, get?_invert h, and_iff_left_of_imp]
  exact fun hlive => (mem_live_iff.1 hlive).2.symm

/-- A name has one live entry at most. -/
theorem live_unique {m : FieldMapping} {name target target' : String}
    (h : (name, target) ∈ m.live) (h' : (name, target') ∈ m.live) : target = target' := by
  have hget := m.ordered.get?_of_mem (mem_live_iff.1 h).1
  have hget' := m.ordered.get?_of_mem (mem_live_iff.1 h').1
  exact Option.some.inj (hget.symm.trans hget')

theorem nodup_live (m : FieldMapping) : m.live.Nodup := m.ordered.nodup.filter _

end UserDirectory.FieldMapping
