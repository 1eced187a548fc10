import Mathlib.Data.List.Perm.Basic
import UserDirectory.Proofs.Query.Formula
import UserDirectory.Proofs.Search.Layers

/-!
# Filters up to the order of their conjuncts

A filter is a conjunction at several places: it is one itself, and so is each filter of
a group in it. `Filter.Reordered` says that two filters differ in the order of clauses
at such places only. The branches of a disjunction keep their order, and nothing is
reordered below a field.

Compiled, such filters have their pieces in another order, and drop the same clauses.
Two filters may also compile to the very same text without being the same, since
conjunctions outside any field have no text of their own; `Filter.AgreesWith` allows
for both.
-/

namespace UserDirectory

open Query (Connective)

/-- A group of filters. -/
def Clause.group : Connective → List Filter → Clause
  | .and, fs => .and fs
  | .or, fs => .or fs

/-- The key that a group stands under. -/
def groupKey : Connective → String
  | .and => "and"
  | .or => "or"

namespace Filter

/-! ## Groups -/

/-- **A group is read from an array**, filter by filter. -/
theorem exists_items_of_ofField {c : Connective} {d : Nat} {v : Json} {clause : Clause}
    (h : Clause.ofField d (groupKey c) v = .ok clause) :
    ∃ items fs, v = .arr items ∧ Filter.ofItems (d + 1) (groupKey c) items = .ok fs ∧
      clause = .group c fs := by
  have hentry : ∀ (v : Json) nested children,
      Clause.ofEntry (groupKey c) v nested children = children.map (Clause.group c) := by
    intro v nested children
    cases c <;> rfl
  cases v with
  | arr items =>
    rw [Clause.ofField, hentry] at h
    obtain ⟨fs, hfs, rfl⟩ := map_eq_ok_iff.1 h
    exact ⟨items, fs, rfl, hfs, rfl⟩
  | _ =>
    rw [Clause.ofField, hentry] at h
    · cases h
    all_goals
      intro _ harr
      cases harr

theorem dropped_group (c : Connective) (scope : Option String) (fs : List Filter) :
    (Clause.group c fs).dropped scope = (fs.map (Filter.dropped scope)).flatten := by
  rw [← droppedAll_eq_flatten]
  cases c <;> rfl

/-! ## Another order -/

/-- **The same filter with its conjuncts in another order**, at the top or in the
filters of groups. -/
inductive Reordered : Filter → Filter → Prop where
  /-- The clauses of the filter stand in another order. -/
  | clauses {f g : Filter} : f.Perm g → Reordered f g
  /-- One filter of a group is reordered. -/
  | inGroup (c : Connective) (before after : Filter) (fs gs : List Filter) {f g : Filter} :
      Reordered f g →
      Reordered (before ++ .group c (fs ++ f :: gs) :: after)
        (before ++ .group c (fs ++ g :: gs) :: after)
  | trans {f g k : Filter} : Reordered f g → Reordered g k → Reordered f k

namespace Reordered

variable {f g f' g' : Filter}

theorem refl (f : Filter) : Reordered f f := .clauses (.refl f)

/-- Reordering goes on between other clauses. -/
theorem between (h : Reordered f g) (p q : Filter) : Reordered (p ++ f ++ q) (p ++ g ++ q) := by
  induction h with
  | clauses h => exact .clauses ((h.append_left p).append_right q)
  | inGroup c before after fs gs h _ =>
    have hout : ∀ x : Clause, p ++ (before ++ x :: after) ++ q
        = (p ++ before) ++ x :: (after ++ q) := fun x => by
      rw [List.append_assoc, List.append_assoc, List.append_assoc, List.cons_append]
    rw [hout, hout]
    exact h.inGroup c (p ++ before) (after ++ q) fs gs
  | trans _ _ ih ih' => exact ih.trans ih'

theorem append (h : Reordered f g) (h' : Reordered f' g') : Reordered (f ++ f') (g ++ g') := by
  have hfirst := h.between [] f'
  have hsecond := h'.between g []
  rw [List.append_nil, List.append_nil] at hsecond
  exact hfirst.trans hsecond

/-- All filters of a group may be reordered, one after another. -/
theorem group {fs gs : List Filter} (c : Connective) (h : List.Forall₂ Reordered fs gs)
    (done : List Filter) : Reordered [.group c (done ++ fs)] [.group c (done ++ gs)] := by
  induction h generalizing done with
  | nil => exact refl _
  | @cons f g fs gs hfg _ ih =>
    have hone : Reordered [.group c (done ++ f :: fs)] [.group c (done ++ g :: fs)] :=
      hfg.inGroup c [] [] done fs
    have hrest := ih (done ++ [g])
    rw [List.append_assoc, List.append_assoc] at hrest
    exact hone.trans hrest

/-- **Reordering drops the same clauses**, each as often. -/
theorem dropped_perm (h : Reordered f g) :
    (Filter.dropped none f).Perm (Filter.dropped none g) := by
  induction h with
  | clauses h =>
    rw [dropped_eq_flatMap, dropped_eq_flatMap]
    exact h.flatMap_right _
  | inGroup c before after fs gs _ ih =>
    have hcons : ∀ (x : Clause) (k : Filter),
        Filter.dropped none (x :: k) = x.dropped none ++ Filter.dropped none k := fun _ _ => rfl
    rw [dropped_append, dropped_append, hcons, hcons, dropped_group, dropped_group,
      List.map_append, List.map_append, List.map_cons, List.map_cons, List.flatten_append,
      List.flatten_append, List.flatten_cons, List.flatten_cons]
    exact (((ih.append_right _).append_left _).append_right _).append_left _
  | trans _ _ ih ih' => exact ih.trans ih'

/-- **Reordering moves the conditions on fields** and leaves them as they are. -/
theorem field_mem (h : Reordered f g) {name : String} {operand : Operand}
    (hmem : .field name operand ∈ f) : .field name operand ∈ g := by
  induction h with
  | clauses h => exact h.mem_iff.1 hmem
  | inGroup c _ _ _ _ _ _ =>
    rw [List.mem_append, List.mem_cons] at hmem ⊢
    refine hmem.imp_right (.imp_left fun h => ?_)
    cases c <;> exact absurd h nofun
  | trans _ _ ih ih' => exact ih' (ih hmem)

end Reordered

/-! ## The same text -/

namespace SameText

variable {f g k : Filter}

theorem symm (h : f.SameText g) : g.SameText f := ⟨h.pieces.symm, h.dropped.symm⟩

theorem map_pieces {fs gs : List Filter} (h : List.Forall₂ SameText fs gs) :
    fs.map (Filter.pieces none) = gs.map (Filter.pieces none) := by
  induction h with
  | nil => rfl
  | cons hfg _ ih => rw [List.map_cons, List.map_cons, hfg.pieces, ih]

theorem map_dropped {fs gs : List Filter} (h : List.Forall₂ SameText fs gs) :
    fs.map (Filter.dropped none) = gs.map (Filter.dropped none) := by
  induction h with
  | nil => rfl
  | cons hfg _ ih => rw [List.map_cons, List.map_cons, hfg.dropped, ih]

/-- **Groups of filters with the same text** have the same text. -/
theorem group {fs gs : List Filter} (c : Connective) (h : List.Forall₂ SameText fs gs) :
    SameText [.group c fs] [.group c gs] := by
  constructor
  · cases c with
    | and =>
      show Filter.flatPieces fs ++ [] = Filter.flatPieces gs ++ []
      rw [flatPieces_eq_flatten, flatPieces_eq_flatten, map_pieces h]
    | or =>
      have hgroups : Filter.groups none fs = Filter.groups none gs := by
        rw [groups_eq_flatMap, groups_eq_flatMap, map_pieces h]
      show joinGroups _ Query.disjoin (Filter.groups none fs) ++ [] =
        joinGroups _ Query.disjoin (Filter.groups none gs) ++ []
      rw [hgroups]
  · show (Clause.group c fs).dropped none ++ [] = (Clause.group c gs).dropped none ++ []
    rw [dropped_group, dropped_group, map_dropped h]

end SameText

/-! ## The same text up to order -/

/-- **Two filters compile alike but for the order of conjuncts**: the first one,
reordered, has the text of the second. -/
def AgreesWith (f g : Filter) : Prop := ∃ k, f.Reordered k ∧ k.SameText g

namespace AgreesWith

variable {f g k : Filter}

theorem refl (f : Filter) : f.AgreesWith f := ⟨f, .refl f, .refl f⟩

theorem of_perm (h : f.Perm g) (h' : g.AgreesWith k) : f.AgreesWith k := by
  obtain ⟨l, hl, hsame⟩ := h'
  exact ⟨l, (Reordered.clauses h).trans hl, hsame⟩

theorem trans_sameText (h : f.AgreesWith g) (h' : g.SameText k) : f.AgreesWith k := by
  obtain ⟨l, hl, hsame⟩ := h
  exact ⟨l, hl, hsame.trans h'⟩

theorem append {f' g' : Filter} (h : f.AgreesWith g) (h' : f'.AgreesWith g') :
    AgreesWith (f ++ f') (g ++ g') := by
  obtain ⟨l, hl, hsame⟩ := h
  obtain ⟨l', hl', hsame'⟩ := h'
  exact ⟨l ++ l', hl.append hl', hsame.append hsame'⟩

/-- **Groups agree** if their filters do. -/
theorem group {fs gs : List Filter} (c : Connective) (h : List.Forall₂ AgreesWith fs gs) :
    AgreesWith [.group c fs] [.group c gs] := by
  have hks : ∃ ks, List.Forall₂ Reordered fs ks ∧ List.Forall₂ SameText ks gs := by
    induction h with
    | nil => exact ⟨[], .nil, .nil⟩
    | cons hfg _ ih =>
      obtain ⟨k, hk, hsame⟩ := hfg
      obtain ⟨ks, hks, hsames⟩ := ih
      exact ⟨k :: ks, .cons hk hks, .cons hsame hsames⟩
  obtain ⟨ks, hks, hsames⟩ := hks
  exact ⟨[.group c ks], .group c hks [], .group c hsames⟩

/-- **Filters agree clause by clause.** -/
theorem of_forall₂ (h : List.Forall₂ (fun c d => AgreesWith [c] [d]) f g) : f.AgreesWith g := by
  induction h with
  | nil => exact refl []
  | cons hcd _ ih => exact hcd.append ih

/-- **Filters that agree clause by clause** agree in any order of the second one. -/
theorem of_forall₂_perm (h : List.Forall₂ (fun c d => AgreesWith [c] [d]) f g) (hg : g.Perm k) :
    f.AgreesWith k := by
  obtain ⟨l, hl, hperm⟩ := List.perm_comp_forall₂ hg.symm h.flip
  exact of_perm hperm.symm (of_forall₂ hl.flip)

end AgreesWith

end Filter

end UserDirectory
