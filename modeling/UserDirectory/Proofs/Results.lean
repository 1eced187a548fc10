import Mathlib.Data.List.Forall2

/-!
# Results without an error

A computation that may fail gives a value exactly when each of its steps does.
These are the inversions by which the proofs take such computations apart. Whether
a computation has a given outcome is decidable where values and errors are.
-/

namespace UserDirectory

variable {ε α β : Type}

instance decidableEqExcept [DecidableEq ε] [DecidableEq α] : DecidableEq (Except ε α)
  | .ok a, .ok b => decidable_of_iff (a = b) ⟨congrArg _, Except.ok.inj⟩
  | .error a, .error b => decidable_of_iff (a = b) ⟨congrArg _, Except.error.inj⟩
  | .ok _, .error _ | .error _, .ok _ => isFalse nofun

/-- **A sequence of two steps** succeeds through a value of the first. -/
theorem bind_eq_ok_iff {x : Except ε α} {f : α → Except ε β} {b : β} :
    x >>= f = .ok b ↔ ∃ a, x = .ok a ∧ f a = .ok b := by
  cases x with
  | error e =>
    constructor
    · exact fun h => Except.noConfusion rfl rfl (heq_of_eq h)
    · rintro ⟨a, h, -⟩
      exact Except.noConfusion rfl rfl (heq_of_eq h)
  | ok a =>
    constructor
    · exact fun h => ⟨a, rfl, h⟩
    · rintro ⟨a', h, hb⟩
      cases h
      exact hb

/-- A step whose value is changed afterwards succeeds through its own value. -/
theorem map_eq_ok_iff {x : Except ε α} {f : α → β} {b : β} :
    x.map f = .ok b ↔ ∃ a, x = .ok a ∧ f a = b := by
  cases x with
  | error e => simp [Except.map]
  | ok a => simp [Except.map]

/-- A step whose error is changed afterwards succeeds as before. -/
theorem mapError_eq_ok_iff {ε' : Type} {x : Except ε α} {f : ε → ε'} {a : α} :
    x.mapError f = .ok a ↔ x = .ok a := by
  cases x with
  | error e => simp [Except.mapError]
  | ok a => simp [Except.mapError]

/-- **A list of steps** succeeds through a value of each. -/
theorem forall₂_of_mapM {f : α → Except ε β} {as : List α} {bs : List β}
    (h : as.mapM f = .ok bs) : List.Forall₂ (fun a b => f a = .ok b) as bs := by
  induction as generalizing bs with
  | nil =>
    rw [List.mapM_nil] at h
    obtain rfl := Except.ok.inj h
    exact .nil
  | cons a rest ih =>
    rw [List.mapM_cons] at h
    obtain ⟨b, hb, h⟩ := bind_eq_ok_iff.1 h
    obtain ⟨bs, hbs, h⟩ := bind_eq_ok_iff.1 h
    obtain rfl := Except.ok.inj h
    exact .cons hb (ih hbs)

/-- Two lists side by side, one of them in two parts, come apart together. -/
theorem exists_append_of_forall₂ {R : α → β → Prop} {as as' : List α} {bs : List β}
    (h : List.Forall₂ R (as ++ as') bs) :
    ∃ cs ds, List.Forall₂ R as cs ∧ List.Forall₂ R as' ds ∧ bs = cs ++ ds := by
  induction as generalizing bs with
  | nil => exact ⟨[], bs, .nil, h, rfl⟩
  | cons a rest ih =>
    cases h with
    | cons hab h =>
      obtain ⟨cs, ds, hcs, hds, rfl⟩ := ih h
      exact ⟨_ :: cs, ds, .cons hab hcs, hds, rfl⟩

/-- What stands on the left of two lists side by side has something on its right. -/
theorem exists_right_of_mem {R : α → β → Prop} {as : List α} {bs : List β}
    (h : List.Forall₂ R as bs) {a : α} (ha : a ∈ as) : ∃ b ∈ bs, R a b := by
  induction h with
  | nil => exact absurd ha List.not_mem_nil
  | cons hab _ ih =>
    rcases List.mem_cons.1 ha with rfl | ha
    · exact ⟨_, List.mem_cons_self, hab⟩
    · obtain ⟨b, hb, hr⟩ := ih ha
      exact ⟨b, List.mem_cons_of_mem _ hb, hr⟩

/-- What stands on the right of two lists side by side has something on its left. -/
theorem exists_left_of_mem {R : α → β → Prop} {as : List α} {bs : List β}
    (h : List.Forall₂ R as bs) {b : β} (hb : b ∈ bs) : ∃ a ∈ as, R a b :=
  exists_right_of_mem h.flip hb

/-- A sequence of checks that passes has passed each of them. -/
theorem forall_of_forM {f : α → Except ε Unit} {as : List α} (h : as.forM f = .ok ()) :
    ∀ a ∈ as, f a = .ok () := by
  induction as with
  | nil => exact List.forall_mem_nil _
  | cons a rest ih =>
    obtain ⟨_, ha, hrest⟩ := bind_eq_ok_iff.1 h
    exact List.forall_mem_cons.2 ⟨ha, ih hrest⟩

/-- **A sequence of steps fails** at the first one that does. -/
theorem foldlM_eq_error_iff {f : β → α → Except ε β} {as : List α} {b : β} {e : ε} :
    as.foldlM f b = .error e ↔ ∃ before a after c, as = before ++ a :: after ∧
      before.foldlM f b = .ok c ∧ f c a = .error e := by
  constructor
  · intro h
    induction as generalizing b with
    | nil => exact absurd h nofun
    | cons a rest ih =>
      rw [List.foldlM_cons] at h
      cases ha : f b a with
      | error e' =>
        rw [ha] at h
        obtain rfl := Except.error.inj h
        exact ⟨[], a, rest, b, rfl, rfl, ha⟩
      | ok c =>
        rw [ha] at h
        obtain ⟨before, a', after, c', rfl, hbefore, ha'⟩ := ih h
        refine ⟨a :: before, a', after, c', rfl, ?_, ha'⟩
        rw [List.foldlM_cons, ha]
        exact hbefore
  · rintro ⟨before, a, after, c, rfl, hbefore, ha⟩
    rw [List.foldlM_append, hbefore]
    show (a :: after).foldlM f c = .error e
    rw [List.foldlM_cons, ha]
    rfl

/-- **What each step keeps**, a sequence of steps keeps. -/
theorem foldlM_invariant {P : β → Prop} {f : β → α → Except ε β} {as : List α}
    (hstep : ∀ a ∈ as, ∀ b b', P b → f b a = .ok b' → P b') {b b' : β} (hb : P b)
    (h : as.foldlM f b = .ok b') : P b' := by
  induction as generalizing b with
  | nil =>
    obtain rfl := Except.ok.inj h
    exact hb
  | cons a rest ih =>
    rw [List.foldlM_cons] at h
    obtain ⟨c, hc, h⟩ := bind_eq_ok_iff.1 h
    exact ih (fun a' ha' => hstep a' (List.mem_cons_of_mem a ha'))
      (hstep a List.mem_cons_self b c hb hc) h

end UserDirectory
