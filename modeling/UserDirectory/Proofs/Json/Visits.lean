import UserDirectory.Json.Traversal

/-!
# Visits that need no state

A visitor may keep a state and may fail to come to an end. One that does neither gives
each node one value, and a visit of it goes by the shape of the tree: a node that the
visitor leaves alone gets the values of its children, and one that it replaces by a
value without children is replaced.
-/

namespace UserDirectory

/-- A list of steps that all come to a value. -/
theorem mapM_eq_pure {α β : Type} {m : Type → Type} [Monad m] [LawfulMonad m] {f : α → m β}
    {g : α → β} {as : List α} (h : ∀ a ∈ as, f a = pure (g a)) : as.mapM f = pure (as.map g) := by
  induction as with
  | nil => exact List.mapM_nil
  | cons a rest ih =>
    rw [List.forall_mem_cons] at h
    rw [List.mapM_cons, h.1, ih h.2, pure_bind, pure_bind, List.map_cons]

theorem Node.key?_child (node : Node) (segment : String) :
    (node.child segment).key? = some segment :=
  List.getLast?_concat

namespace Json

/-! ## Heights -/

theorem height_le_of_mem_items {items : List Json} {v : Json} (h : v ∈ items) :
    v.height ≤ heightItems items := by
  induction items with
  | nil => exact absurd h List.not_mem_nil
  | cons w rest ih =>
    rw [heightItems]
    rcases List.mem_cons.1 h with rfl | h
    · exact Nat.le_max_left _ _
    · exact Nat.le_trans (ih h) (Nat.le_max_right _ _)

theorem height_le_of_mem_fields {fields : List (String × Json)} {e : String × Json}
    (h : e ∈ fields) : e.2.height ≤ heightFields fields := by
  induction fields with
  | nil => exact absurd h List.not_mem_nil
  | cons w rest ih =>
    rw [heightFields]
    rcases List.mem_cons.1 h with rfl | h
    · exact Nat.le_max_left _ _
    · exact Nat.le_trans (ih h) (Nat.le_max_right _ _)

/-! ## Nodes -/

variable {σ : Type} {f : Node → Json → StateM σ (Option Json)} {node : Node} {bound : Nat}

/-- **A node that is left alone** is visited through its fields. -/
theorem visit?_obj {fields : List (String × Json)} (hf : f node (.obj fields) = pure none)
    {g : String → Json → Json}
    (h : ∀ e ∈ fields, visit? f bound (node.child e.1) e.2 = pure (g e.1 e.2)) :
    visit? f (bound + 1) node (.obj fields) = pure (.obj (fields.map fun e => (e.1, g e.1 e.2))) := by
  have hfields : ∀ e ∈ fields, (do
      let child ← visit? f bound (node.child e.1) e.2
      pure (e.1, child) : OptionT (StateM σ) (String × Json)) = pure (e.1, g e.1 e.2) := by
    intro e he
    rw [h e he, pure_bind]
  have hlift : (OptionT.lift (pure none : StateM σ (Option Json))) = pure none := rfl
  rw [visit?, hf, hlift, pure_bind]
  show (fields.mapM _ >>= _) = _
  rw [mapM_eq_pure hfields, pure_bind]

/-- **A node that is left alone** is visited through its items. -/
theorem visit?_arr {items : List Json} (hf : f node (.arr items) = pure none)
    {g : String → Json → Json}
    (h : ∀ e ∈ items.zipIdx, visit? f bound (node.child (toString e.2)) e.1
      = pure (g (toString e.2) e.1)) :
    visit? f (bound + 1) node (.arr items) =
      pure (.arr (items.zipIdx.map fun e => g (toString e.2) e.1)) := by
  have hlift : (OptionT.lift (pure none : StateM σ (Option Json))) = pure none := rfl
  rw [visit?, hf, hlift, pure_bind]
  show (items.zipIdx.mapM _ >>= _) = _
  rw [mapM_eq_pure h, pure_bind]

/-- **A node that is replaced** by a value without children becomes this value. -/
theorem visit?_of_replaced {v w : Json} (hf : f node v = pure (some w)) (hw : w.height = 0) :
    visit? f (bound + 1) node v = pure w := by
  have hlift : (OptionT.lift (pure (some w) : StateM σ (Option Json))) = pure (some w) := rfl
  rw [visit?, hf, hlift, pure_bind]
  cases w with
  | arr items => exact absurd hw (Nat.succ_ne_zero _)
  | obj fields => exact absurd hw (Nat.succ_ne_zero _)
  | _ => rfl

end Json

end UserDirectory
