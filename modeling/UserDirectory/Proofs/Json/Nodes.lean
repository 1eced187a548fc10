import Mathlib.Data.List.Nodup
import UserDirectory.Json.Traversal
import UserDirectory.Proofs.Record.WellFormed

/-!
# The nodes of a tree

An object has its fields for children, each under its name, and an array its items, each
under its index written in digits; nothing else has any (`Json.children`). Seen in this way
a value is a plain tree, and what is proved of its children one after another holds of the
whole (`Json.children_induction`).

A node is reached by the names and indexes on the way to it (`Json.HasNode`). `Json.nodes`
lists all of them, each before its children and those in their order. In a well-formed
value no way is listed twice, since names of fields and indexes of items are distinct; so a
node is known by its place.
-/

namespace UserDirectory

/-- Different numbers are written differently. -/
theorem eq_of_toString_eq {i j : Nat} (h : toString i = toString j) : i = j := by
  have hvalue : ∀ n : Nat, Nat.ofDigitChars 10 (toString n).toList 0 = n := fun n => by
    rw [show (toString n).toList = Nat.toDigits 10 n from String.toList_ofList,
      Nat.ofDigitChars_toDigits (by decide) (by decide)]
  rw [← hvalue i, ← hvalue j, h]

theorem Node.path_child (node : Node) (segment : String) :
    (node.child segment).path = node.path ++ [segment] := rfl

namespace Json

/-! ## Children -/

/-- **The children of a value**, each under its name or its index. -/
def children : Json → List (String × Json)
  | .obj fields => fields
  | .arr items => items.zipIdx.map fun e => (toString e.2, e.1)
  | _ => []

theorem mem_children_arr_iff {items : List Json} {segment : String} {child : Json} :
    (segment, child) ∈ (Json.arr items).children ↔
      ∃ i : Nat, items[i]? = some child ∧ segment = toString i := by
  rw [children, List.mem_map]
  constructor
  · rintro ⟨⟨item, i⟩, hitem, hpair⟩
    obtain ⟨rfl, rfl⟩ := Prod.mk.inj hpair
    exact ⟨i, List.mem_zipIdx_iff_getElem?.1 hitem, rfl⟩
  · rintro ⟨i, hitem, rfl⟩
    exact ⟨(child, i), List.mem_zipIdx_iff_getElem?.2 hitem, rfl⟩

/-- The children of an array are its items. -/
theorem map_snd_children_arr (items : List Json) :
    (Json.arr items).children.map Prod.snd = items := by
  rw [children, List.map_map]
  exact List.zipIdx_map_fst 0 items

/-- The items of an array stand under their indexes. -/
theorem map_fst_children_arr (items : List Json) :
    (Json.arr items).children.map Prod.fst = (List.range' 0 items.length).map toString := by
  rw [← List.zipIdx_map_snd 0 items, children, List.map_map, List.map_map]
  rfl

mutual

/-- **What holds of a value if it holds of its children**, holds of every value. -/
@[elab_as_elim]
theorem children_induction {motive : Json → Prop}
    (step : ∀ v : Json, (∀ e ∈ v.children, motive e.2) → motive v) : (v : Json) → motive v
  | .obj fields => step _ (children_induction_fields step fields)
  | .arr items => step _ fun _ he =>
    children_induction_items step items _ (map_snd_children_arr items ▸ List.mem_map_of_mem he)
  | .null | .bool _ | .num _ | .str _ => step _ nofun

theorem children_induction_items {motive : Json → Prop}
    (step : ∀ v : Json, (∀ e ∈ v.children, motive e.2) → motive v) :
    (items : List Json) → ∀ v ∈ items, motive v
  | [] => nofun
  | v :: rest => List.forall_mem_cons.2
    ⟨children_induction step v, children_induction_items step rest⟩

theorem children_induction_fields {motive : Json → Prop}
    (step : ∀ v : Json, (∀ e ∈ v.children, motive e.2) → motive v) :
    (fields : List (String × Json)) → ∀ e ∈ fields, motive e.2
  | [] => nofun
  | (_, v) :: rest => List.forall_mem_cons.2
    ⟨children_induction step v, children_induction_fields step rest⟩

end

theorem WellFormed.of_mem_children {v : Json} (h : v.WellFormed) {e : String × Json}
    (he : e ∈ v.children) : e.2.WellFormed := by
  cases v with
  | obj fields => exact Record.WellFormed.of_mem h he
  | arr items =>
    exact wellFormedItems_iff.1 h _ (map_snd_children_arr items ▸ List.mem_map_of_mem he)
  | _ => exact absurd he List.not_mem_nil

/-- **Children have distinct names.** -/
theorem WellFormed.nodup_children {v : Json} (h : v.WellFormed) :
    (v.children.map Prod.fst).Nodup := by
  cases v with
  | obj fields => exact h.1.nodup_keys
  | arr items =>
    rw [map_fst_children_arr]
    exact List.Nodup.map (fun _ _ => eq_of_toString_eq) List.nodup_range'
  | _ => exact List.nodup_nil

/-! ## Nodes by their ways -/

/-- **A value stands at the end of a way** of names and indexes. -/
inductive HasNode : Json → List String → Json → Prop
  | here (v : Json) : HasNode v [] v
  | step {v child w : Json} {segment : String} {path : List String} :
      (segment, child) ∈ v.children → HasNode child path w → HasNode v (segment :: path) w

theorem HasNode.wellFormed {v w : Json} {path : List String} (h : v.HasNode path w)
    (hv : v.WellFormed) : w.WellFormed := by
  induction h with
  | here v => exact hv
  | step hchild _ ih => exact ih (hv.of_mem_children hchild)

/-! ## All nodes -/

mutual

/-- **All nodes of a value** that stands at a place, each before its children. -/
def nodes (node : Node) : Json → List (Node × Json)
  | .obj fields => (node, .obj fields) :: fieldNodes node fields
  | .arr items => (node, .arr items) :: itemNodes node 0 items
  | v => [(node, v)]

/-- The nodes of the items, counted from an index. -/
def itemNodes (node : Node) (i : Nat) : List Json → List (Node × Json)
  | [] => []
  | v :: rest => v.nodes (node.child (toString i)) ++ itemNodes node (i + 1) rest

/-- The nodes of the values of fields. -/
def fieldNodes (node : Node) : List (String × Json) → List (Node × Json)
  | [] => []
  | (k, v) :: rest => v.nodes (node.child k) ++ fieldNodes node rest

end

theorem fieldNodes_eq_flatMap (node : Node) (fields : List (String × Json)) :
    fieldNodes node fields = fields.flatMap fun e => e.2.nodes (node.child e.1) := by
  induction fields with
  | nil => rfl
  | cons e rest ih => rw [fieldNodes, ih, List.flatMap_cons]

theorem itemNodes_eq_flatMap (node : Node) (i : Nat) (items : List Json) :
    itemNodes node i items =
      (items.zipIdx i).flatMap fun e => e.1.nodes (node.child (toString e.2)) := by
  induction items generalizing i with
  | nil => rfl
  | cons v rest ih => rw [itemNodes, ih, List.zipIdx_cons, List.flatMap_cons]

/-- **A node comes before the nodes of its children**, and those come in their order. -/
theorem nodes_eq (node : Node) (v : Json) :
    v.nodes node = (node, v) :: v.children.flatMap fun e => e.2.nodes (node.child e.1) := by
  cases v with
  | obj fields => rw [nodes, fieldNodes_eq_flatMap, children]
  | arr items => rw [nodes, itemNodes_eq_flatMap, children, List.flatMap_map]
  | _ => rfl

/-- **The list holds the nodes that there are**, with the ways to them. -/
theorem mem_nodes_iff {node place : Node} {v w : Json} :
    (place, w) ∈ v.nodes node ↔ ∃ path, place = ⟨node.path ++ path⟩ ∧ v.HasNode path w := by
  induction v using children_induction generalizing node with
  | step v ih =>
    rw [nodes_eq, List.mem_cons, List.mem_flatMap]
    constructor
    · rintro (hhere | ⟨⟨segment, child⟩, hchild, hbelow⟩)
      · obtain ⟨rfl, rfl⟩ := Prod.mk.inj hhere
        exact ⟨[], by rw [List.append_nil], .here w⟩
      · obtain ⟨path, rfl, hpath⟩ := (ih _ hchild).1 hbelow
        refine ⟨segment :: path, ?_, .step hchild hpath⟩
        rw [Node.child, List.append_assoc]
        rfl
    · rintro ⟨path, rfl, hpath⟩
      cases hpath with
      | here => exact .inl (by rw [List.append_nil])
      | @step _ child _ segment path hchild hpath =>
        refine .inr ⟨(segment, child), hchild, (ih _ hchild).2 ⟨path, ?_, hpath⟩⟩
        rw [Node.child, List.append_assoc]
        rfl

/-- **No way is listed twice.** -/
theorem WellFormed.nodup_nodes {v : Json} (h : v.WellFormed) (node : Node) :
    ((v.nodes node).map Prod.fst).Nodup := by
  induction v using children_induction generalizing node with
  | step v ih =>
    rw [nodes_eq, List.map_cons, List.map_flatMap, List.nodup_cons, List.nodup_flatMap]
    refine ⟨?_, fun e he => ih e he (h.of_mem_children he) _, ?_⟩
    · -- the ways to the children are longer
      intro hmem
      obtain ⟨e, -, hmem⟩ := List.mem_flatMap.1 hmem
      obtain ⟨⟨place, w⟩, hplace, rfl⟩ := List.mem_map.1 hmem
      obtain ⟨path, hpath, -⟩ := mem_nodes_iff.1 hplace
      have hlength := congrArg List.length (congrArg Node.path hpath)
      simp only [Node.path_child, List.length_append, List.length_singleton] at hlength
      omega
    · -- and they part at the names of the children
      refine List.Pairwise.imp (fun hne => ?_) (List.pairwise_map.1 h.nodup_children)
      intro place hfirst hsecond
      obtain ⟨⟨_, w⟩, hnode, rfl⟩ := List.mem_map.1 hfirst
      obtain ⟨⟨_, w'⟩, hnode', heq⟩ := List.mem_map.1 hsecond
      obtain ⟨path, rfl, -⟩ := mem_nodes_iff.1 hnode
      obtain ⟨path', rfl, -⟩ := mem_nodes_iff.1 hnode'
      have hpaths := congrArg Node.path heq
      simp only [Node.path_child, List.append_assoc, List.append_cancel_left_eq] at hpaths
      exact hne (List.cons.inj hpaths).1.symm

end Json

end UserDirectory
