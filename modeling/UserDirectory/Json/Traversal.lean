import UserDirectory.Json.Basic

/-!
# Traversals of trees

`Json.mapKeys` renames every field of a tree. `Json.mapEntries?` also replaces values before it
descends, and `Json.visit?` offers every node, in pre-order, to a callback with a state of its own
that may replace it. A replacement is descended into like any other value, so these two need not
come to an end: they take a bound on the depth of the tree that they build and give `none` beyond
it.
-/

namespace UserDirectory

/-- **The place of a node in a tree**: the names and indexes on the way to it, from the root. -/
structure Node where
  path : List String
  deriving DecidableEq, Repr, Inhabited

namespace Node

/-- The place of the whole tree. -/
def root : Node := ⟨[]⟩

/-- The place of a child. -/
def child (n : Node) (segment : String) : Node := ⟨n.path ++ [segment]⟩

/-- The name or index of the node in its parent. -/
def key? (n : Node) : Option String := n.path.getLast?

/-- The node is the whole tree. -/
def isRoot (n : Node) : Bool := n.path.isEmpty

end Node

namespace Json

mutual

/-- **Renames every field** by its name and its value. Of fields with one new name, the one whose
old name comes last counts. -/
def mapKeys (rename : String → Json → String) : Json → Json
  | .obj fields => .obj (Table.ofList (mapFieldKeys rename fields))
  | .arr items => .arr (mapItemKeys rename items)
  | v => v

/-- Renames the fields of each item. -/
def mapItemKeys (rename : String → Json → String) : List Json → List Json
  | [] => []
  | v :: rest => v.mapKeys rename :: mapItemKeys rename rest

/-- Renames the fields of an object and those below. -/
def mapFieldKeys (rename : String → Json → String) :
    List (String × Json) → List (String × Json)
  | [] => []
  | (k, v) :: rest => (rename k v, v.mapKeys rename) :: mapFieldKeys rename rest

end

/-- **Renames every field and replaces its value** by new name and value; the same is done to the
fields of the replacement. The first argument bounds the depth of the result. -/
def mapEntries? (rename : String → Json → String) (replace : String → Json → Json) :
    Nat → Json → Option Json
  | 0, _ => none
  | bound + 1, .obj fields => do
    let fields ← fields.mapM fun (k, v) => do
      let key := rename k v
      let child ← mapEntries? rename replace bound (replace key v)
      pure (key, child)
    pure (.obj (Table.ofList fields))
  | bound + 1, .arr items => do
    let items ← items.mapM fun v => mapEntries? rename replace bound v
    pure (.arr items)
  | _ + 1, v => some v

/-- **Visits every node**, the parent before its children, fields and items in their order. A node
for which the callback has a value is replaced by it, and the children visited are the
replacement's. The number bounds the depth of the result. -/
def visit? {σ : Type} (f : Node → Json → StateM σ (Option Json)) :
    Nat → Node → Json → OptionT (StateM σ) Json
  | 0, _, _ => failure
  | bound + 1, node, v => do
    let replacement ← OptionT.lift (f node v)
    match replacement.getD v with
    | .obj fields => do
      let fields ← fields.mapM fun (k, child) => do
        let child ← visit? f bound (node.child k) child
        pure (k, child)
      pure (.obj fields)
    | .arr items => do
      let items ← items.zipIdx.mapM fun (child, i) => visit? f bound (node.child (toString i)) child
      pure (.arr items)
    | v => pure v

end Json

end UserDirectory
