import Mathlib.Order.WellFoundedSet
import UserDirectory.Proofs.Json.Steps

/-!
# Replacements that come to an end

A replacement is traversed like any other value, and what it holds may be replaced again. So
a traversal that puts in values by their keys need not come to an end, and no measure of the
tree falls at each of its steps.

What does fall is the key: a replacement is entered below another one only if the upper one
mentions its key (`Json.Mentions`). If no chain of such mentions closes
(`Json.NoCycle`), then there are only finitely many keys to go through, and between two
replacements the traversal goes down a tree that is given. The two traversals differ in
what counts as a key, since one of them replaces items by their indexes too; the steps down
(`Json.entered`) are otherwise the same, and that they end is proved once.
-/

namespace UserDirectory

namespace Json

/-! ## Mentions -/

/-- **A value mentions a key**: at some depth, something stands under it in an object, or, if
indexes count, in an array. -/
def Mentions (indexed : Bool) (v : Json) (key : String) : Prop :=
  ∃ path upper child, v.HasNode path upper ∧ (key, child) ∈ upper.children ∧
    (indexed = true ∨ ¬upper.NonObject)

instance (indexed : Bool) (v : Json) (key : String) : Decidable (v.Mentions indexed key) :=
  decidable_of_iff (∃ n ∈ v.nodes .root, key ∈ n.2.children.map Prod.fst ∧
    (indexed = true ∨ ¬n.2.NonObject)) <| by
    constructor
    · rintro ⟨⟨_, upper⟩, hnode, hkey, hcounts⟩
      obtain ⟨path, -, hpath⟩ := mem_nodes_iff.1 hnode
      obtain ⟨⟨_, child⟩, hchild, rfl⟩ := List.mem_map.1 hkey
      exact ⟨path, upper, child, hpath, hchild, hcounts⟩
    · rintro ⟨path, upper, child, hpath, hchild, hcounts⟩
      exact ⟨(⟨path⟩, upper), mem_nodes_iff.2 ⟨path, rfl, hpath⟩,
        List.mem_map.2 ⟨_, hchild, rfl⟩, hcounts⟩

variable {indexed : Bool} {table : Table Json}

/-- What a child mentions, the value mentions. -/
theorem Mentions.of_child {v : Json} {e : String × Json} {key : String} (he : e ∈ v.children)
    (h : e.2.Mentions indexed key) : v.Mentions indexed key := by
  obtain ⟨path, upper, child, hpath, hchild, hcounts⟩ := h
  exact ⟨e.1 :: path, upper, child, .step he hpath, hchild, hcounts⟩

/-- **One replacement brings another one about**: the value that is put in for the first key
mentions the second, which has a replacement itself. -/
def Brings (indexed : Bool) (table : Table Json) (key other : String) : Prop :=
  (∃ v, Table.get? table key = some v ∧ v.Mentions indexed other) ∧
    ∃ w, Table.get? table other = some w

/-- **No replacement brings itself about**, not even through others. -/
def NoCycle (indexed : Bool) (table : Table Json) : Prop :=
  ∀ key, ¬Relation.TransGen (Brings indexed table) key key

/-- There is no cycle if mentions lead downwards in some order of the keys. -/
theorem noCycle_of_rank (rank : String → Nat)
    (h : ∀ e ∈ table, ∀ f ∈ table, e.2.Mentions indexed f.1 → rank f.1 < rank e.1) :
    NoCycle indexed table := by
  have hfalls : ∀ key other, Relation.TransGen (Brings indexed table) key other →
      rank other < rank key := by
    intro key other hchain
    have hstep : ∀ {key other}, Brings indexed table key other → rank other < rank key := by
      rintro key other ⟨⟨v, hv, hmentions⟩, w, hw⟩
      exact h (key, v) (Table.mem_of_get? hv) (other, w) (Table.mem_of_get? hw) hmentions
    induction hchain with
    | single hbrings => exact hstep hbrings
    | tail _ hbrings ih => exact Nat.lt_trans (hstep hbrings) ih
  exact fun key hkey => Nat.lt_irrefl _ (hfalls key key hkey)

/-! ## Steps down -/

/-- The value that is put in for a key, or else the one that stands there. -/
def replacedBy (table : Table Json) (key : String) (v : Json) : Json :=
  (Table.get? table key).getD v

/-- **What is entered below a value**: the replacements of its children, or the children
themselves; those of an array are replaced only if indexes count. -/
def entered (indexed : Bool) (table : Table Json) (v : Json) : List Json :=
  v.children.map fun e =>
    if indexed = true ∨ ¬v.NonObject then replacedBy table e.1 e.2 else e.2

/-- There is an end below a value if there is one below each replacement that it mentions. -/
theorem acc_of_mentions {v : Json}
    (h : ∀ key w, v.Mentions indexed key → Table.get? table key = some w →
      Acc (fun w v => w ∈ entered indexed table v) w) :
    Acc (fun w v => w ∈ entered indexed table v) v := by
  induction v using children_induction with
  | step v ih =>
    refine Acc.intro v fun w hw => ?_
    obtain ⟨e, he, rfl⟩ := List.mem_map.1 hw
    have hchild : Acc (fun w v => w ∈ entered indexed table v) e.2 :=
      ih e he fun key w hmentions => h key w (hmentions.of_child he)
    split
    · next hcounts =>
      cases hget : Table.get? table e.1 with
      | none => rwa [replacedBy, hget]
      | some w =>
        rw [replacedBy, hget]
        exact h e.1 w ⟨[], v, e.2, .here v, he, hcounts⟩ hget
    · exact hchild

/-- **Without a cycle, there is an end** below every value. -/
theorem NoCycle.acc (h : NoCycle indexed table) (v : Json) :
    Acc (fun w v => w ∈ entered indexed table v) v := by
  have hfinite : {key | ∃ w, Table.get? table key = some w}.Finite := by
    refine (List.finite_toSet (Table.keys table)).subset fun key ⟨w, hw⟩ => ?_
    exact List.mem_map.2 ⟨(key, w), Table.mem_of_get? hw, rfl⟩
  have horder : IsStrictOrder String fun other key =>
      Relation.TransGen (Brings indexed table) key other :=
    { irrefl := h, trans := fun _ _ _ hab hbc => hbc.trans hab }
  -- there is one below the replacement of each key, by induction along the mentions
  have hkeys : ∀ key w, Table.get? table key = some w →
      Acc (fun w v => w ∈ entered indexed table v) w := by
    intro key w hw
    refine (hfinite.wellFoundedOn (r := fun other key =>
      Relation.TransGen (Brings indexed table) key other)).induction
      (P := fun key => ∀ w, Table.get? table key = some w → Acc _ w) ⟨w, hw⟩ ?_ w hw
    intro key _ ih w hw
    refine acc_of_mentions fun other u hmentions hu => ?_
    exact ih other ⟨u, hu⟩ (.single ⟨⟨w, hw, hmentions⟩, u, hu⟩) u hu
  exact acc_of_mentions fun key w _ hw => hkeys key w hw

/-- **A traversal has a bound** if it has one wherever it has one below. -/
theorem exists_bound_of_acc {P : Nat → Json → Prop}
    (hstep : ∀ bound v, (∀ w ∈ entered indexed table v, P bound w) → P (bound + 1) v)
    {v : Json} (h : Acc (fun w v => w ∈ entered indexed table v) v) :
    ∃ least, ∀ bound, least ≤ bound → P bound v := by
  induction h with
  | intro v _ ih =>
    -- one bound for all the values below
    have hbelow : ∀ ws : List Json, (∀ w ∈ ws, w ∈ entered indexed table v) →
        ∃ least, ∀ bound, least ≤ bound → ∀ w ∈ ws, P bound w := by
      intro ws hws
      induction ws with
      | nil => exact ⟨0, fun _ _ _ hw => absurd hw List.not_mem_nil⟩
      | cons w rest ihrest =>
        rw [List.forall_mem_cons] at hws
        obtain ⟨first, hfirst⟩ := ih w hws.1
        obtain ⟨least, hleast⟩ := ihrest hws.2
        refine ⟨max first least, fun bound hbound => List.forall_mem_cons.2 ⟨?_, ?_⟩⟩
        · exact hfirst bound (Nat.le_trans (Nat.le_max_left _ _) hbound)
        · exact hleast bound (Nat.le_trans (Nat.le_max_right _ _) hbound)
    obtain ⟨least, hleast⟩ := hbelow _ fun _ hw => hw
    refine ⟨least + 1, fun bound hbound => ?_⟩
    obtain ⟨bound, rfl⟩ := Nat.exists_eq_add_one.2 (Nat.lt_of_lt_of_le least.succ_pos hbound)
    exact hstep bound v (hleast bound (Nat.le_of_succ_le_succ hbound))

/-! ## Traversals -/

/-- A list of steps that each come to a value comes to one. -/
theorem exists_mapM_eq_pure {α β : Type} {m : Type → Type} [Monad m] [LawfulMonad m]
    {f : α → m β} {as : List α} (h : ∀ a ∈ as, ∃ b, f a = pure b) :
    ∃ bs, as.mapM f = pure bs := by
  induction as with
  | nil => exact ⟨[], List.mapM_nil⟩
  | cons a rest ih =>
    rw [List.forall_mem_cons] at h
    obtain ⟨b, hb⟩ := h.1
    obtain ⟨bs, hbs⟩ := ih h.2
    exact ⟨b :: bs, by rw [List.mapM_cons, hb, hbs, pure_bind, pure_bind]⟩

variable {σ : Type}

/-- **The callback that replaces nodes by their keys.** The root has none. -/
def keyVisitor (table : Table Json) (node : Node) (_ : Json) : StateM σ (Option Json) :=
  pure (node.key?.bind (Table.get? table))

/-- A visit comes to an end at a node if it does below what the node becomes. -/
theorem exists_visit?_keyVisitor {bound : Nat} {w : Json}
    (h : ∀ u ∈ entered true table w, ∀ (node : Node) (v : Json),
      (node.key?.bind (Table.get? table)).getD v = u →
        ∃ out, visit? (keyVisitor table) bound node v = (pure out : OptionT (StateM σ) Json))
    {node : Node} {v : Json} (hw : (node.key?.bind (Table.get? table)).getD v = w) :
    ∃ out, visit? (keyVisitor table) (bound + 1) node v =
      (pure out : OptionT (StateM σ) Json) := by
  have hlift : OptionT.lift (keyVisitor table node v : StateM σ (Option Json)) =
      pure (node.key?.bind (Table.get? table)) := rfl
  have hchildren : ∀ e ∈ w.children, ∃ out, visit? (keyVisitor table) bound (node.child e.1) e.2 =
      (pure out : OptionT (StateM σ) Json) := by
    intro e he
    refine h _ (List.mem_map_of_mem he) (node.child e.1) e.2 ?_
    rw [if_pos (.inl rfl), Node.key?_child]
    rfl
  obtain ⟨values, hvalues⟩ := exists_mapM_eq_pure hchildren
  refine ⟨w.withChildren values, ?_⟩
  rw [visit?_succ, hlift, pure_bind, hw, hvalues, pure_bind]

/-- A rewriting comes to an end at a value if it does below it. -/
theorem exists_mapEntries? {bound : Nat} {v : Json}
    (h : ∀ w ∈ entered false table v,
      ∃ out, mapEntries? (fun key _ => key) (replacedBy table) bound w = some out) :
    ∃ out, mapEntries? (fun key _ => key) (replacedBy table) (bound + 1) v = some out := by
  cases v with
  | obj fields =>
    have hfields : ∀ e ∈ fields, ∃ f, (do
        let child ← mapEntries? (fun key _ => key) (replacedBy table) bound
          (replacedBy table e.1 e.2)
        pure (e.1, child) : Option (String × Json)) = pure f := by
      intro e he
      obtain ⟨child, hchild⟩ := h (replacedBy table e.1 e.2) <|
        List.mem_map.2 ⟨e, he, if_pos (.inr (Option.some_ne_none _))⟩
      exact ⟨(e.1, child), by rw [hchild]; rfl⟩
    obtain ⟨outs, houts⟩ := exists_mapM_eq_pure hfields
    refine ⟨.obj (Table.ofList outs), ?_⟩
    rw [mapEntries?]
    show (fields.mapM _ >>= _) = _
    rw [houts]
    rfl
  | arr items =>
    have hitems : ∀ v ∈ items, ∃ out,
        mapEntries? (fun key _ => key) (replacedBy table) bound v = pure out := by
      intro v hv
      rw [← map_snd_children_arr items] at hv
      obtain ⟨e, he, rfl⟩ := List.mem_map.1 hv
      exact h e.2 <|
        List.mem_map.2 ⟨e, he, if_neg (not_or.2 ⟨Bool.false_ne_true, not_not.2 rfl⟩)⟩
    obtain ⟨outs, houts⟩ := exists_mapM_eq_pure hitems
    refine ⟨.arr outs, ?_⟩
    rw [mapEntries?, houts]
    rfl
  | _ => exact ⟨_, rfl⟩

/-- **Replacing traversals come to an end** on every value, if no replacement brings itself
about: visits, for which an index is a key as well, and rewritings, for which it is not. From
some bound on, the value that they come to is the same. -/
theorem replacements_end (table : Table Json) :
    (NoCycle true table → ∀ v, ∃ out least, ∀ bound, least ≤ bound →
      visit? (keyVisitor table) bound .root v = (pure out : OptionT (StateM σ) Json)) ∧
      (NoCycle false table → ∀ v, ∃ out least, ∀ bound, least ≤ bound →
        mapEntries? (fun key _ => key) (replacedBy table) bound v = some out) := by
  refine ⟨fun h v => ?_, fun h v => ?_⟩
  · obtain ⟨least, hleast⟩ := exists_bound_of_acc (P := fun bound w => ∀ (node : Node) (v : Json),
      (node.key?.bind (Table.get? table)).getD v = w →
        ∃ out, visit? (keyVisitor table) bound node v = (pure out : OptionT (StateM σ) Json))
      (fun bound w hbelow node v hw => exists_visit?_keyVisitor hbelow hw) (h.acc v)
    obtain ⟨out, hout⟩ := hleast least (Nat.le_refl least) .root v rfl
    refine ⟨out, least, fun bound hbound => OptionT.ext (StateT.ext fun s => ?_)⟩
    have hrun : (visit? (keyVisitor table) least .root v).run.run s = (some out, s) := by
      rw [hout, run_pure_eq_some_iff]
      exact ⟨rfl, rfl⟩
    exact visit?_mono hbound hrun
  · obtain ⟨least, hleast⟩ := exists_bound_of_acc (P := fun bound w => ∃ out,
      mapEntries? (fun key _ => key) (replacedBy table) bound w = some out)
      (fun _ _ => exists_mapEntries?) (h.acc v)
    obtain ⟨out, hout⟩ := hleast least (Nat.le_refl least)
    exact ⟨out, least, fun bound hbound => mapEntries?_mono hbound hout⟩

/-- A table in which one replacement brings about another, at two depths. -/
def nestedTable : Table Json :=
  [("a", .obj [("b", .null), ("list", .arr [.obj [("b", .bool true)]])]), ("b", .arr [.str "x"])]

theorem replacements_end_nestedTable :
    NoCycle true nestedTable ∧ NoCycle false nestedTable ∧
      (∃ out least, ∀ bound, least ≤ bound →
        visit? (keyVisitor nestedTable) bound .root (.arr [.obj [("a", .null)]]) =
          (pure out : OptionT (StateM Nat) Json)) ∧
      ∃ out least, ∀ bound, least ≤ bound →
        mapEntries? (fun key _ => key) (replacedBy nestedTable) bound
          (.arr [.obj [("a", .null)]]) = some out := by
  have hindexed : NoCycle true nestedTable :=
    noCycle_of_rank (fun key => if key = "a" then 1 else 0) (by decide +kernel)
  have hkeys : NoCycle false nestedTable :=
    noCycle_of_rank (fun key => if key = "a" then 1 else 0) (by decide +kernel)
  obtain ⟨hvisits, hrewritings⟩ := replacements_end (σ := Nat) nestedTable
  exact ⟨hindexed, hkeys, hvisits hindexed _, hrewritings hkeys _⟩

end Json

end UserDirectory
