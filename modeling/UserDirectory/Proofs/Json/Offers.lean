import UserDirectory.Proofs.Json.Steps

/-!
# What a visit offers

A visit goes down the tree that it is building, not the one that it was given: a node that
the callback has replaced is entered through its replacement. So the nodes that the callback
is offered are those of the result, and in their order (`Json.OffersOf`); what is offered at
a child is the child of what its parent has become.

To say so, the callback is made to keep a record of what it was offered and what it
answered. This changes nothing in the visit (`Json.Records`).
-/

namespace UserDirectory

namespace Json

variable {σ : Type}

/-! ## Keeping a record -/

/-- **What a callback is offered** at a place, and what it answers. -/
structure Offer where
  node : Node
  value : Json
  answer : Option Json
  deriving DecidableEq

/-- What becomes of the node. -/
def Offer.result (o : Offer) : Json := o.answer.getD o.value

/-- **The callback that keeps a record** of its offers. -/
def recorded (f : Node → Json → StateM σ (Option Json)) (node : Node) (v : Json) :
    StateM (σ × List Offer) (Option Json) := do
  let (s, offers) ← get
  let (answer, s') := (f node v).run s
  set (s', offers ++ [⟨node, v, answer⟩])
  pure answer

/-- **A computation does what another one does**, wherever that comes to a value, and adds
to its record offers with a property. -/
def Records {α : Type} (x : OptionT (StateM (σ × List Offer)) α) (y : OptionT (StateM σ) α)
    (T : α → List Offer → Prop) : Prop :=
  ∀ s a s', y.run.run s = (some a, s') → ∀ log, ∃ offers,
    x.run.run (s, log) = (some a, (s', log ++ offers)) ∧ T a offers

namespace Records

variable {α β : Type} {x : OptionT (StateM (σ × List Offer)) α} {y : OptionT (StateM σ) α}
  {T : α → List Offer → Prop}

theorem imp {T' : α → List Offer → Prop} (h : Records x y T)
    (himp : ∀ a offers, T a offers → T' a offers) : Records x y T' := by
  intro s a s' hy log
  obtain ⟨offers, hx, ht⟩ := h s a s' hy log
  exact ⟨offers, hx, himp a offers ht⟩

theorem pure (a : α) :
    Records (Pure.pure a : OptionT (StateM (σ × List Offer)) α) (Pure.pure a)
      fun b offers => b = a ∧ offers = [] := by
  intro s b s' hy log
  obtain ⟨rfl, rfl⟩ := run_pure_eq_some_iff.1 hy
  exact ⟨[], run_pure_eq_some_iff.2 ⟨rfl, by rw [List.append_nil]⟩, rfl, rfl⟩

/-- **The offers of two steps** are those of the first and then those of the second. -/
theorem bind {k : α → OptionT (StateM (σ × List Offer)) β} {l : α → OptionT (StateM σ) β}
    {T' : α → β → List Offer → Prop} (h : Records x y T) (hk : ∀ a, Records (k a) (l a) (T' a)) :
    Records (x >>= k) (y >>= l) fun b offers =>
      ∃ a first rest, offers = first ++ rest ∧ T a first ∧ T' a b rest := by
  intro s b s' hy log
  obtain ⟨a, t, hy, hl⟩ := run_bind_eq_some_iff.1 hy
  obtain ⟨first, hx, ht⟩ := h s a t hy log
  obtain ⟨rest, hk, ht'⟩ := hk a t b s' hl (log ++ first)
  refine ⟨first ++ rest, run_bind_eq_some_iff.2 ⟨a, (t, log ++ first), hx, ?_⟩,
    a, first, rest, rfl, ht, ht'⟩
  rw [hk, List.append_assoc]

/-- **The offers of a list of steps** are those of one after the other. -/
theorem mapM {γ : Type} {g : γ → OptionT (StateM (σ × List Offer)) α}
    {h : γ → OptionT (StateM σ) α} {T : γ → α → List Offer → Prop} {as : List γ}
    (hsteps : ∀ a ∈ as, Records (g a) (h a) (T a)) :
    Records (as.mapM g) (as.mapM h) fun bs offers =>
      ∃ parts : List (α × List Offer), bs = parts.map Prod.fst ∧
        offers = parts.flatMap Prod.snd ∧ List.Forall₂ (fun a p => T a p.1 p.2) as parts := by
  induction as with
  | nil =>
    rw [List.mapM_nil, List.mapM_nil]
    exact (pure []).imp fun bs offers ⟨hbs, hoffers⟩ => ⟨[], hbs, hoffers, .nil⟩
  | cons a rest ih =>
    rw [List.forall_mem_cons] at hsteps
    rw [List.mapM_cons, List.mapM_cons]
    refine (hsteps.1.bind fun b => (ih hsteps.2).bind fun bs => pure (b :: bs)).imp ?_
    rintro _ _ ⟨b, first, _, rfl, hfirst, _, later, _, rfl, ⟨parts, rfl, rfl, hparts⟩, rfl, rfl⟩
    exact ⟨(b, first) :: parts, rfl, by rw [List.append_nil, List.flatMap_cons],
      .cons hfirst hparts⟩

end Records

/-- The record of one offer. -/
theorem records_recorded (f : Node → Json → StateM σ (Option Json)) (node : Node) (v : Json) :
    Records (OptionT.lift (recorded f node v)) (OptionT.lift (f node v)) fun answer offers =>
      offers = [⟨node, v, answer⟩] ∧ ∃ t, ((f node v).run t).1 = answer := by
  intro s answer s' hy log
  have hrun : (f node v).run s = (answer, s') := by
    obtain ⟨hanswer, hstate⟩ := Prod.mk.inj hy
    exact Prod.ext (Option.some.inj hanswer) hstate
  refine ⟨[⟨node, v, answer⟩], ?_, rfl, s, congrArg Prod.fst hrun⟩
  show (some ((f node v).run s).1, ((f node v).run s).2,
    log ++ [⟨node, v, ((f node v).run s).1⟩]) = _
  rw [hrun]

/-! ## The offers of a visit -/

/-- **The offers of a visit** that has made a value into another one: one for each node of
the result, in their order; each node is, on its own level, what its offer has made of it;
the whole value is offered first, and otherwise the children of what their parents have
become; and the answers are the callback's. -/
structure OffersOf (f : Node → Json → StateM σ (Option Json)) (node : Node) (v out : Json)
    (offers : List Offer) : Prop where
  nodes : List.Forall₂ (fun o n => o.node = n.1 ∧ o.result.SameLevel n.2) offers (out.nodes node)
  origin : ∀ o ∈ offers, o.node = node ∧ o.value = v ∨ ∃ parent ∈ offers, ∃ segment,
    o.node = parent.node.child segment ∧ (segment, o.value) ∈ parent.result.children
  answer : ∀ o ∈ offers, ∃ t, ((f o.node o.value).run t).1 = o.answer

variable {f : Node → Json → StateM σ (Option Json)} {node : Node} {v : Json}

/-- The offers of the children, one after the other, are for their nodes. -/
theorem OffersOf.nodes_children {cs : List (String × Json)} {parts : List (Json × List Offer)}
    (h : List.Forall₂ (fun e p => OffersOf f (node.child e.1) e.2 p.1 p.2) cs parts) :
    List.Forall₂ (fun o n => o.node = n.1 ∧ o.result.SameLevel n.2) (parts.flatMap Prod.snd)
      (((cs.map Prod.fst).zip (parts.map Prod.fst)).flatMap
        fun e => e.2.nodes (node.child e.1)) := by
  induction h with
  | nil => exact .nil
  | cons hpart _ ih => exact List.rel_append hpart.nodes ih

/-- **The offer of a node comes before those of its children**, which are the children of
what it has become. -/
theorem OffersOf.of_children {answer : Option Json} {parts : List (Json × List Offer)}
    (hanswer : ∃ t, ((f node v).run t).1 = answer)
    (hparts : List.Forall₂ (fun e p => OffersOf f (node.child e.1) e.2 p.1 p.2)
      (answer.getD v).children parts) :
    OffersOf f node v ((answer.getD v).withChildren (parts.map Prod.fst))
      (⟨node, v, answer⟩ :: parts.flatMap Prod.snd) := by
  have hlength : (parts.map Prod.fst).length = (answer.getD v).children.length := by
    rw [List.length_map, hparts.length_eq]
  have hpart : ∀ o ∈ parts.flatMap Prod.snd, ∃ e ∈ (answer.getD v).children, ∃ p ∈ parts,
      o ∈ p.2 ∧ OffersOf f (node.child e.1) e.2 p.1 p.2 := by
    intro o ho
    obtain ⟨p, hp, ho⟩ := List.mem_flatMap.1 ho
    obtain ⟨e, he, hoffers⟩ := exists_left_of_mem hparts hp
    exact ⟨e, he, p, hp, ho, hoffers⟩
  constructor
  case nodes =>
    rw [nodes_eq, children_withChildren hlength]
    exact .cons ⟨rfl, sameLevel_withChildren hlength⟩ (OffersOf.nodes_children hparts)
  case origin =>
    refine List.forall_mem_cons.2 ⟨.inl ⟨rfl, rfl⟩, fun o ho => .inr ?_⟩
    obtain ⟨e, he, p, hp, ho, hoffers⟩ := hpart o ho
    rcases hoffers.origin o ho with ⟨hnode, hvalue⟩ | ⟨parent, hparent, segment, hnode, hchild⟩
    · exact ⟨_, List.mem_cons_self, e.1, hnode, hvalue ▸ he⟩
    · exact ⟨parent, List.mem_cons_of_mem _ (List.mem_flatMap.2 ⟨p, hp, hparent⟩), segment,
        hnode, hchild⟩
  case answer =>
    refine List.forall_mem_cons.2 ⟨hanswer, fun o ho => ?_⟩
    obtain ⟨_, -, p, -, ho, hoffers⟩ := hpart o ho
    exact hoffers.answer o ho

/-- **A visit that is recorded** is the same visit, and its record holds its offers. -/
theorem records_visit? (f : Node → Json → StateM σ (Option Json)) (bound : Nat) (node : Node)
    (v : Json) :
    Records (visit? (recorded f) bound node v) (visit? f bound node v) (OffersOf f node v) := by
  induction bound generalizing node v with
  | zero => exact fun s out s' h => absurd (Prod.mk.inj h).1.symm (Option.some_ne_none out)
  | succ bound ih =>
    rw [visit?_succ, visit?_succ]
    refine ((records_recorded f node v).bind fun answer =>
      (Records.mapM fun e _ => ih (node.child e.1) e.2).bind fun values =>
        Records.pure ((answer.getD v).withChildren values)).imp ?_
    rintro _ _ ⟨answer, _, _, rfl, ⟨rfl, hanswer⟩, _, _, _, rfl, ⟨parts, rfl, rfl, hparts⟩, rfl,
      rfl⟩
    rw [List.append_nil]
    exact OffersOf.of_children hanswer hparts

/-! ## Callbacks that answer nothing -/

theorem exists_run_mapM {α β : Type} {g : α → OptionT (StateM σ) β} {h : α → β} {as : List α}
    (hsteps : ∀ a ∈ as, ∀ s, ∃ s', (g a).run.run s = (some (h a), s')) (s : σ) :
    ∃ s', (as.mapM g).run.run s = (some (as.map h), s') := by
  induction as generalizing s with
  | nil => exact ⟨s, run_mapM_nil_eq_some_iff.2 ⟨rfl, rfl⟩⟩
  | cons a rest ih =>
    rw [List.forall_mem_cons] at hsteps
    obtain ⟨t, hfirst⟩ := hsteps.1 s
    obtain ⟨s', hrest⟩ := ih hsteps.2 t
    exact ⟨s', run_mapM_cons_eq_some_iff.2 ⟨h a, t, rest.map h, hfirst, hrest, rfl⟩⟩

theorem height_lt_of_mem_children {v : Json} {e : String × Json} (h : e ∈ v.children) :
    e.2.height < v.height := by
  cases v with
  | obj fields => exact Nat.lt_succ_of_le (height_le_of_mem_fields h)
  | arr items =>
    exact Nat.lt_succ_of_le
      (height_le_of_mem_items (map_snd_children_arr items ▸ List.mem_map_of_mem h))
  | _ => exact absurd h List.not_mem_nil

/-- **A callback that answers nothing** is visited to the end, and the value is given back. -/
theorem exists_visit?_of_silent (hf : ∀ node w s, ((f node w).run s).1 = none) {bound : Nat}
    (h : v.height < bound) (node : Node) (s : σ) :
    ∃ s', (visit? f bound node v).run.run s = (some v, s') := by
  induction bound generalizing v node s with
  | zero => exact absurd h (Nat.not_lt_zero _)
  | succ bound ih =>
    have hchildren : ∀ e ∈ v.children, ∀ s, ∃ s',
        (visit? f bound (node.child e.1) e.2).run.run s = (some e.2, s') := fun e he s =>
      ih (Nat.lt_of_lt_of_le (height_lt_of_mem_children he) (Nat.le_of_lt_succ h)) _ s
    obtain ⟨s', hvalues⟩ := exists_run_mapM hchildren ((f node v).run s).2
    refine ⟨s', ?_⟩
    rw [visit?_succ, run_bind_eq_some_iff]
    refine ⟨none, ((f node v).run s).2, ?_, run_bind_eq_some_iff.2 ⟨_, s', hvalues, ?_⟩⟩
    · exact congrArg (fun answer => (some answer, _)) (hf node v s)
    · exact run_pure_eq_some_iff.2 ⟨(withChildren_self v).symm, rfl⟩

/-! ## The result -/

/-- **What a visit offers.** A visit that comes to an end does so with a record as well, which
then holds one offer for each node of the result, each before those of its children and none
twice. On its own level, a node of the result is what its offer has made of it; the whole
value is offered at the root, and elsewhere the child of what the parent has become. A
callback that answers nothing gets the value back, whatever its height. -/
theorem visit?_offers (f : Node → Json → StateM σ (Option Json))
    (hf : ∀ node w s, w.WellFormed → ∀ r ∈ ((f node w).run s).1, r.WellFormed) {v : Json}
    (hv : v.WellFormed) (s : σ) :
    (∀ bound out s', (visit? f bound .root v).run.run s = (some out, s') →
      out.WellFormed ∧ ∃ offers,
        (visit? (recorded f) bound .root v).run.run (s, []) = (some out, (s', offers)) ∧
          offers.map Offer.node = (out.nodes .root).map Prod.fst ∧
          (offers.map Offer.node).Nodup ∧ OffersOf f .root v out offers) ∧
      ((∀ node w t, ((f node w).run t).1 = none) →
        (∀ bound out s', (visit? f bound .root v).run.run s = (some out, s') → out = v) ∧
          ∀ bound, v.height < bound → ∃ s', (visit? f bound .root v).run.run s = (some v, s')) := by
  refine ⟨fun bound out s' h => ?_, fun hsilent => ⟨fun bound out s' h => ?_, fun bound hbound =>
    exists_visit?_of_silent hsilent hbound .root s⟩⟩
  · obtain ⟨offers, hrun, hoffers⟩ := records_visit? f bound .root v s out s' h []
    have hout := hv.visit? hf h
    have hnodes : offers.map Offer.node = (out.nodes .root).map Prod.fst :=
      List.forall₂_eq_eq_eq.le _ _ <| List.forall₂_map_left_iff.2 <|
        List.forall₂_map_right_iff.2 (hoffers.nodes.imp fun _ _ h => h.1)
    exact ⟨hout, offers, hrun, hnodes, hnodes ▸ hout.nodup_nodes .root, hoffers⟩
  · -- with a bound that is large enough, both values come out
    obtain ⟨t, hback⟩ := exists_visit?_of_silent hsilent
      (Nat.lt_of_lt_of_le v.height.lt_succ_self (Nat.le_max_right bound _)) .root s
    have hmore := visit?_mono (Nat.le_max_left bound (v.height + 1)) h
    exact Option.some.inj (Prod.mk.inj (hmore.symm.trans hback)).1

/-- A callback that counts its calls and puts what stands under one name into a list. -/
def listMore (node : Node) (v : Json) : StateM Nat (Option Json) := do
  modify (· + 1)
  pure (if node.key? = some "more" then some (.obj [("list", .arr [v, .null])]) else none)

/-- A record with a name that is put into a list, and with one that is not. -/
def moreRecord : Record := [("id", .str "a"), ("more", .obj [("z", .bool true)])]

theorem visit?_offers_listMore :
    moreRecord.WellFormed ∧ (∃ offers,
      (visit? (recorded listMore) 5 .root (.obj moreRecord)).run.run (0, []) =
        (some (.obj [("id", .str "a"),
          ("more", .obj [("list", .arr [.obj [("z", .bool true)], .null])])]), (7, offers)) ∧
        offers.map (·.node.path) = [[], ["id"], ["more"], ["more", "list"], ["more", "list", "0"],
          ["more", "list", "0", "z"], ["more", "list", "1"]]) ∧
      ∃ n, (visit? (fun _ _ => do modify (· + 1); pure none) 3 .root (.obj moreRecord)).run.run 0 =
        (some (.obj moreRecord), n) := by
  have hlist : ∀ node w s, w.WellFormed → ∀ r ∈ ((listMore node w).run s).1, r.WellFormed := by
    intro node w s hw r hr
    have hanswer : ((listMore node w).run s).1 =
        if node.key? = some "more" then some (.obj [("list", .arr [w, .null])]) else none := rfl
    rw [hanswer] at hr
    split at hr
    · obtain rfl := Option.some.inj hr
      exact ⟨List.pairwise_singleton _ _, ⟨hw, trivial, trivial⟩, trivial⟩
    · exact absurd hr nofun
  have hrecord : moreRecord.WellFormed := by decide +kernel
  have hends : Id.run ((visit? listMore 5 .root (.obj moreRecord)).run.run 0) =
      (some (.obj [("id", .str "a"),
        ("more", .obj [("list", .arr [.obj [("z", .bool true)], .null])])]), 7) := by
    decide +kernel
  obtain ⟨-, offers, hrun, hnodes, -⟩ := (visit?_offers listMore hlist hrecord 0).1 5 _ 7 hends
  obtain ⟨-, hsilent⟩ := visit?_offers (fun _ _ => do modify (· + 1); pure none)
    (fun _ _ _ _ => nofun) hrecord 0
  refine ⟨hrecord, ⟨offers, hrun, ?_⟩, (hsilent fun _ _ _ => rfl).2 3 (by decide +kernel)⟩
  rw [show offers.map (·.node.path) = (offers.map Offer.node).map Node.path from
    List.map_map.symm, hnodes]
  decide +kernel

end Json

end UserDirectory
