import Mathlib.Data.List.Forall2
import UserDirectory.Proofs.Json.Nodes
import UserDirectory.Proofs.Json.Visits
import UserDirectory.Proofs.Results

/-!
# A visit, step by step

A visit may keep a state and may fail to come to an end, so it is spoken of by its runs: from
a state it comes to a value and a state, or to none. A run of a visit is the callback's
answer and then a run for each child of what the node has become (`Json.visit?_succ`),
whether these are fields or items.

The bound is there to make an end of visits that have none. It has no other effect: with a
greater bound, a visit that has come to an end comes to the same (`Json.visit?_mono`), and
so does a rewriting (`Json.mapEntries?_mono`).
-/

namespace UserDirectory

/-! ## Runs that come to a value -/

section Runs

variable {σ α β : Type}

/-- **Two steps** come to a value through a value of the first. -/
theorem run_bind_eq_some_iff {x : OptionT (StateM σ) α} {k : α → OptionT (StateM σ) β} {s s' : σ}
    {b : β} : (x >>= k).run.run s = (some b, s') ↔
      ∃ a t, x.run.run s = (some a, t) ∧ (k a).run.run t = (some b, s') := by
  rw [OptionT.run_bind, Option.elimM, StateT.run_bind]
  rcases hx : x.run.run s with ⟨_ | a, t⟩
  · refine iff_of_false (fun h => ?_) fun ⟨a, t', h, _⟩ => ?_
    · exact Option.some_ne_none b (Prod.mk.inj h).1.symm
    · exact Option.some_ne_none a (Prod.mk.inj h).1.symm
  · refine ⟨fun h => ⟨a, t, rfl, h⟩, fun ⟨a', t', h, hk⟩ => ?_⟩
    obtain ⟨ha, rfl⟩ := Prod.mk.inj h
    obtain rfl := Option.some.inj ha
    exact hk

theorem run_pure_eq_some_iff {a b : α} {s s' : σ} :
    (pure a : OptionT (StateM σ) α).run.run s = (some b, s') ↔ b = a ∧ s' = s := by
  constructor
  · intro h
    obtain ⟨ha, rfl⟩ := Prod.mk.inj h
    exact ⟨(Option.some.inj ha).symm, rfl⟩
  · rintro ⟨rfl, rfl⟩
    rfl

/-- **A list of steps** comes to a value through a value of the first. -/
theorem run_mapM_cons_eq_some_iff {g : α → OptionT (StateM σ) β} {a : α} {as : List α} {s s' : σ}
    {bs : List β} : ((a :: as).mapM g).run.run s = (some bs, s') ↔
      ∃ b t bs', (g a).run.run s = (some b, t) ∧ (as.mapM g).run.run t = (some bs', s') ∧
        bs = b :: bs' := by
  rw [List.mapM_cons, run_bind_eq_some_iff]
  refine exists_congr fun b => exists_congr fun t => ?_
  rw [run_bind_eq_some_iff]
  constructor
  · rintro ⟨hb, bs', t', hbs, hpure⟩
    obtain ⟨rfl, rfl⟩ := run_pure_eq_some_iff.1 hpure
    exact ⟨bs', hb, hbs, rfl⟩
  · rintro ⟨bs', hb, hbs, rfl⟩
    exact ⟨hb, bs', s', hbs, rfl⟩

theorem run_mapM_nil_eq_some_iff {g : α → OptionT (StateM σ) β} {s s' : σ} {bs : List β} :
    (([] : List α).mapM g).run.run s = (some bs, s') ↔ bs = [] ∧ s' = s := by
  rw [List.mapM_nil]
  exact run_pure_eq_some_iff

/-- A list of steps with a value that is put beside another one. -/
theorem mapM_bind_pair {γ : Type} {m : Type → Type} [Monad m] [LawfulMonad m] (g : α → m β)
    (h : α → γ) (as : List α) :
    (as.mapM fun a => g a >>= fun b => pure (h a, b)) =
      as.mapM g >>= fun bs => pure ((as.map h).zip bs) := by
  induction as with
  | nil =>
    rw [List.mapM_nil, List.mapM_nil, pure_bind]
    rfl
  | cons a rest ih =>
    rw [List.mapM_cons, List.mapM_cons, ih]
    simp only [bind_assoc, pure_bind, List.map_cons, List.zip_cons_cons]

end Runs

namespace Json

/-! ## A visit as a list of visits -/

/-- The value with other children under the same names. -/
def withChildren : Json → List Json → Json
  | .obj fields, values => .obj ((Table.keys fields).zip values)
  | .arr _, values => .arr values
  | v, _ => v

theorem children_withChildren {v : Json} {values : List Json}
    (h : values.length = v.children.length) :
    (v.withChildren values).children = (v.children.map Prod.fst).zip values := by
  cases v with
  | obj fields => rfl
  | arr items =>
    rw [children, List.length_map, List.length_zipIdx] at h
    refine List.zip_of_prod ?_ (map_snd_children_arr values)
    rw [withChildren, map_fst_children_arr, map_fst_children_arr, h]
  | _ => rfl

theorem withChildren_self (v : Json) : v.withChildren (v.children.map Prod.snd) = v := by
  cases v with
  | obj fields => exact congrArg Json.obj (List.zip_of_prod rfl rfl).symm
  | arr items => exact congrArg Json.arr (map_snd_children_arr items)
  | _ => rfl

variable {σ : Type}

/-- **A visit of a node** is the callback's answer and then a visit of each child of what
the node has become. -/
theorem visit?_succ (f : Node → Json → StateM σ (Option Json)) (bound : Nat) (node : Node)
    (v : Json) : visit? f (bound + 1) node v =
      OptionT.lift (f node v) >>= fun answer =>
        (answer.getD v).children.mapM (fun e => visit? f bound (node.child e.1) e.2) >>=
          fun values => pure ((answer.getD v).withChildren values) := by
  rw [visit?]
  refine congrArg _ (funext fun answer => ?_)
  cases answer.getD v with
  | obj fields =>
    show (fields.mapM fun e => visit? f bound (node.child e.1) e.2 >>= fun child =>
      pure (e.1, child)) >>= _ = _
    rw [mapM_bind_pair, bind_assoc]
    simp only [pure_bind]
    rfl
  | arr items =>
    rw [children, List.mapM_map]
    rfl
  | _ =>
    show _ = ([] : List (String × Json)).mapM _ >>= _
    rw [List.mapM_nil, pure_bind]
    rfl

/-! ## Levels of a tree -/

/-- **Of the same kind on its own level**: the same value without children, or an object
with the same keys, or an array of the same length. -/
def SameLevel : Json → Json → Prop
  | .obj a, .obj b => Table.keys a = Table.keys b
  | .arr a, .arr b => a.length = b.length
  | v, w => v = w

theorem sameLevel_withChildren {v : Json} {values : List Json}
    (h : values.length = v.children.length) : v.SameLevel (v.withChildren values) := by
  cases v with
  | obj fields =>
    have hkeys : (Table.keys fields).length ≤ values.length := by
      rw [h, Table.keys, List.length_map]
      exact Nat.le_refl _
    exact (List.map_fst_zip hkeys).symm
  | arr items =>
    rw [children, List.length_map, List.length_zipIdx] at h
    exact h.symm
  | _ => rfl

theorem WellFormed.withChildren {v : Json} {values : List Json} (h : v.WellFormed)
    (hlength : values.length = v.children.length) (hvalues : ∀ w ∈ values, w.WellFormed) :
    (v.withChildren values).WellFormed := by
  have hchildren : ∀ e ∈ (v.children.map Prod.fst).zip values, e.2.WellFormed :=
    fun e he => hvalues e.2 (List.of_mem_zip he).2
  cases v with
  | obj fields =>
    refine ⟨?_, wellFormedFields_iff.2 hchildren⟩
    have hkeys : Table.keys fields = ((Table.keys fields).zip values).map Prod.fst :=
      sameLevel_withChildren (v := .obj fields) hlength
    have hordered : (Table.keys fields).Pairwise (· < ·) := List.pairwise_map.2 h.1
    exact List.pairwise_map.1 (hkeys ▸ hordered)
  | arr items => exact wellFormedItems_iff.2 hvalues
  | _ => exact h

/-- The values of a list of steps, one by one. -/
theorem forall₂_of_run_mapM {α β : Type} {g : α → OptionT (StateM σ) β} {as : List α}
    {bs : List β} {s s' : σ} (h : (as.mapM g).run.run s = (some bs, s')) :
    List.Forall₂ (fun a b => ∃ t t', (g a).run.run t = (some b, t')) as bs := by
  induction as generalizing s bs with
  | nil =>
    obtain ⟨rfl, -⟩ := run_mapM_nil_eq_some_iff.1 h
    exact .nil
  | cons a rest ih =>
    obtain ⟨b, t, bs, hb, hbs, rfl⟩ := run_mapM_cons_eq_some_iff.1 h
    exact .cons ⟨s, t, hb⟩ (ih hbs)

/-- **A visit keeps values well formed** if the callback answers with such values. -/
theorem WellFormed.visit? {f : Node → Json → StateM σ (Option Json)}
    (hf : ∀ node w s, w.WellFormed → ∀ r ∈ ((f node w).run s).1, r.WellFormed) {bound : Nat}
    {node : Node} {v out : Json} (hv : v.WellFormed) {s s' : σ}
    (h : (visit? f bound node v).run.run s = (some out, s')) : out.WellFormed := by
  induction bound generalizing node v out s s' with
  | zero => exact absurd (Prod.mk.inj h).1.symm (Option.some_ne_none out)
  | succ bound ih =>
    rw [visit?_succ] at h
    obtain ⟨answer, t, hanswer, h⟩ := run_bind_eq_some_iff.1 h
    obtain ⟨values, t', hvalues, hpure⟩ := run_bind_eq_some_iff.1 h
    obtain ⟨rfl, -⟩ := run_pure_eq_some_iff.1 hpure
    have hresult : (answer.getD v).WellFormed := by
      cases answer with
      | none => exact hv
      | some w => exact hf node v s hv w (Option.some.inj (Prod.mk.inj hanswer).1)
    have hchildren := forall₂_of_run_mapM hvalues
    refine hresult.withChildren hchildren.length_eq.symm fun w hw => ?_
    obtain ⟨e, he, _, _, hrun⟩ := exists_left_of_mem hchildren hw
    exact ih (hresult.of_mem_children he) hrun

/-! ## The bound -/

/-- A list of steps comes to the same by other steps that come to the same. -/
theorem run_mapM_eq_some_of_forall {α β : Type} {g h : α → OptionT (StateM σ) β} {as : List α}
    (hsteps : ∀ a ∈ as, ∀ s b s', (g a).run.run s = (some b, s') → (h a).run.run s = (some b, s'))
    {s s' : σ} {bs : List β} (hrun : (as.mapM g).run.run s = (some bs, s')) :
    (as.mapM h).run.run s = (some bs, s') := by
  induction as generalizing s bs with
  | nil => rwa [run_mapM_nil_eq_some_iff] at hrun ⊢
  | cons a rest ih =>
    rw [List.forall_mem_cons] at hsteps
    obtain ⟨b, t, bs, hb, hbs, rfl⟩ := run_mapM_cons_eq_some_iff.1 hrun
    exact run_mapM_cons_eq_some_iff.2 ⟨b, t, bs, hsteps.1 s b t hb, ih hsteps.2 hbs, rfl⟩

/-- **A visit that has come to an end** does not depend on the bound. -/
theorem visit?_mono {f : Node → Json → StateM σ (Option Json)} {bound bound' : Nat}
    (hle : bound ≤ bound') {node : Node} {v out : Json} {s s' : σ}
    (h : (visit? f bound node v).run.run s = (some out, s')) :
    (visit? f bound' node v).run.run s = (some out, s') := by
  induction bound generalizing bound' node v out s s' with
  | zero => exact absurd (Prod.mk.inj h).1.symm (Option.some_ne_none out)
  | succ bound ih =>
    obtain ⟨bound', rfl⟩ := Nat.exists_eq_add_one.2 (Nat.lt_of_lt_of_le bound.succ_pos hle)
    rw [visit?_succ, run_bind_eq_some_iff] at h ⊢
    obtain ⟨answer, t, hanswer, h⟩ := h
    obtain ⟨values, t', hvalues, hpure⟩ := run_bind_eq_some_iff.1 h
    refine ⟨answer, t, hanswer, run_bind_eq_some_iff.2 ⟨values, t', ?_, hpure⟩⟩
    exact run_mapM_eq_some_of_forall
      (fun e _ s b s' hb => ih (Nat.le_of_succ_le_succ hle) hb) hvalues

theorem mapM_eq_some_of_forall {α β : Type} {g h : α → Option β} {as : List α}
    (hsteps : ∀ a ∈ as, ∀ b, g a = some b → h a = some b) {bs : List β}
    (hvalues : as.mapM g = some bs) : as.mapM h = some bs := by
  induction as generalizing bs with
  | nil => rwa [List.mapM_nil] at hvalues ⊢
  | cons a rest ih =>
    rw [List.forall_mem_cons] at hsteps
    rw [List.mapM_cons] at hvalues ⊢
    obtain ⟨b, hb, hvalues⟩ := Option.bind_eq_some_iff.1 hvalues
    obtain ⟨bs, hbs, hpure⟩ := Option.bind_eq_some_iff.1 hvalues
    exact Option.bind_eq_some_iff.2
      ⟨b, hsteps.1 b hb, Option.bind_eq_some_iff.2 ⟨bs, ih hsteps.2 hbs, hpure⟩⟩

/-- **A rewriting that has come to an end** does not depend on the bound. -/
theorem mapEntries?_mono {rename : String → Json → String} {replace : String → Json → Json}
    {bound bound' : Nat} (hle : bound ≤ bound') {v out : Json}
    (h : mapEntries? rename replace bound v = some out) :
    mapEntries? rename replace bound' v = some out := by
  induction bound generalizing bound' v out with
  | zero => exact absurd h.symm (Option.some_ne_none out)
  | succ bound ih =>
    obtain ⟨bound', rfl⟩ := Nat.exists_eq_add_one.2 (Nat.lt_of_lt_of_le bound.succ_pos hle)
    have hbelow : ∀ v out, mapEntries? rename replace bound v = some out →
        mapEntries? rename replace bound' v = some out :=
      fun _ _ => ih (Nat.le_of_succ_le_succ hle)
    cases v with
    | obj fields =>
      rw [mapEntries?] at h ⊢
      obtain ⟨outs, houts, hpure⟩ := Option.bind_eq_some_iff.1 h
      refine Option.bind_eq_some_iff.2
        ⟨outs, mapM_eq_some_of_forall (fun e _ f hf => ?_) houts, hpure⟩
      obtain ⟨child, hchild, hpure⟩ := Option.bind_eq_some_iff.1 hf
      exact Option.bind_eq_some_iff.2 ⟨child, hbelow _ child hchild, hpure⟩
    | arr items =>
      rw [mapEntries?] at h ⊢
      obtain ⟨outs, houts, hpure⟩ := Option.bind_eq_some_iff.1 h
      exact Option.bind_eq_some_iff.2
        ⟨outs, mapM_eq_some_of_forall (fun w _ out => hbelow w out) houts, hpure⟩
    | _ => exact h

end Json

end UserDirectory
