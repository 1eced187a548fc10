import Mathlib.Data.List.Perm.Basic
import UserDirectory.Proofs.Record.Copies

/-!
# When writes may be exchanged

A write at a path and a write below it meet: the upper one, if it comes later, throws
away what the lower one wrote; if it comes first, the lower one changes what it wrote.
The order does not matter in one case only, namely that the upper value already holds
the lower one at the rest of the path (`WritesAgree`). Writes at paths apart never meet.

So for writes of which any two agree there is one result, whatever their order, and it
holds each value at its path; and where two of them do not agree, some order loses a
value. For the copies of an extraction this is `Record.extract_perm_iff`.
-/

namespace UserDirectory

/-- **The writes agree**: if the path of one begins that of the other, then its value
holds the other value at the rest of the path. -/
def WritesAgree (a b : List String × Json) : Prop :=
  (a.1 <+: b.1 → a.2.within? (b.1.drop a.1.length) = some b.2) ∧
    (b.1 <+: a.1 → b.2.within? (a.1.drop b.1.length) = some a.2)

instance (a b : List String × Json) : Decidable (WritesAgree a b) :=
  inferInstanceAs (Decidable (_ ∧ _))

theorem WritesAgree.refl (a : List String × Json) : WritesAgree a a := by
  have h : a.2.within? (a.1.drop a.1.length) = some a.2 := by
    rw [List.drop_length]
    rfl
  exact ⟨fun _ => h, fun _ => h⟩

theorem PathsApart.writesAgree {a b : List String × Json} (h : PathsApart a.1 b.1) :
    WritesAgree a b :=
  ⟨fun hp => absurd hp h.1, fun hp => absurd hp h.2⟩

namespace Record

/-! ## Two writes -/

/-- **What a write leaves under the first segment** of its path. -/
def written (existing : Option Json) (v : Json) : List String → Json
  | [] => v
  | segment :: rest => .obj (setAt (Json.fieldsOrNone existing) (segment :: rest) v)

theorem setAt_cons_eq_insert (r : Record) (segment : String) (rest : List String) (v : Json) :
    setAt r (segment :: rest) v =
      Table.insert r segment (written (Table.get? r segment) v rest) := by
  cases rest <;> rfl

/-- **What is written is found through objects.** -/
theorem within?_setAt_self (r : Record) {path : List String} (h : path ≠ []) (v : Json) :
    (Json.obj (setAt r path v)).within? path = some v := by
  induction path generalizing r with
  | nil => exact absurd rfl h
  | cons segment rest ih =>
    rw [setAt_cons_eq_insert, Json.within?_obj_cons, Table.get?_insert_self, Option.bind_some]
    cases rest with
    | nil => rfl
    | cons next rest => exact ih _ (List.cons_ne_nil next rest)

/-- **Writing what is found through objects changes nothing.** -/
theorem setAt_of_within? {r : Record} (hr : r.WellFormed) {path : List String} {v : Json}
    (h : (Json.obj r).within? path = some v) : setAt r path v = r := by
  induction path generalizing r with
  | nil => rfl
  | cons segment rest ih =>
    rw [Json.within?_obj_cons] at h
    obtain ⟨child, hchild, hrest⟩ := Option.bind_eq_some_iff.1 h
    rw [setAt_cons_eq_insert, hchild]
    refine hr.ordered.insert_self ?_
    cases rest with
    | nil => rw [hchild, written, ← hrest, Json.within?]
    | cons next rest =>
      -- the rest of the path goes on in an object
      obtain ⟨fields, rfl⟩ := Json.exists_of_within? (List.cons_ne_nil _ _) hrest
      rw [hchild, written, Json.fieldsOrNone, ih (hr.of_get? hchild) hrest]

/-- **A write throws away what was written below it.** -/
theorem setAt_setAt_append (r : Record) {p : List String} (h : p ≠ []) (q : List String)
    (v w : Json) : setAt (setAt r (p ++ q) w) p v = setAt r p v := by
  induction p generalizing r with
  | nil => exact absurd rfl h
  | cons segment rest ih =>
    rw [List.cons_append, setAt_cons_eq_insert, setAt_cons_eq_insert, setAt_cons_eq_insert,
      Table.get?_insert_self, Table.insert_insert]
    cases rest with
    | nil => rfl
    | cons next rest =>
      show Table.insert r segment
        (.obj (setAt (setAt _ (next :: rest ++ q) w) (next :: rest) v)) = _
      rw [ih _ (List.cons_ne_nil next rest)]
      rfl

/-- **Writes at paths apart** may be exchanged. -/
theorem setAt_comm_of_apart {r : Record} (hr : r.WellFormed) {p q : List String}
    (h : PathsApart p q) (v w : Json) :
    setAt (setAt r p v) q w = setAt (setAt r q w) p v := by
  induction p generalizing r q with
  | nil => exact absurd rfl h.ne_nil
  | cons first p ih =>
    cases q with
    | nil => exact absurd rfl h.symm.ne_nil
    | cons second q =>
      by_cases heq : first = second
      · subst heq
        have hapart := h.of_cons
        -- both write in the object below the common segment
        rw [setAt_cons r first hapart.ne_nil, setAt_cons r first hapart.symm.ne_nil,
          setAt_cons _ first hapart.symm.ne_nil, setAt_cons _ first hapart.ne_nil,
          Table.get?_insert_self, Table.get?_insert_self, Table.insert_insert,
          Table.insert_insert]
        have hinner : WellFormed (Json.fieldsOrNone (Table.get? r first)) :=
          WellFormed.fieldsOrNone fun _ hw => hr.of_get? hw
        exact congrArg (fun inner => Table.insert r first (.obj inner)) (ih hinner hapart)
      · rw [setAt_cons_eq_insert r first, setAt_cons_eq_insert r second,
          setAt_cons_eq_insert _ second, setAt_cons_eq_insert _ first,
          Table.get?_insert_of_ne _ _ (Ne.symm heq), Table.get?_insert_of_ne _ _ heq]
        exact hr.ordered.insert_comm heq _ _

/-- A write and one below it that its value agrees with come to the upper one alone,
in either order. -/
theorem setAt_setAt_of_within? {r : Record} (hr : r.WellFormed) {p q : List String} (hne : p ≠ [])
    {v w : Json} (hv : v.WellFormed) (h : v.within? q = some w) :
    setAt (setAt r p v) (p ++ q) w = setAt r p v ∧
      setAt (setAt r (p ++ q) w) p v = setAt r p v := by
  refine ⟨setAt_of_within? (hr.setAt p hv) ?_, setAt_setAt_append r hne q v w⟩
  rw [Json.within?_append, within?_setAt_self r hne v, Option.bind_some, h]

/-- **Writes that agree may be exchanged.** -/
theorem setAt_comm {r : Record} (hr : r.WellFormed) {a b : List String × Json} (ha : a.1 ≠ [])
    (hb : b.1 ≠ []) (hav : a.2.WellFormed) (hbv : b.2.WellFormed) (h : WritesAgree a b) :
    setAt (setAt r a.1 a.2) b.1 b.2 = setAt (setAt r b.1 b.2) a.1 a.2 := by
  obtain ⟨p, v⟩ := a
  obtain ⟨q, w⟩ := b
  by_cases hp : p <+: q
  · obtain ⟨rest, rfl⟩ := hp
    have hwithin := h.1 (List.prefix_append p rest)
    rw [List.drop_left] at hwithin
    obtain ⟨hfirst, hlast⟩ := setAt_setAt_of_within? hr ha hav hwithin
    exact hfirst.trans hlast.symm
  · by_cases hq : q <+: p
    · obtain ⟨rest, rfl⟩ := hq
      have hwithin := h.2 (List.prefix_append q rest)
      rw [List.drop_left] at hwithin
      obtain ⟨hfirst, hlast⟩ := setAt_setAt_of_within? hr hb hbv hwithin
      exact hlast.trans hfirst.symm
    · exact setAt_comm_of_apart hr ⟨hp, hq⟩ v w

/-! ## Many writes -/

/-- **Writes of which any two agree** come to the same in every order. -/
theorem setAll_perm {ws ws' : List (List String × Json)} (hperm : ws.Perm ws')
    (hne : ∀ w ∈ ws, w.1 ≠ []) (hv : ∀ w ∈ ws, w.2.WellFormed)
    (h : ∀ a ∈ ws, ∀ b ∈ ws, WritesAgree a b) {r : Record} (hr : r.WellFormed) :
    setAll r ws = setAll r ws' := by
  induction hperm generalizing r with
  | nil => rfl
  | cons w _ ih =>
    rw [List.forall_mem_cons] at hne hv
    exact ih hne.2 hv.2 (fun a ha b hb =>
      h a (List.mem_cons_of_mem w ha) b (List.mem_cons_of_mem w hb)) (hr.setAt w.1 hv.1)
  | swap a b rest =>
    have ha : a ∈ b :: a :: rest := List.mem_cons_of_mem b List.mem_cons_self
    have hb : b ∈ b :: a :: rest := List.mem_cons_self
    exact congrArg (setAll · rest)
      (setAt_comm hr (hne b hb) (hne a ha) (hv b hb) (hv a ha) (h b hb a ha))
  | trans hfirst _ ih ih' =>
    have hmem : ∀ {w}, w ∈ _ → w ∈ _ := fun hw => hfirst.mem_iff.2 hw
    rw [ih hne hv h hr]
    exact ih' (fun w hw => hne w (hmem hw)) (fun w hw => hv w (hmem hw))
      (fun a ha b hb => h a (hmem ha) b (hmem hb)) hr

/-! ## Extractions -/

variable {source : Record} {pairs pairs' : List (String × String)}

/-- **Any two copies agree** that the pairs make. -/
def CopiesAgree (source : Record) (pairs : List (String × String)) : Prop :=
  ∀ a ∈ writes source pairs, ∀ b ∈ writes source pairs, WritesAgree a b

instance (source : Record) (pairs : List (String × String)) :
    Decidable (CopiesAgree source pairs) :=
  inferInstanceAs (Decidable (∀ a ∈ _, ∀ b ∈ _, _))

/-- Copies to targets apart agree. -/
theorem copiesAgree_of_targetsApart (h : TargetsApart pairs) : CopiesAgree source pairs := by
  have hsymm : Std.Symm fun a b : List String × Json => PathsApart a.1 b.1 :=
    ⟨fun _ _ => PathsApart.symm⟩
  intro a ha b hb
  by_cases heq : a = b
  · rw [heq]
    exact .refl b
  · exact PathsApart.writesAgree (List.Pairwise.forall (pairwise_writes h) ha hb heq)

theorem ne_nil_of_mem_writes {w : List String × Json} (h : w ∈ writes source pairs) : w.1 ≠ [] := by
  obtain ⟨pair, -, -, hpath, -⟩ := mem_writes_iff.1 h
  rw [hpath]
  exact pathSegments_ne_nil pair.2

theorem WellFormed.of_mem_writes (hs : source.WellFormed) {w : List String × Json}
    (h : w ∈ writes source pairs) : w.2.WellFormed := by
  obtain ⟨_, -, -, -, hv⟩ := mem_writes_iff.1 h
  exact Json.WellFormed.at? hs hv

theorem perm_writes (h : pairs.Perm pairs') : (writes source pairs).Perm (writes source pairs') :=
  (h.filter _).filterMap _

theorem copyPairs_perm (hs : source.WellFormed) (hagree : CopiesAgree source pairs)
    (h : pairs.Perm pairs') : copyPairs source pairs = copyPairs source pairs' := by
  rw [copyPairs_eq_setAll, copyPairs_eq_setAll]
  exact setAll_perm (perm_writes h) (fun _ => ne_nil_of_mem_writes)
    (fun _ => hs.of_mem_writes) hagree .nil

/-- The last of the copies is found at its target. -/
theorem within?_copyPairs_concat {pair : String × String} (hlive : isLivePair pair = true)
    {v : Json} (hv : (Json.obj source).at? pair.1 = some v) (before : List (String × String)) :
    (Json.obj (copyPairs source (before ++ [pair]))).within? (pathSegments pair.2) = some v := by
  have hlast : writes source (before ++ [pair]) =
      writes source before ++ [(pathSegments pair.2, v)] := by
    have hused : usedPairs source [pair] = [pair] := by
      rw [usedPairs, List.filter_singleton, hlive, hv]
      rfl
    rw [writes, usedPairs, List.filter_append, ← usedPairs, ← usedPairs, hused,
      List.filterMap_append, ← writes, List.filterMap_cons, hv]
    rfl
  rw [copyPairs_eq_setAll, hlast, setAll_append]
  exact within?_setAt_self _ (pathSegments_ne_nil pair.2) v

/-- **The copies come out the same in every order** exactly if any two of them agree. -/
theorem copyPairs_perm_iff (hs : source.WellFormed) :
    (∀ pairs', pairs'.Perm pairs → copyPairs source pairs' = copyPairs source pairs) ↔
      CopiesAgree source pairs := by
  refine ⟨fun h => ?_, fun h pairs' hperm => (copyPairs_perm hs h hperm.symm).symm⟩
  -- each copy is found in the result, as it may be the last one
  have hfound : ∀ w ∈ writes source pairs,
      (Json.obj (copyPairs source pairs)).within? w.1 = some w.2 := by
    intro w hw
    obtain ⟨pair, hmem, hlive, hpath, hv⟩ := mem_writes_iff.1 hw
    obtain ⟨before, after, rfl⟩ := List.append_of_mem hmem
    have hperm : (before ++ after ++ [pair]).Perm (before ++ pair :: after) := by
      rw [List.append_assoc]
      exact (List.perm_append_singleton pair after).append_left before
    rw [← h _ hperm, hpath]
    exact within?_copyPairs_concat hlive hv (before ++ after)
  -- and a copy below another one is found in the value of the upper one
  have hbelow : ∀ a ∈ writes source pairs, ∀ b ∈ writes source pairs,
      a.1 <+: b.1 → a.2.within? (b.1.drop a.1.length) = some b.2 := by
    rintro ⟨p, v⟩ ha ⟨q, w⟩ hb ⟨rest, rfl⟩
    have hb := hfound _ hb
    rw [Json.within?_append, hfound _ ha, Option.bind_some] at hb
    rwa [List.drop_left]
  exact fun a ha b hb => ⟨hbelow a ha b hb, hbelow b hb a ha⟩

/-- Copies that agree are all found at their targets. -/
theorem CopiesAgree.walk?_copyPairs (hs : source.WellFormed) (h : CopiesAgree source pairs)
    {pair : String × String} (hmem : pair ∈ pairs) (hlive : isLivePair pair = true) {v : Json}
    (hv : (Json.obj source).at? pair.1 = some v) :
    (Json.obj (copyPairs source pairs)).walk? (pathSegments pair.2) = some v := by
  obtain ⟨before, after, rfl⟩ := List.append_of_mem hmem
  have hperm : (before ++ pair :: after).Perm (before ++ after ++ [pair]) := by
    rw [List.append_assoc]
    exact ((List.perm_append_singleton pair after).append_left before).symm
  rw [copyPairs_perm hs h hperm]
  exact Json.walk?_of_within? (within?_copyPairs_concat hlive hv (before ++ after))

end Record

end UserDirectory
