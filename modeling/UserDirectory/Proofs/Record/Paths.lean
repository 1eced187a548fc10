import Mathlib.Data.List.Infix
import UserDirectory.Proofs.Table
import UserDirectory.Record.Path

/-!
# Writing and reading at paths

What is written at a path is read there again, whatever the record held before:
writing makes its own way. At another path it changes nothing, provided that
neither path is the beginning of the other (`PathsApart`) and that nothing but
objects stands where both run together (`Record.SharesObjects`); an array there
could be read by index, and writing replaces it.

A whole way of objects to the other path (`Record.Leads`) is more than that, and it
survives further writing at paths apart, so any number of writes at paths apart from
each other can be read back (`Record.walk?_setAll`).
-/

namespace UserDirectory

/-! ## Segments -/

theorem splitAtAll_ne_nil {α : Type} (p : α → Bool) (cs : List α) : splitAtAll p cs ≠ [] := by
  induction cs with
  | nil => exact List.cons_ne_nil _ _
  | cons c rest ih =>
    rw [splitAtAll]
    split
    · exact List.cons_ne_nil _ _
    · split <;> exact List.cons_ne_nil _ _

/-- The pieces between separators hold none. -/
theorem not_of_mem_splitAtAll {α : Type} {p : α → Bool} {cs piece : List α}
    (h : piece ∈ splitAtAll p cs) : ∀ c ∈ piece, p c = false := by
  induction cs generalizing piece with
  | nil =>
    obtain rfl := List.mem_singleton.1 h
    exact nofun
  | cons c rest ih =>
    rw [splitAtAll] at h
    split at h
    · rcases List.mem_cons.1 h with rfl | h
      · exact nofun
      · exact ih h
    · next hc =>
      have hc : p c = false := Bool.not_eq_true _ ▸ hc
      split at h
      · obtain rfl := List.mem_singleton.1 h
        simpa using hc
      · next first pieces hsplit =>
        rw [hsplit] at ih
        rcases List.mem_cons.1 h with rfl | h
        · exact List.forall_mem_cons.2 ⟨hc, ih List.mem_cons_self⟩
        · exact ih (List.mem_cons_of_mem _ h)

/-- Without a separator there is one piece. -/
theorem splitAtAll_of_forall {α : Type} {p : α → Bool} {cs : List α}
    (h : ∀ c ∈ cs, p c = false) : splitAtAll p cs = [cs] := by
  induction cs with
  | nil => rfl
  | cons c rest ih =>
    rw [List.forall_mem_cons] at h
    rw [splitAtAll, if_neg (by simp [h.1]), ih h.2]

/-- A single piece is all that there was. -/
theorem eq_of_splitAtAll_eq_singleton {α : Type} {p : α → Bool} {cs piece : List α}
    (h : splitAtAll p cs = [piece]) : cs = piece := by
  induction cs generalizing piece with
  | nil => exact List.singleton_inj.1 h
  | cons c rest ih =>
    rw [splitAtAll] at h
    split at h
    · exact absurd (List.cons.inj h).2 (splitAtAll_ne_nil p rest)
    · split at h
      · next hsplit => exact absurd hsplit (splitAtAll_ne_nil p rest)
      · next first pieces hsplit =>
        obtain ⟨hpiece, rfl⟩ := List.cons.inj h
        rw [ih hsplit, hpiece]

theorem pathSegments_ne_nil (path : String) : pathSegments path ≠ [] :=
  fun h => splitAtAll_ne_nil _ _ (List.map_eq_nil_iff.1 h)

/-- **No segment holds a dot.** -/
theorem dot_not_mem_of_mem_pathSegments {path segment : String} (h : segment ∈ pathSegments path) :
    '.' ∉ segment.toList := by
  obtain ⟨piece, hpiece, rfl⟩ := List.mem_map.1 h
  intro hdot
  rw [String.toList_ofList] at hdot
  simpa using not_of_mem_splitAtAll hpiece '.' hdot

/-- A path without a dot is its own segment. -/
theorem pathSegments_of_undotted {path : String} (h : '.' ∉ path.toList) :
    pathSegments path = [path] := by
  have hsplit : splitAtAll (· == '.') path.toList = [path.toList] :=
    splitAtAll_of_forall fun c hc => by
      rw [beq_eq_false_iff_ne]
      rintro rfl
      exact h hc
  rw [pathSegments, splitAtChar, hsplit, List.map_singleton, String.ofList_toList]

/-- **A path of one segment is this segment.** -/
theorem eq_of_pathSegments_eq_singleton {path segment : String} (h : pathSegments path = [segment]) :
    path = segment := by
  obtain ⟨piece, hsplit, rfl⟩ := List.map_eq_singleton_iff.1 h
  rw [← eq_of_splitAtAll_eq_singleton hsplit, String.ofList_toList]

/-! ## Walking -/

theorem Json.walk?_obj_cons (r : Record) (segment : String) (rest : List String) :
    (Json.obj r).walk? (segment :: rest) = (Table.get? r segment).bind (·.walk? rest) := rfl

theorem Json.walk?_obj_singleton (r : Record) (segment : String) :
    (Json.obj r).walk? [segment] = Table.get? r segment := by
  rw [walk?_obj_cons]
  cases Table.get? r segment <;> rfl

/-- Nothing is found in an empty record. -/
theorem Json.walk?_obj_nil {path : List String} (h : path ≠ []) :
    (Json.obj []).walk? path = none := by
  cases path with
  | nil => exact absurd rfl h
  | cons segment rest => rfl

/-- **Reading tries the whole path first**, then its segments. -/
theorem Json.at?_eq_or {path : String} (h : path ≠ "") (r : Record) :
    (Json.obj r).at? path = (Table.get? r path).or ((Json.obj r).walk? (pathSegments path)) := by
  have hfield : (Json.obj r).field? path = Table.get? r path := rfl
  unfold at?
  rw [if_neg (by simpa using h), hfield]
  cases Table.get? r path <;> rfl

/-- **Reading a path is walking its segments**, unless the path is dotted and the
name of a field. -/
theorem Json.at?_eq_walk? {r : Record} {path : String} (hne : path ≠ "")
    (h : '.' ∈ path.toList → Table.get? r path = none) :
    (Json.obj r).at? path = (Json.obj r).walk? (pathSegments path) := by
  rw [at?_eq_or hne]
  by_cases hdot : '.' ∈ path.toList
  · rw [h hdot, Option.none_or]
  · rw [pathSegments_of_undotted hdot, walk?_obj_singleton, Option.or_self]

/-- **A name without a dot** reads its field. -/
theorem Json.at?_of_undotted {r : Record} {name : String} (hne : name ≠ "")
    (h : '.' ∉ name.toList) : (Json.obj r).at? name = Table.get? r name := by
  rw [at?_eq_walk? hne fun hdot => absurd hdot h, pathSegments_of_undotted h, walk?_obj_singleton]

/-- **A field is read under its whole name.** -/
theorem Json.at?_of_get? {r : Record} {path : String} {v : Json} (hne : path ≠ "")
    (h : Table.get? r path = some v) : (Json.obj r).at? path = some v := by
  rw [at?_eq_or hne, h, Option.some_or]

/-! ## Walking through objects -/

/-- **The value is no object.** -/
def Json.NonObject (v : Json) : Prop := v.record? = none

instance (v : Json) : Decidable v.NonObject := inferInstanceAs (Decidable (_ = none))

/-- Any other value is an object. -/
theorem Json.exists_of_not_nonObject {v : Json} (h : ¬v.NonObject) : ∃ fields, v = .obj fields := by
  cases v with
  | obj fields => exact ⟨fields, rfl⟩
  | _ => exact absurd rfl h

/-- **Walks the segments through objects only**, the places where writing keeps what is
there. -/
def Json.within? (v : Json) : List String → Option Json
  | [] => some v
  | segment :: rest => (v.field? segment).bind fun child => child.within? rest

theorem Json.within?_obj_cons (r : Record) (segment : String) (rest : List String) :
    (Json.obj r).within? (segment :: rest) = (Table.get? r segment).bind (·.within? rest) := rfl

theorem Json.within?_append (v : Json) (p q : List String) :
    v.within? (p ++ q) = (v.within? p).bind (·.within? q) := by
  induction p generalizing v with
  | nil => rfl
  | cons segment rest ih =>
    rw [List.cons_append, within?, within?, Option.bind_assoc]
    exact congrArg _ (funext ih)

/-- **Below a value that is no object** there is nothing. -/
theorem Json.within?_of_nonObject {v : Json} (h : v.NonObject) {path : List String}
    (hne : path ≠ []) : v.within? path = none := by
  cases path with
  | nil => exact absurd rfl hne
  | cons segment rest =>
    have hrecord : v.record? = none := h
    rw [within?, field?, hrecord]
    rfl

/-- What something stands below is an object. -/
theorem Json.exists_of_within? {v w : Json} {path : List String} (hne : path ≠ [])
    (h : v.within? path = some w) : ∃ fields, v = .obj fields := by
  refine exists_of_not_nonObject fun hv => ?_
  rw [within?_of_nonObject hv hne] at h
  exact Option.some_ne_none w h.symm

/-- What is found through objects is found by walking. -/
theorem Json.walk?_of_within? {v w : Json} {path : List String} (h : v.within? path = some w) :
    v.walk? path = some w := by
  induction path generalizing v with
  | nil => exact h
  | cons segment rest ih =>
    obtain ⟨fields, rfl⟩ := exists_of_within? (List.cons_ne_nil _ _) h
    obtain ⟨child, hchild, hw⟩ := Option.bind_eq_some_iff.1 h
    exact Option.bind_eq_some_iff.2 ⟨child, hchild, ih hw⟩

/-! ## Writing -/

namespace Record

theorem setAt_singleton (r : Record) (segment : String) (v : Json) :
    setAt r [segment] v = Table.insert r segment v := rfl

/-- Writing below a field writes in its object, or in a new one. -/
theorem setAt_cons (r : Record) (segment : String) {rest : List String} (h : rest ≠ []) (v : Json) :
    setAt r (segment :: rest) v = Table.insert r segment
      (.obj (setAt (Json.fieldsOrNone (Table.get? r segment)) rest v)) := by
  cases rest with
  | nil => exact absurd rfl h
  | cons next rest => rfl

/-- Writing changes no field but the first on its way. -/
theorem get?_setAt_of_ne (r : Record) {path : List String} (v : Json) {key : String}
    (h : path.head? ≠ some key) : Table.get? (setAt r path v) key = Table.get? r key := by
  match path with
  | [] => rfl
  | [segment] => exact Table.get?_insert_of_ne _ _ fun hk => h (hk ▸ rfl)
  | segment :: next :: rest => exact Table.get?_insert_of_ne _ _ fun hk => h (hk ▸ rfl)

/-- **What is written is there.** -/
theorem walk?_setAt_self (r : Record) {path : List String} (h : path ≠ []) (v : Json) :
    (Json.obj (setAt r path v)).walk? path = some v := by
  induction path generalizing r with
  | nil => exact absurd rfl h
  | cons segment rest ih =>
    by_cases hrest : rest = []
    · subst hrest
      rw [setAt_singleton, Json.walk?_obj_cons, Table.get?_insert_self]
      rfl
    · rw [setAt_cons r segment hrest, Json.walk?_obj_cons, Table.get?_insert_self]
      exact ih _ hrest

/-- **Nothing but objects stands on the way to a path**, as far as anything does. -/
def Leads (r : Record) : List String → Prop
  | [] | [_] => True
  | segment :: next :: rest =>
    ∀ v ∈ Table.get? r segment, ∃ inner, v = .obj inner ∧ Leads inner (next :: rest)

theorem leads_cons_iff {r : Record} {segment : String} {rest : List String} (h : rest ≠ []) :
    r.Leads (segment :: rest) ↔
      ∀ v ∈ Table.get? r segment, ∃ inner, v = .obj inner ∧ Leads inner rest := by
  cases rest with
  | nil => exact absurd rfl h
  | cons next rest => rfl

theorem leads_nil (path : List String) : Leads [] path := by
  match path with
  | [] | [_] => trivial
  | _ :: _ :: _ => exact nofun

/-- Writing makes a way of objects. -/
theorem leads_setAt_self (r : Record) (path : List String) (v : Json) :
    (setAt r path v).Leads path := by
  induction path generalizing r with
  | nil => trivial
  | cons segment rest ih =>
    by_cases hrest : rest = []
    · subst hrest
      trivial
    · rw [leads_cons_iff hrest, setAt_cons r segment hrest, Table.get?_insert_self]
      rintro w hw
      obtain rfl := Option.some.inj hw
      exact ⟨_, rfl, ih _⟩

end Record

/-- **Neither path is the beginning of the other.** -/
def PathsApart (p q : List String) : Prop := ¬p <+: q ∧ ¬q <+: p

instance (p q : List String) : Decidable (PathsApart p q) := inferInstanceAs (Decidable (_ ∧ _))

namespace PathsApart

variable {p q : List String}

theorem symm (h : PathsApart p q) : PathsApart q p := ⟨h.2, h.1⟩

theorem ne_nil (h : PathsApart p q) : p ≠ [] := by
  rintro rfl
  exact h.1 List.nil_prefix

/-- Paths apart that begin alike are apart behind. -/
theorem of_cons {segment : String} (h : PathsApart (segment :: p) (segment :: q)) :
    PathsApart p q :=
  ⟨fun hp => h.1 ((List.prefix_cons_inj segment).2 hp),
    fun hq => h.2 ((List.prefix_cons_inj segment).2 hq)⟩

end PathsApart

namespace Record

/-- **Nothing but objects stands where the paths run together**, as far as anything
does. -/
def SharesObjects (r : Record) (p q : List String) : Prop :=
  ∀ common, common ≠ [] → common <+: p → common <+: q →
    ∀ v ∈ (Json.obj r).within? common, ¬v.NonObject

instance (r : Record) (p q : List String) : Decidable (r.SharesObjects p q) :=
  decidable_of_iff
    (∀ common ∈ p.inits, common ≠ [] → common <+: q →
      ∀ v ∈ (Json.obj r).within? common, ¬v.NonObject)
    ⟨fun h common hne hp => h common (List.mem_inits common p |>.2 hp) hne,
      fun h common hp hne => h common hne (List.mem_inits common p |>.1 hp)⟩

/-- Below a common segment, the paths go on in the object that stands there. -/
theorem SharesObjects.of_cons {segment : String} {p q : List String} {r inner : Record}
    (h : r.SharesObjects (segment :: p) (segment :: q))
    (hinner : Table.get? r segment = some (.obj inner)) : inner.SharesObjects p q := by
  intro common _ hp hq v hv
  refine h (segment :: common) (List.cons_ne_nil _ _) ((List.prefix_cons_inj segment).2 hp)
    ((List.prefix_cons_inj segment).2 hq) v ?_
  rw [Json.within?_obj_cons, hinner]
  exact hv

theorem sharesObjects_nil (p q : List String) : SharesObjects [] p q := by
  intro common hne _ _ v hv
  cases common with
  | nil => exact absurd rfl hne
  | cons segment rest => exact absurd hv nofun

/-- **A write does not change what is found at a path apart**, be it through objects or
arrays. -/
theorem walk?_setAt_of_apart {p q : List String} (h : PathsApart p q) {r : Record}
    (hr : r.SharesObjects p q) (v : Json) : (Json.obj (setAt r p v)).walk? q = (Json.obj r).walk? q := by
  induction q generalizing p r with
  | nil => exact absurd rfl h.symm.ne_nil
  | cons segment q ih =>
    match p, h with
    | [], h => exact absurd rfl h.ne_nil
    | first :: p, h =>
      rw [Json.walk?_obj_cons, Json.walk?_obj_cons]
      by_cases hfirst : first = segment
      · subst hfirst
        have hapart := h.of_cons
        rw [setAt_cons r first hapart.ne_nil, Table.get?_insert_self, Option.bind_some]
        cases hget : Table.get? r first with
        | none =>
          -- a new object is made, in which nothing is found at the other path
          exact (ih hapart (sharesObjects_nil p q)).trans (Json.walk?_obj_nil hapart.symm.ne_nil)
        | some w =>
          have hw : w ∈ (Json.obj r).within? [first] := by
            rw [Json.within?_obj_cons, hget]
            rfl
          obtain ⟨inner, rfl⟩ := Json.exists_of_not_nonObject <|
            hr [first] (List.cons_ne_nil _ _) (List.prefix_append [first] p)
              (List.prefix_append [first] q) w hw
          exact ih hapart (hr.of_cons hget)
      · have hhead : (first :: p).head? ≠ some segment := fun hhead =>
          hfirst (Option.some.inj hhead)
        rw [get?_setAt_of_ne r v hhead]

/-- On a way of objects, what stands before its end is an object. -/
theorem Leads.not_nonObject {r : Record} {upper rest : List String} (hr : r.Leads (upper ++ rest))
    (hupper : upper ≠ []) (hrest : rest ≠ []) {v : Json}
    (h : (Json.obj r).within? upper = some v) : ¬v.NonObject := by
  induction upper generalizing r with
  | nil => exact absurd rfl hupper
  | cons segment upper ih =>
    rw [List.cons_append, leads_cons_iff (List.append_ne_nil_of_right_ne_nil upper hrest)] at hr
    obtain ⟨child, hchild, hwithin⟩ := Option.bind_eq_some_iff.1 h
    obtain ⟨inner, rfl, hinner⟩ := hr child hchild
    by_cases hend : upper = []
    · subst hend
      obtain rfl := Option.some.inj hwithin
      exact Option.some_ne_none _
    · exact ih hinner hend hwithin

/-- A way of objects is one as far as another path goes along. -/
theorem Leads.sharesObjects {r : Record} {p q : List String} (hr : r.Leads q) (h : PathsApart p q) :
    r.SharesObjects p q := by
  rintro common hne hp ⟨rest, rfl⟩ v hv
  refine hr.not_nonObject hne ?_ hv
  rintro rfl
  rw [List.append_nil] at h
  exact h.2 hp

/-- Writing at a path apart leaves a way of objects one. -/
theorem Leads.setAt {p q : List String} (h : PathsApart p q) {r : Record} (hr : r.Leads q)
    (v : Json) : (setAt r p v).Leads q := by
  induction q generalizing p r with
  | nil => trivial
  | cons segment q ih =>
    by_cases hq : q = []
    · subst hq
      trivial
    match p, h with
    | [], h => exact absurd rfl h.ne_nil
    | first :: p, h =>
      rw [leads_cons_iff hq] at hr ⊢
      by_cases hfirst : first = segment
      · subst hfirst
        have hapart := h.of_cons
        have hinner : Leads (Json.fieldsOrNone (Table.get? r first)) q := by
          cases hget : Table.get? r first with
          | none => exact leads_nil q
          | some w =>
            obtain ⟨inner, rfl, hinner⟩ := hr w hget
            exact hinner
        rw [setAt_cons r first hapart.ne_nil, Table.get?_insert_self]
        rintro w hw
        obtain rfl := Option.some.inj hw
        exact ⟨_, rfl, ih hapart hinner⟩
      · have hhead : (first :: p).head? ≠ some segment := fun hhead =>
          hfirst (Option.some.inj hhead)
        rwa [get?_setAt_of_ne r v hhead]

/-- **Writing at a path apart** changes neither the way to a path nor what is found
there. -/
theorem setAt_of_apart {p q : List String} (h : PathsApart p q) {r : Record} (hr : r.Leads q)
    (v : Json) :
    (setAt r p v).Leads q ∧ (Json.obj (setAt r p v)).walk? q = (Json.obj r).walk? q :=
  ⟨hr.setAt h v, walk?_setAt_of_apart h (hr.sharesObjects h) v⟩

/-! ## Many writes -/

/-- Writes values at paths, one after another. -/
def setAll (r : Record) (writes : List (List String × Json)) : Record :=
  writes.foldl (fun r w => setAt r w.1 w.2) r

theorem setAll_append (r : Record) (ws ws' : List (List String × Json)) :
    setAll r (ws ++ ws') = setAll (setAll r ws) ws' := List.foldl_append

theorem setAll_of_apart {ws : List (List String × Json)} {q : List String}
    (h : ∀ w ∈ ws, PathsApart w.1 q) {r : Record} (hr : r.Leads q) :
    (setAll r ws).Leads q ∧ (Json.obj (setAll r ws)).walk? q = (Json.obj r).walk? q := by
  induction ws generalizing r with
  | nil => exact ⟨hr, rfl⟩
  | cons w rest ih =>
    rw [List.forall_mem_cons] at h
    obtain ⟨hleads, hwalk⟩ := setAt_of_apart h.1 hr w.2
    obtain ⟨hleads', hwalk'⟩ := ih h.2 hleads
    exact ⟨hleads', hwalk'.trans hwalk⟩

/-- **Writes at paths apart from each other can all be read back.** -/
theorem walk?_setAll {ws : List (List String × Json)}
    (h : ws.Pairwise fun a b => PathsApart a.1 b.1) {w : List String × Json} (hw : w ∈ ws)
    (hne : w.1 ≠ []) (r : Record) :
    (setAll r ws).Leads w.1 ∧ (Json.obj (setAll r ws)).walk? w.1 = some w.2 := by
  obtain ⟨before, after, rfl⟩ := List.append_of_mem hw
  have hafter : ∀ w' ∈ after, PathsApart w'.1 w.1 := fun w' hw' =>
    ((List.pairwise_cons.1 (List.pairwise_append.1 h).2.1).1 w' hw').symm
  have hsplit : setAll r (before ++ w :: after)
      = setAll (setAt (setAll r before) w.1 w.2) after := setAll_append r before (w :: after)
  rw [hsplit]
  obtain ⟨hleads, hwalk⟩ := setAll_of_apart hafter (leads_setAt_self (setAll r before) w.1 w.2)
  exact ⟨hleads, hwalk.trans (walk?_setAt_self _ hne w.2)⟩

theorem get?_setAll_of_ne {ws : List (List String × Json)} {key : String}
    (h : ∀ w ∈ ws, w.1.head? ≠ some key) (r : Record) :
    Table.get? (setAll r ws) key = Table.get? r key := by
  induction ws generalizing r with
  | nil => rfl
  | cons w rest ih =>
    rw [List.forall_mem_cons] at h
    exact (ih h.2 _).trans (get?_setAt_of_ne r w.2 h.1)

theorem ordered_setAt {r : Record} (h : Table.Ordered r) (path : List String) (v : Json) :
    Table.Ordered (setAt r path v) := by
  match path with
  | [] => exact h
  | [segment] => exact h.insert segment v
  | segment :: _ :: _ => exact h.insert segment _

theorem ordered_setAll {r : Record} (h : Table.Ordered r) (ws : List (List String × Json)) :
    Table.Ordered (setAll r ws) := by
  induction ws generalizing r with
  | nil => exact h
  | cons w rest ih => exact ih (ordered_setAt h w.1 w.2)

end Record

end UserDirectory
