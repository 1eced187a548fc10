import UserDirectory.Filter.Compile

/-!
# Joining pieces

Every piece that the compiler writes has some text. So a query is empty exactly
when there are no pieces, and joining the pieces of several filters is joining
the queries of those filters that have one.
-/

namespace UserDirectory

/-- **Each of the texts is not empty.** -/
def AllNonempty (ts : List String) : Prop := ∀ t ∈ ts, t ≠ ""

theorem AllNonempty.nil : AllNonempty [] := nofun

theorem AllNonempty.single {t : String} (h : t ≠ "") : AllNonempty [t] :=
  fun _ ht => List.mem_singleton.1 ht ▸ h

theorem AllNonempty.append {ts us : List String} (ht : AllNonempty ts) (hu : AllNonempty us) :
    AllNonempty (ts ++ us) := fun t h => by
  rcases List.mem_append.1 h with h | h
  · exact ht t h
  · exact hu t h

/-- A text with a part that is not empty is not empty. -/
theorem append_ne_empty_of_left {s t : String} (h : s ≠ "") : s ++ t ≠ "" :=
  fun he => h (String.append_eq_empty_iff.1 he).1

theorem append_ne_empty_of_right {s t : String} (h : t ≠ "") : s ++ t ≠ "" :=
  fun he => h (String.append_eq_empty_iff.1 he).2

namespace Query

theorem paren_ne_empty (s : String) : paren s ≠ "" :=
  append_ne_empty_of_right (by decide)

theorem equals_ne_empty (field : String) (value : Literal) : equals field value ≠ "" :=
  append_ne_empty_of_left (append_ne_empty_of_right (by decide))

theorem present_ne_empty (field : String) : present field ≠ "" :=
  append_ne_empty_of_left (by decide)

theorem absent_ne_empty (field : String) : absent field ≠ "" :=
  append_ne_empty_of_left (by decide)

theorem oneOf?_ne_empty (field : String) (values : List Literal) :
    AllNonempty (oneOf? field values).toList := by
  unfold oneOf?
  split
  · exact .nil
  · exact .single (append_ne_empty_of_right (paren_ne_empty _))

theorem verbatim?_ne_empty (text : String) : AllNonempty (verbatim? text).toList := by
  unfold verbatim?
  dsimp only
  split
  · exact .single (paren_ne_empty _)
  · split
    · exact .nil
    · next h => exact .single fun he => h (by rw [he]; rfl)

end Query

/-- **A join is empty only if there is nothing to join.** -/
theorem intercalate_ne_empty {ts : List String} (h : AllNonempty ts) (hts : ts ≠ [])
    (separator : String) : separator.intercalate ts ≠ "" := by
  match ts, h with
  | [t], h =>
    rw [String.intercalate_singleton]
    exact h t List.mem_cons_self
  | t :: u :: rest, h =>
    rw [String.intercalate_cons_cons]
    exact append_ne_empty_of_left (append_ne_empty_of_left (h t List.mem_cons_self))

theorem AllNonempty.groupPieces {ts : List String} (h : AllNonempty ts) :
    AllNonempty (groupPieces ts) := by
  match ts with
  | [] => exact .nil
  | [_] => exact h
  | _ :: _ :: _ => exact .single (Query.paren_ne_empty _)

theorem AllNonempty.joinGroups {groups : List String} (h : AllNonempty groups) (enclosed : Bool)
    (separator : String) : AllNonempty (joinGroups enclosed separator.intercalate groups) := by
  unfold UserDirectory.joinGroups
  by_cases hgroups : groups = []
  · rw [if_pos (List.isEmpty_iff.2 hgroups)]
    exact .nil
  · rw [if_neg fun he => hgroups (List.isEmpty_iff.1 he)]
    cases enclosed with
    | true => exact .single (Query.paren_ne_empty _)
    | false => exact .single (intercalate_ne_empty h hgroups separator)

mutual

theorem Clause.pieces_nonempty (scope : Option String) :
    (clause : Clause) → AllNonempty (clause.pieces scope)
  | .raw text => Query.verbatim?_ne_empty text
  | .exists field => .single (Query.present_ne_empty field)
  | .missing field => .single (Query.absent_ne_empty field)
  | .and children => by
    cases scope with
    | none => exact Filter.flatPieces_nonempty children
    | some path => exact (Filter.groups_nonempty (some path) children).joinGroups true " AND "
  | .or children => (Filter.groups_nonempty scope children).joinGroups _ " OR "
  | .field name operand => Operand.pieces_nonempty (scopedPath scope name) operand
  | .operator op => by
    cases scope with
    | none => exact .nil
    | some path => exact Operator.pieces_nonempty path op
  | .unsupported _ => .nil

theorem Operand.pieces_nonempty (field : String) :
    (operand : Operand) → AllNonempty (operand.pieces field)
  | .literal value => .single (Query.equals_ne_empty field value)
  | .null => .single (Query.paren_ne_empty _)
  | .list values => Query.oneOf?_ne_empty field values
  | .nested filter => (Filter.pieces_nonempty (some field) filter).groupPieces

theorem Operator.pieces_nonempty (field : String) : (op : Operator) → AllNonempty (op.pieces field)
  | .inq values => Query.oneOf?_ne_empty field values
  | .nin values => fun t h => by
    obtain ⟨u, -, rfl⟩ := Option.map_eq_some_iff.1 (Option.mem_toList.1 h)
    exact append_ne_empty_of_left (by decide)
  | .neq operand => fun t h => by
    obtain ⟨u, -, rfl⟩ := List.mem_map.1 h
    exact append_ne_empty_of_left (by decide)
  | .gt _ | .gte _ => .single (append_ne_empty_of_right (by decide))
  | .lt _ | .lte _ => .single (append_ne_empty_of_right (by decide))
  | .between _ _ => .single (append_ne_empty_of_right (by decide))
  | .like pattern => .single (Query.equals_ne_empty field pattern)
  | .nlike _ => .single (append_ne_empty_of_left (by decide))
  | .exists isThere => .single (by
      cases isThere
      · exact Query.absent_ne_empty field
      · exact Query.present_ne_empty field)
  | .missing isAbsent => .single (by
      cases isAbsent
      · exact Query.present_ne_empty field
      · exact Query.absent_ne_empty field)

/-- **Every piece of a filter has some text.** -/
theorem Filter.pieces_nonempty (scope : Option String) :
    (filter : List Clause) → AllNonempty (Filter.pieces scope filter)
  | [] => .nil
  | clause :: rest => (clause.pieces_nonempty scope).append (Filter.pieces_nonempty scope rest)

theorem Filter.flatPieces_nonempty :
    (filters : List (List Clause)) → AllNonempty (Filter.flatPieces filters)
  | [] => .nil
  | filter :: rest => (Filter.pieces_nonempty none filter).append (Filter.flatPieces_nonempty rest)

theorem Filter.groups_nonempty (scope : Option String) :
    (filters : List (List Clause)) → AllNonempty (Filter.groups scope filters)
  | [] => .nil
  | filter :: rest =>
    (Filter.pieces_nonempty scope filter).groupPieces.append (Filter.groups_nonempty scope rest)

end

/-! ## Queries of several filters -/

namespace Query

theorem conjoin_singleton (t : String) : conjoin [t] = t := String.intercalate_singleton

theorem conjoin_append {ts us : List String} (ht : ts ≠ []) (hu : us ≠ []) :
    conjoin (ts ++ us) = conjoin ts ++ " AND " ++ conjoin us :=
  String.intercalate_append_of_ne_nil ht hu

theorem conjoin_eq_empty_iff {ts : List String} (h : AllNonempty ts) :
    conjoin ts = "" ↔ ts = [] := by
  by_cases hts : ts = []
  · rw [hts]
    exact iff_of_true rfl rfl
  · exact iff_of_false (intercalate_ne_empty h hts " AND ") hts

/-- The queries of several filters are all empty if no filter has a piece. -/
theorem stated_conjoin_eq_nil_iff {tss : List (List String)} (h : ∀ ts ∈ tss, AllNonempty ts) :
    (tss.map conjoin).filter (!·.isEmpty) = [] ↔ tss.flatten = [] := by
  rw [List.filter_eq_nil_iff, List.forall_mem_map, List.flatten_eq_nil_iff]
  refine forall₂_congr fun ts hts => ?_
  rw [Bool.not_eq_true', Bool.not_eq_false, String.isEmpty_iff, conjoin_eq_empty_iff (h ts hts)]

/-- **Joining the pieces of several filters is joining their queries**, less the
empty ones. -/
theorem conjoin_flatten {tss : List (List String)} (h : ∀ ts ∈ tss, AllNonempty ts) :
    conjoin tss.flatten = conjoin ((tss.map conjoin).filter (!·.isEmpty)) := by
  induction tss with
  | nil => rfl
  | cons ts rest ih =>
    have hts := h ts List.mem_cons_self
    have hrest := fun us hus => h us (List.mem_cons_of_mem ts hus)
    rw [List.flatten_cons, List.map_cons]
    by_cases hnil : ts = []
    · rw [hnil, List.nil_append, ih hrest]
      rfl
    · have hkeep : (!(conjoin ts).isEmpty) = true := by
        simpa using fun he => hnil ((conjoin_eq_empty_iff hts).1 he)
      rw [List.filter_cons, if_pos hkeep]
      -- a last filter has no joining word behind it
      by_cases hflat : rest.flatten = []
      · rw [hflat, (stated_conjoin_eq_nil_iff hrest).2 hflat, List.append_nil]
        exact (conjoin_singleton _).symm
      · have hstated := mt (stated_conjoin_eq_nil_iff hrest).1 hflat
        rw [conjoin_append hnil hflat, ih hrest,
          show ∀ x, conjoin ts :: x = [conjoin ts] ++ x from fun _ => rfl,
          conjoin_append (List.cons_ne_nil _ _) hstated, conjoin_singleton]

end Query

/-- **A filter has no query** exactly when it has no pieces. -/
theorem Filter.query_eq_empty_iff (filter : Filter) :
    filter.compile.query = "" ↔ Filter.pieces none filter = [] :=
  Query.conjoin_eq_empty_iff (Filter.pieces_nonempty none filter)

theorem Filter.compile_isEmpty_iff (filter : Filter) :
    filter.compile.isEmpty = true ↔ Filter.pieces none filter = [] := by
  rw [CompiledQuery.isEmpty, String.isEmpty_iff]
  exact filter.query_eq_empty_iff

end UserDirectory
