import UserDirectory.Proofs.Filter.Losses
import UserDirectory.Proofs.Filter.Pieces
import UserDirectory.Proofs.Search.Layers

/-!
# The walk of a filter

A walk of a filter meets its clauses one by one, each before what lies below it and in the
order of the tree, and at each it knows the names of the fields around it
(`Filter.visits`). It goes down wherever there are clauses below, with one exception: an
operator outside any field is left out whole, and what it is compared with is not looked
at.

The notes of a compiled filter are those of the clauses that the walk meets and that have
no text, in its order (`Filter.dropped_visits`). Every other clause is one piece of its
level, unless it is silent, or a conjunction outside any field, which is no piece but part
of the level (`Visit.pieces_cases`).
-/

namespace UserDirectory

/-- **A clause where it stands**, below the fields with these names. -/
structure Visit where
  /-- The names of the fields around it, outermost first. -/
  path : List String
  clause : Clause

/-! ## The walk -/

mutual

/-- What the walk meets below a clause. -/
def Clause.visitsBelow (path : List String) : Clause → List Visit
  | .raw _ | .exists _ | .missing _ | .unsupported _ => []
  | .and children | .or children => Filter.visitsAll path children
  | .field name operand => operand.visits (path ++ [name])
  | .operator op => if path = [] then [] else op.visits path

/-- What the walk meets in an operand. -/
def Operand.visits (path : List String) : Operand → List Visit
  | .nested filter => Filter.visits path filter
  | .literal _ | .null | .list _ => []

/-- What the walk meets in an operator: only an inequality holds clauses. -/
def Operator.visits (path : List String) : Operator → List Visit
  | .neq operand => operand.visits path
  | _ => []

/-- **The clauses of a filter as a walk meets them**, each before those below it. -/
def Filter.visits (path : List String) : List Clause → List Visit
  | [] => []
  | clause :: rest => ⟨path, clause⟩ :: (clause.visitsBelow path ++ Filter.visits path rest)

/-- What the walk meets in several filters. -/
def Filter.visitsAll (path : List String) : List (List Clause) → List Visit
  | [] => []
  | filter :: rest => Filter.visits path filter ++ Filter.visitsAll path rest

end

/-- The path of the innermost field, as it is written in a query. -/
def dottedPath? (path : List String) : Option String :=
  if path = [] then none else some (".".intercalate path)

theorem dottedPath?_of_ne_nil {path : List String} (h : path ≠ []) :
    dottedPath? path = some (".".intercalate path) := if_neg h

theorem dottedPath?_isSome_iff {path : List String} :
    (dottedPath? path).isSome = true ↔ path ≠ [] := by
  by_cases hpath : path = []
  · rw [hpath]
    exact iff_of_false Bool.false_ne_true (not_not_intro rfl)
  · rw [dottedPath?_of_ne_nil hpath]
    exact iff_of_true rfl hpath

theorem dottedPath?_append (path : List String) (name : String) :
    dottedPath? (path ++ [name]) = some (scopedPath (dottedPath? path) name) := by
  rw [dottedPath?, if_neg (List.append_ne_nil_of_right_ne_nil path (List.cons_ne_nil _ _)),
    dottedPath?]
  by_cases hpath : path = []
  · rw [if_pos hpath, hpath, List.nil_append, String.intercalate_singleton]
    rfl
  · rw [if_neg hpath, String.intercalate_append_of_ne_nil hpath (List.cons_ne_nil _ _),
      String.intercalate_singleton]
    rfl

namespace Visit

/-- **The note on a clause that has no text**: an operator that the query language does not
know, or one outside any field. -/
def note? (v : Visit) : Option DroppedClause :=
  match v.clause with
  | .unsupported key => some ⟨key, dottedPath? v.path, .unsupportedOperator⟩
  | .operator op => if v.path = [] then some ⟨op.keyword.name, none, .missingField⟩ else none
  | _ => none

/-- The pieces that the clause is for its level. -/
def pieces (v : Visit) : List String := v.clause.pieces (dottedPath? v.path)

/-- The clause asks nothing that has a text. -/
def Silent (v : Visit) : Prop := v.clause.Silent (dottedPath? v.path).isSome

end Visit

/-! ## Notes -/

mutual

theorem Clause.dropped_visits (path : List String) (clause : Clause) :
    clause.dropped (dottedPath? path) =
      (⟨path, clause⟩ :: clause.visitsBelow path).filterMap Visit.note? := by
  match clause with
  | .raw _ | .exists _ | .missing _ => rfl
  | .unsupported _ => rfl
  | .and children => exact Filter.droppedAll_visits path children
  | .or children => exact Filter.droppedAll_visits path children
  | .field name operand =>
    exact Operand.dropped_visits (dottedPath?_append path name) operand
  | .operator op =>
    by_cases hpath : path = []
    · rw [hpath]
      rfl
    · -- inside a field an operator is no loss, and its operand is looked at
      have hfield := dottedPath?_of_ne_nil hpath
      have hbelow : Clause.visitsBelow path (.operator op) = op.visits path := if_neg hpath
      have hnote : Visit.note? ⟨path, .operator op⟩ = none := if_neg hpath
      rw [hfield, hbelow, List.filterMap_cons_none hnote]
      exact Operator.dropped_visits hfield op

theorem Operand.dropped_visits {path : List String} {field : String}
    (h : dottedPath? path = some field) (operand : Operand) :
    operand.dropped field = (operand.visits path).filterMap Visit.note? := by
  match operand with
  | .literal _ | .null | .list _ => rfl
  | .nested filter =>
    rw [Operand.dropped, ← h]
    exact Filter.dropped_visits path filter

theorem Operator.dropped_visits {path : List String} {field : String}
    (h : dottedPath? path = some field) (op : Operator) :
    op.dropped field = (op.visits path).filterMap Visit.note? := by
  match op with
  | .neq operand => exact Operand.dropped_visits h operand
  | .inq _ | .nin _ | .gt _ | .gte _ | .lt _ | .lte _ | .between _ _ | .like _ | .nlike _
  | .exists _ | .missing _ => rfl

/-- **The notes of a filter** are those of the clauses that the walk meets, in its order. -/
theorem Filter.dropped_visits (path : List String) (filter : List Clause) :
    Filter.dropped (dottedPath? path) filter =
      (Filter.visits path filter).filterMap Visit.note? := by
  match filter with
  | [] => rfl
  | clause :: rest =>
    rw [Filter.dropped, Clause.dropped_visits path clause, Filter.dropped_visits path rest,
      ← List.filterMap_append]
    rfl

theorem Filter.droppedAll_visits (path : List String) (filters : List (List Clause)) :
    Filter.droppedAll (dottedPath? path) filters =
      (Filter.visitsAll path filters).filterMap Visit.note? := by
  match filters with
  | [] => rfl
  | filter :: rest =>
    rw [Filter.droppedAll, Filter.dropped_visits path filter, Filter.droppedAll_visits path rest,
      ← List.filterMap_append]
    rfl

end

/-! ## Pieces -/

theorem length_groupPieces_le (pieces : List String) : (groupPieces pieces).length ≤ 1 := by
  match pieces with
  | [] => exact Nat.zero_le 1
  | [_] | _ :: _ :: _ => exact Nat.le_refl 1

theorem length_joinGroups_le (enclosed : Bool) (join : List String → String)
    (groups : List String) : (joinGroups enclosed join groups).length ≤ 1 := by
  unfold joinGroups
  split
  · exact Nat.zero_le 1
  · exact Nat.le_refl 1

/-- An operand is one piece at most. -/
theorem Operand.length_pieces_le (field : String) (operand : Operand) :
    (operand.pieces field).length ≤ 1 := by
  match operand with
  | .literal _ | .null => exact Nat.le_refl 1
  | .list _ => exact Option.length_toList_le
  | .nested _ => exact length_groupPieces_le _

/-- An operator is one piece at most. -/
theorem Operator.length_pieces_le (field : String) (op : Operator) :
    (op.pieces field).length ≤ 1 := by
  cases op with
  | inq _ | nin _ => exact Option.length_toList_le
  | neq operand =>
    rw [Operator.pieces, List.length_map]
    exact operand.length_pieces_le field
  | gt _ | gte _ | lt _ | lte _ | between _ _ | like _ | nlike _ | «exists» _ | missing _ =>
    exact Nat.le_refl 1

/-- **A clause is one piece at most**, unless it is a conjunction outside any field. -/
theorem Clause.length_pieces_le (scope : Option String) (clause : Clause)
    (h : ∀ children, clause = .and children → scope ≠ none) : (clause.pieces scope).length ≤ 1 := by
  match clause with
  | .raw text =>
    show (Query.verbatim? text).toList.length ≤ 1
    exact Option.length_toList_le
  | .exists _ | .missing _ => exact Nat.le_refl 1
  | .unsupported _ => exact Nat.zero_le 1
  | .and children =>
    cases scope with
    | none => exact absurd rfl (h children rfl)
    | some path => exact length_joinGroups_le _ _ _
  | .or _ => exact length_joinGroups_le _ _ _
  | .field name operand => exact operand.length_pieces_le _
  | .operator op =>
    cases scope with
    | none => exact Nat.zero_le 1
    | some path => exact op.length_pieces_le path

namespace Visit

/-- A clause with a note has no text. -/
theorem pieces_of_note {v : Visit} {note : DroppedClause} (h : v.note? = some note) :
    v.pieces = [] := by
  obtain ⟨path, clause⟩ := v
  match clause with
  | .unsupported _ => rfl
  | .operator op =>
    by_cases hpath : path = []
    · subst hpath
      rfl
    · exact absurd (h.symm.trans (if_neg hpath)) (Option.some_ne_none note)
  | .raw _ | .exists _ | .missing _ | .and _ | .or _ | .field _ _ => exact absurd h nofun

/-- **Any other clause** is part of its level, or silent, or one piece with some text. -/
theorem pieces_cases (v : Visit) :
    (∃ children, v.path = [] ∧ v.clause = .and children ∧
        v.pieces = children.flatMap (Filter.pieces none)) ∨
      (v.Silent ∧ v.pieces = []) ∨ (¬ v.Silent ∧ ∃ text ≠ "", v.pieces = [text]) := by
  by_cases hlevel : v.path = [] ∧ ∃ children, v.clause = .and children
  · obtain ⟨hpath, children, hclause⟩ := hlevel
    refine .inl ⟨children, hpath, hclause, ?_⟩
    rw [pieces, hpath, hclause, List.flatMap_def, ← Filter.flatPieces_eq_flatten]
    rfl
  · refine .inr ?_
    by_cases hsilent : v.Silent
    · exact .inl ⟨hsilent, (Clause.pieces_eq_nil_iff _ v.clause).2 hsilent⟩
    · have hne : v.pieces ≠ [] := fun h => hsilent ((Clause.pieces_eq_nil_iff _ v.clause).1 h)
      have hlength : v.pieces.length ≤ 1 := by
        refine Clause.length_pieces_le _ _ fun children hclause hscope => hlevel ⟨?_, _, hclause⟩
        by_contra hpath
        exact absurd (hscope.symm.trans (if_neg hpath)) nofun
      obtain ⟨text, htext⟩ := List.length_eq_one_iff.1
        (Nat.le_antisymm hlength (List.length_pos_iff.2 hne))
      refine .inr ⟨hsilent, text, ?_, htext⟩
      exact Clause.pieces_nonempty _ v.clause text (htext ▸ List.mem_singleton_self text)

end Visit

end UserDirectory
