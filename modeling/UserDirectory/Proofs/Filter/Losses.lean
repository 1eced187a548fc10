import UserDirectory.Filter.Compile

/-!
# What compiling loses

The query language does not state everything that a filter asks. Two kinds of
clauses are left out with a note: operators that it has no counterpart for, and
operators that stand outside any field. A filter without either is expressible, and
nothing of it is dropped (`Filter.dropped_eq_nil_iff`).

A clause can also come to nothing without a note: a list without values asks for no
value, and a group, a nested object or a negation asks nothing if all of its parts
do. A filter that consists of such clauses and of dropped ones is silent, and these
are the filters without any piece (`Filter.pieces_eq_nil_iff`).

Both properties are read off the tree; where a clause stands matters only in that an
operator needs a field.
-/

namespace UserDirectory

/-! ## Expressible filters -/

mutual

/-- The query language states every operator in the clause. -/
def Clause.Expressible (inField : Bool) : Clause → Prop
  | .raw _ | .exists _ | .missing _ => True
  | .and children | .or children => Filter.AllExpressible inField children
  | .field _ operand => operand.Expressible
  | .operator op => inField = true ∧ op.Expressible
  | .unsupported _ => False

/-- The query language states every operator in the operand. -/
def Operand.Expressible : Operand → Prop
  | .nested filter => Filter.Expressible true filter
  | .literal _ | .null | .list _ => True

/-- The query language states every operator in the operand of the operator. -/
def Operator.Expressible : Operator → Prop
  | .neq operand => operand.Expressible
  | _ => True

/-- **The query language states every operator in the filter.** -/
def Filter.Expressible (inField : Bool) : List Clause → Prop
  | [] => True
  | clause :: rest => clause.Expressible inField ∧ Filter.Expressible inField rest

/-- Each of the filters is expressible. -/
def Filter.AllExpressible (inField : Bool) : List (List Clause) → Prop
  | [] => True
  | filter :: rest => Filter.Expressible inField filter ∧ Filter.AllExpressible inField rest

end

mutual

theorem Clause.dropped_eq_nil_iff (scope : Option String) :
    (clause : Clause) → (clause.dropped scope = [] ↔ clause.Expressible scope.isSome)
  | .raw _ | .exists _ | .missing _ => iff_of_true rfl trivial
  | .and children | .or children => Filter.droppedAll_eq_nil_iff scope children
  | .field name operand => Operand.dropped_eq_nil_iff (scopedPath scope name) operand
  | .operator op => by
    cases scope with
    | none =>
      exact iff_of_false (List.cons_ne_nil _ _) fun h => Bool.false_ne_true h.1
    | some path => exact (Operator.dropped_eq_nil_iff path op).trans (and_iff_right rfl).symm
  | .unsupported _ => iff_of_false (List.cons_ne_nil _ _) id

theorem Operand.dropped_eq_nil_iff (field : String) :
    (operand : Operand) → (operand.dropped field = [] ↔ operand.Expressible)
  | .nested filter => Filter.dropped_eq_nil_iff (some field) filter
  | .literal _ | .null | .list _ => iff_of_true rfl trivial

theorem Operator.dropped_eq_nil_iff (field : String) :
    (op : Operator) → (op.dropped field = [] ↔ op.Expressible)
  | .neq operand => Operand.dropped_eq_nil_iff field operand
  | .inq _ | .nin _ | .gt _ | .gte _ | .lt _ | .lte _ | .between _ _ | .like _ | .nlike _
  | .exists _ | .missing _ => iff_of_true rfl trivial

/-- **Nothing of a filter is dropped exactly when it is expressible.** -/
theorem Filter.dropped_eq_nil_iff (scope : Option String) :
    (filter : List Clause) →
      (Filter.dropped scope filter = [] ↔ Filter.Expressible scope.isSome filter)
  | [] => iff_of_true rfl trivial
  | clause :: rest => List.append_eq_nil_iff.trans
    (and_congr (Clause.dropped_eq_nil_iff scope clause) (Filter.dropped_eq_nil_iff scope rest))

theorem Filter.droppedAll_eq_nil_iff (scope : Option String) :
    (filters : List (List Clause)) →
      (Filter.droppedAll scope filters = [] ↔ Filter.AllExpressible scope.isSome filters)
  | [] => iff_of_true rfl trivial
  | filter :: rest => List.append_eq_nil_iff.trans
    (and_congr (Filter.dropped_eq_nil_iff scope filter) (Filter.droppedAll_eq_nil_iff scope rest))

end

/-! ## Silent filters -/

mutual

/-- The clause asks nothing that has a text. -/
def Clause.Silent (inField : Bool) : Clause → Prop
  | .raw text => trimBlanks text = ""
  | .exists _ | .missing _ => False
  | .and children | .or children => Filter.AllSilent inField children
  | .field _ operand => operand.Silent
  | .operator op => inField = false ∨ op.Silent
  | .unsupported _ => True

/-- The operand asks nothing that has a text. -/
def Operand.Silent : Operand → Prop
  | .nested filter => Filter.Silent true filter
  | .list values => values = []
  | .literal _ | .null => False

/-- The operator asks nothing that has a text. -/
def Operator.Silent : Operator → Prop
  | .neq operand => operand.Silent
  | .inq values | .nin values => values = []
  | _ => False

/-- **The filter asks nothing that has a text.** -/
def Filter.Silent (inField : Bool) : List Clause → Prop
  | [] => True
  | clause :: rest => clause.Silent inField ∧ Filter.Silent inField rest

/-- Each of the filters is silent. -/
def Filter.AllSilent (inField : Bool) : List (List Clause) → Prop
  | [] => True
  | filter :: rest => Filter.Silent inField filter ∧ Filter.AllSilent inField rest

end

namespace Query

theorem verbatim?_eq_none_iff {text : String} : verbatim? text = none ↔ trimBlanks text = "" := by
  unfold verbatim?
  dsimp only
  split
  · next hblank =>
    refine iff_of_false (Option.some_ne_none _) fun h => ?_
    rw [h] at hblank
    exact absurd hblank (by decide)
  · rw [← String.isEmpty_iff]
    split
    · next h => exact iff_of_true rfl h
    · next h => exact iff_of_false (Option.some_ne_none _) h

theorem oneOf?_eq_none_iff {field : String} {values : List Literal} :
    oneOf? field values = none ↔ values = [] := by
  unfold oneOf?
  cases values with
  | nil => exact iff_of_true rfl rfl
  | cons v rest =>
    exact iff_of_false (Option.some_ne_none _) (List.cons_ne_nil _ _)

end Query

theorem groupPieces_eq_nil_iff {ts : List String} : groupPieces ts = [] ↔ ts = [] := by
  match ts with
  | [] => exact iff_of_true rfl rfl
  | [_] => exact Iff.rfl
  | _ :: _ :: _ =>
    exact iff_of_false (List.cons_ne_nil _ _) (List.cons_ne_nil _ _)

theorem joinGroups_eq_nil_iff {enclosed : Bool} {join : List String → String}
    {groups : List String} : joinGroups enclosed join groups = [] ↔ groups = [] := by
  unfold joinGroups
  cases groups with
  | nil => exact iff_of_true rfl rfl
  | cons g rest =>
    exact iff_of_false (List.cons_ne_nil _ _) (List.cons_ne_nil _ _)

mutual

theorem Clause.pieces_eq_nil_iff (scope : Option String) :
    (clause : Clause) → (clause.pieces scope = [] ↔ clause.Silent scope.isSome)
  | .raw text => by
    show (Query.verbatim? text).toList = [] ↔ trimBlanks text = ""
    rw [Option.toList_eq_nil_iff, Query.verbatim?_eq_none_iff]
  | .exists _ | .missing _ => iff_of_false (List.cons_ne_nil _ _) id
  | .and children => by
    -- outside any field a conjunction is not a group but part of the level
    cases scope with
    | none => exact Filter.flatPieces_eq_nil_iff children
    | some path => exact joinGroups_eq_nil_iff.trans (Filter.groups_eq_nil_iff (some path) children)
  | .or children => joinGroups_eq_nil_iff.trans (Filter.groups_eq_nil_iff scope children)
  | .field name operand => Operand.pieces_eq_nil_iff (scopedPath scope name) operand
  | .operator op => by
    cases scope with
    | none => exact iff_of_true rfl (.inl rfl)
    | some path =>
      exact (Operator.pieces_eq_nil_iff path op).trans
        (or_iff_right Bool.noConfusion).symm
  | .unsupported _ => iff_of_true rfl trivial

theorem Operand.pieces_eq_nil_iff (field : String) :
    (operand : Operand) → (operand.pieces field = [] ↔ operand.Silent)
  | .nested filter => groupPieces_eq_nil_iff.trans (Filter.pieces_eq_nil_iff (some field) filter)
  | .list _ => Option.toList_eq_nil_iff.trans Query.oneOf?_eq_none_iff
  | .literal _ | .null => iff_of_false (List.cons_ne_nil _ _) id

theorem Operator.pieces_eq_nil_iff (field : String) :
    (op : Operator) → (op.pieces field = [] ↔ op.Silent)
  | .neq operand => List.map_eq_nil_iff.trans (Operand.pieces_eq_nil_iff field operand)
  | .inq _ => Option.toList_eq_nil_iff.trans Query.oneOf?_eq_none_iff
  | .nin _ => Option.toList_eq_nil_iff.trans
    (Option.map_eq_none_iff.trans Query.oneOf?_eq_none_iff)
  | .gt _ | .gte _ | .lt _ | .lte _ | .between _ _ | .like _ | .nlike _ | .exists _
  | .missing _ => iff_of_false (List.cons_ne_nil _ _) id

/-- **A filter has no piece exactly when it is silent.** -/
theorem Filter.pieces_eq_nil_iff (scope : Option String) :
    (filter : List Clause) →
      (Filter.pieces scope filter = [] ↔ Filter.Silent scope.isSome filter)
  | [] => iff_of_true rfl trivial
  | clause :: rest => List.append_eq_nil_iff.trans
    (and_congr (Clause.pieces_eq_nil_iff scope clause) (Filter.pieces_eq_nil_iff scope rest))

theorem Filter.flatPieces_eq_nil_iff :
    (filters : List (List Clause)) →
      (Filter.flatPieces filters = [] ↔ Filter.AllSilent false filters)
  | [] => iff_of_true rfl trivial
  | filter :: rest => List.append_eq_nil_iff.trans
    (and_congr (Filter.pieces_eq_nil_iff none filter) (Filter.flatPieces_eq_nil_iff rest))

theorem Filter.groups_eq_nil_iff (scope : Option String) :
    (filters : List (List Clause)) →
      (Filter.groups scope filters = [] ↔ Filter.AllSilent scope.isSome filters)
  | [] => iff_of_true rfl trivial
  | filter :: rest => List.append_eq_nil_iff.trans (and_congr
    (groupPieces_eq_nil_iff.trans (Filter.pieces_eq_nil_iff scope filter))
    (Filter.groups_eq_nil_iff scope rest))

end

end UserDirectory
