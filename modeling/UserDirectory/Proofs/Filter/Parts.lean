import UserDirectory.Proofs.Search.Layers

/-!
# Parts of a query

A query is written out of texts that have been written before: the pieces of a level with
a word between them, such a text in parentheses, or behind a sign. Nothing that has been
written is taken apart again, so that it stands in the query as it is (`StandsIn`).

A level inside another clause, which is what a nested object, a branch of a group or the
operand of an inequality is, is one text at most (`levelText?`). Parentheses are what keeps
the level together: it has them if it has more than one piece.

A clause without levels names a field and some values, or a text of its own. These terms
(`Clause.terms`) stand in every piece of it (`Clause.mentions_terms`).
-/

namespace UserDirectory

/-! ## Texts in texts -/

/-- **One text stands in another**, whatever is before it and behind it. -/
def StandsIn (part text : String) : Prop := ∃ before behind, text = before ++ part ++ behind

namespace StandsIn

theorem between (before part behind : String) : StandsIn part (before ++ part ++ behind) :=
  ⟨before, behind, rfl⟩

theorem left (part behind : String) : StandsIn part (part ++ behind) :=
  ⟨"", behind, by rw [String.empty_append]⟩

theorem right (before part : String) : StandsIn part (before ++ part) :=
  ⟨before, "", String.append_empty.symm⟩

theorem refl (text : String) : StandsIn text text :=
  ⟨"", "", by rw [String.empty_append, String.append_empty]⟩

theorem trans {part text whole : String} (h : StandsIn part text) (h' : StandsIn text whole) :
    StandsIn part whole := by
  obtain ⟨before, behind, rfl⟩ := h
  obtain ⟨farBefore, farBehind, rfl⟩ := h'
  exact ⟨farBefore ++ before, behind ++ farBehind, by simp only [String.append_assoc]⟩

/-- **What is joined stands in the join.** -/
theorem intercalate {part : String} {parts : List String} (h : part ∈ parts)
    (separator : String) : StandsIn part (separator.intercalate parts) := by
  obtain ⟨before, behind, rfl⟩ := List.append_of_mem h
  -- what comes before the part, and what comes behind, may be nothing
  have hlast : StandsIn part (separator.intercalate (part :: behind)) := by
    cases behind with
    | nil =>
      rw [String.intercalate_singleton]
      exact .refl part
    | cons next rest =>
      rw [String.intercalate_cons_cons, String.append_assoc]
      exact .left part _
  by_cases hbefore : before = []
  · rwa [hbefore, List.nil_append]
  · rw [String.intercalate_append_of_ne_nil hbefore (List.cons_ne_nil _ _)]
    exact hlast.trans (.right _ _)

end StandsIn

/-- **A text mentions some others**: each of them stands in it. -/
def Mentions (text : String) (parts : List String) : Prop := ∀ part ∈ parts, StandsIn part text

namespace Mentions

theorem nil (text : String) : Mentions text [] := nofun

theorem cons {text part : String} {parts : List String} (h : StandsIn part text)
    (hparts : Mentions text parts) : Mentions text (part :: parts) :=
  List.forall_mem_cons.2 ⟨h, hparts⟩

theorem single {text part : String} (h : StandsIn part text) : Mentions text [part] :=
  .cons h (.nil text)

theorem within {text whole : String} {parts : List String} (h : Mentions text parts)
    (hwhole : StandsIn text whole) : Mentions whole parts :=
  fun part hpart => (h part hpart).trans hwhole

end Mentions

/-! ## The text of a level -/

/-- **The text of a level inside another clause**: its pieces with ` AND ` between them, in
parentheses if there is more than one. A level without pieces has no text. -/
def levelText? (pieces : List String) : Option String :=
  if pieces = [] then none
  else some (if 1 < pieces.length then "(" ++ " AND ".intercalate pieces ++ ")"
    else " AND ".intercalate pieces)

theorem groupPieces_eq_levelText? (pieces : List String) :
    groupPieces pieces = (levelText? pieces).toList := by
  match pieces with
  | [] => rfl
  | [piece] =>
    show [piece] = [" AND ".intercalate [piece]]
    rw [String.intercalate_singleton]
  | _ :: _ :: _ => rfl

/-- **The groups of several filters** are their texts, as far as they have one. -/
theorem Filter.groups_eq_filterMap (scope : Option String) (fs : List Filter) :
    Filter.groups scope fs = fs.filterMap fun f => levelText? (Filter.pieces scope f) := by
  rw [groups_eq_flatMap, List.flatMap_map, List.filterMap_eq_flatMap_toList]
  exact congrArg (fun texts => fs.flatMap texts) (funext fun f => groupPieces_eq_levelText? _)

theorem joinGroups_of_ne_nil {groups : List String} (h : groups ≠ []) (enclosed : Bool)
    (join : List String → String) :
    joinGroups enclosed join groups =
      if enclosed then ["(" ++ join groups ++ ")"] else [join groups] := by
  rw [joinGroups, if_neg fun hempty => h (List.isEmpty_iff.1 hempty)]
  cases enclosed <;> rfl

/-- **Each piece of a level stands in its text.** -/
theorem exists_levelText? {piece : String} {pieces : List String} (h : piece ∈ pieces) :
    ∃ text, levelText? pieces = some text ∧ StandsIn piece text := by
  have hjoined : StandsIn piece (" AND ".intercalate pieces) := .intercalate h " AND "
  unfold levelText?
  rw [if_neg (List.ne_nil_of_mem h)]
  refine ⟨_, rfl, ?_⟩
  split
  · exact hjoined.trans (.between "(" _ ")")
  · exact hjoined

/-! ## Terms -/

/-- The field that an operand is for, and the values in it. -/
def Operand.terms (field : String) : Operand → List String
  | .literal value => [field, value.text]
  | .null => [field]
  | .list values => field :: values.map Literal.text
  | .nested _ => []

/-- The field that an operator is for, and its values as they are written there. -/
def Operator.terms (field : String) : Operator → List String
  | .inq values | .nin values => field :: values.map Literal.text
  | .neq operand => operand.terms field
  | .gt v | .gte v | .lt v | .lte v => [field, Query.bound v]
  | .between lower upper => [field, Query.bound lower, Query.bound upper]
  | .like pattern | .nlike pattern => [field, pattern.text]
  | .exists _ | .missing _ => [field]

/-- **The terms of a clause** in a scope: its field and its values, or its own text. -/
def Clause.terms (scope : Option String) : Clause → List String
  | .raw text => [trimBlanks text]
  | .exists name | .missing name => [name]
  | .field name operand => operand.terms (scopedPath scope name)
  | .operator op => scope.elim [] op.terms
  | .and _ | .or _ | .unsupported _ => []

namespace Query

/-- A field with a value between two signs. -/
theorem mentions_between (field opening value closing : String) :
    Mentions (field ++ opening ++ value ++ closing) [field, value] := by
  refine .cons ?_ (.single (.between _ _ _))
  rw [String.append_assoc, String.append_assoc]
  exact .left field _

theorem mentions_equals (field : String) (value : Literal) :
    Mentions (equals field value) [field, value.text] := by
  rw [equals, ← String.append_empty (s := field ++ ":" ++ value.text)]
  exact mentions_between field ":" value.text ""

theorem mentions_within (field : String) (lower upper : Literal) :
    Mentions (within field lower upper) [field, bound lower, bound upper] := by
  have hfront : StandsIn (field ++ ":[" ++ bound lower ++ " TO ") (within field lower upper) :=
    (StandsIn.left _ (bound upper)).trans (.left _ "]")
  have hupper : StandsIn (bound upper) (within field lower upper) := .between _ _ "]"
  have hlower := (mentions_between field ":[" (bound lower) " TO ").within hfront
  exact List.forall_mem_append.2 ⟨hlower, Mentions.single hupper⟩

theorem mentions_oneOf? {field text : String} {values : List Literal}
    (h : oneOf? field values = some text) :
    Mentions text (field :: values.map Literal.text) := by
  unfold oneOf? at h
  split at h
  · cases h
  · cases h
    rw [String.append_assoc]
    refine .cons (.left field _) fun value hvalue => ?_
    have hjoined : StandsIn value (disjoin (values.map Literal.text)) := .intercalate hvalue " OR "
    exact (hjoined.trans (.between "(" _ ")")).trans ((StandsIn.right ":" _).trans (.right field _))

theorem standsIn_verbatim? {text piece : String} (h : verbatim? text = some piece) :
    StandsIn (trimBlanks text) piece := by
  unfold verbatim? at h
  dsimp only at h
  split at h
  · cases h
    exact .between "(" _ ")"
  · split at h
    · cases h
    · cases h
      exact .refl _

theorem standsIn_blank (field : String) : StandsIn field (blank field) := by
  have hjoined : StandsIn (absent field) (disjoin [field ++ ":\"\"", field ++ ":0", absent field]) :=
    .intercalate (by simp) " OR "
  exact ((StandsIn.right "_missing_:" field).trans hjoined).trans (.between "(" _ ")")

theorem standsIn_existence (field : String) (isThere : Bool) :
    StandsIn field (if isThere then present field else absent field) := by
  cases isThere
  · exact .right "_missing_:" field
  · exact .right "_exists_:" field

end Query

theorem Operand.mentions_terms (field : String) (operand : Operand) :
    ∀ text ∈ operand.pieces field, Mentions text (operand.terms field) := by
  cases operand with
  | literal value => exact List.forall_mem_singleton.2 (Query.mentions_equals field value)
  | null => exact List.forall_mem_singleton.2 (.single (Query.standsIn_blank field))
  | list values => exact fun _ h => Query.mentions_oneOf? (Option.mem_toList.1 h)
  | nested _ => exact fun text _ => .nil text

theorem Operator.mentions_terms (field : String) (op : Operator) :
    ∀ text ∈ op.pieces field, Mentions text (op.terms field) := by
  cases op with
  | inq values => exact fun _ h => Query.mentions_oneOf? (Option.mem_toList.1 h)
  | nin values =>
    intro text h
    obtain ⟨list, hlist, rfl⟩ := Option.map_eq_some_iff.1 (Option.mem_toList.1 h)
    exact (Query.mentions_oneOf? hlist).within (.right "-" list)
  | neq operand =>
    intro text h
    obtain ⟨piece, hpiece, rfl⟩ := List.mem_map.1 h
    have hnegated : StandsIn piece ("-" ++ Query.paren piece) :=
      (StandsIn.between "(" piece ")").trans (.right "-" _)
    exact (operand.mentions_terms field piece hpiece).within hnegated
  | gt v | gte v | lt v | lte v =>
    exact List.forall_mem_singleton.2 (Query.mentions_between field _ (Query.bound v) _)
  | between lower upper =>
    exact List.forall_mem_singleton.2 (Query.mentions_within field lower upper)
  | like pattern => exact List.forall_mem_singleton.2 (Query.mentions_equals field pattern)
  | nlike pattern =>
    exact List.forall_mem_singleton.2 ((Query.mentions_equals field pattern).within (.right "-" _))
  | «exists» isThere =>
    exact List.forall_mem_singleton.2 (.single (Query.standsIn_existence field isThere))
  | missing isAbsent =>
    refine List.forall_mem_singleton.2 (.single ?_)
    cases isAbsent
    · exact Query.standsIn_existence field true
    · exact Query.standsIn_existence field false

/-- **The terms of a clause stand in every piece of it.** -/
theorem Clause.mentions_terms (scope : Option String) (clause : Clause) :
    ∀ text ∈ clause.pieces scope, Mentions text (clause.terms scope) := by
  match clause with
  | .raw text =>
    exact fun piece h => .single (Query.standsIn_verbatim? (Option.mem_toList.1 h))
  | .exists name => exact List.forall_mem_singleton.2 (.single (.right "_exists_:" name))
  | .missing name => exact List.forall_mem_singleton.2 (.single (.right "_missing_:" name))
  | .field name operand => exact operand.mentions_terms (scopedPath scope name)
  | .operator op =>
    cases scope with
    | none => exact nofun
    | some path => exact op.mentions_terms path
  | .and _ | .or _ | .unsupported _ => exact fun text _ => .nil text

end UserDirectory
