import UserDirectory.Proofs.Query.Units

/-!
# What a compiled filter says

A filter denotes a formula (`Filter.formula`) without regard to any text: a
filter is the conjunction of its clauses, groups join their children in the
scope at hand, a nested object extends the path, a negation takes the whole
clause behind it, and whatever denotes nothing is left out.

Reading the compiled text gives this formula back, and gives it back whichever
of `AND` and `OR` is taken to bind tighter. The induction follows the compiler,
clause by clause. Two invariants carry it: the pieces of a level are units whose
formulas together are the formula of the level (`Level`), and a group, an
operand or an operator has one piece if it says anything and else none
(`Writes`). Everything about parentheses is in the lemmas on units.
-/

namespace UserDirectory

open Query (Formula Connective PlainName PlainScope Primary ReadsAs)

/-! ## Plain filters -/

mutual

/-- The clause holds no query text of the caller's and only plain names. -/
def Clause.Plain : Clause → Prop
  | .raw _ => False
  | .exists field | .missing field => PlainName field
  | .and children | .or children => Filter.AllPlain children
  | .field name operand => PlainName name ∧ operand.Plain
  | .operator op => op.Plain
  | .unsupported _ => True

/-- The operand holds only plain names. -/
def Operand.Plain : Operand → Prop
  | .nested filter => Filter.Plain filter
  | .literal _ | .null | .list _ => True

/-- The operator holds only plain names. -/
def Operator.Plain : Operator → Prop
  | .neq operand => operand.Plain
  | _ => True

/-- **The filter holds no query text of the caller's and only plain names.** -/
def Filter.Plain : List Clause → Prop
  | [] => True
  | clause :: rest => clause.Plain ∧ Filter.Plain rest

/-- Each of the filters is plain. -/
def Filter.AllPlain : List (List Clause) → Prop
  | [] => True
  | filter :: rest => Filter.Plain filter ∧ Filter.AllPlain rest

end

theorem Filter.plain_iff {f : Filter} : Filter.Plain f ↔ ∀ clause ∈ f, clause.Plain := by
  induction f with
  | nil => exact ⟨fun _ => nofun, fun _ => trivial⟩
  | cons clause rest ih => rw [Filter.Plain, ih, List.forall_mem_cons]

/-! ## The formula of a filter -/

/-- The field has the value. -/
def comparison (field : String) (value : Literal) : Formula := [.atom (.equals field value.term)]

mutual

/-- **The formula of a clause** in a scope. Query text of the caller's has none of
its own. -/
def Clause.formula (scope : Option String) : Clause → Formula
  | .raw _ => []
  | .exists field => [.atom (.present field)]
  | .missing field => [.atom (.absent field)]
  | .and children => Connective.and.combine (Filter.formulas scope children)
  | .or children => Formula.disj (Filter.formulas scope children)
  | .field name operand => operand.formula (scopedPath scope name)
  | .operator op =>
    match scope with
    | none => []
    | some path => op.formula path
  | .unsupported _ => []

/-- The formula of a field with its operand. -/
def Operand.formula (field : String) : Operand → Formula
  | .literal value => comparison field value
  | .null =>
    Formula.disj [comparison field (.string ""), comparison field (.number (.int 0)),
      [.atom (.absent field)]]
  | .list values => Formula.disj (values.map (comparison field))
  | .nested filter => Filter.formula (some field) filter

/-- The formula of an operator on a field. -/
def Operator.formula (field : String) : Operator → Formula
  | .inq values => Formula.disj (values.map (comparison field))
  | .nin values => (Formula.disj (values.map (comparison field))).negate
  | .neq operand => (operand.formula field).negate
  | .gt v => [.atom (.range field (some ⟨v.term.text, false⟩) none)]
  | .gte v => [.atom (.range field (some ⟨v.term.text, true⟩) none)]
  | .lt v => [.atom (.range field none (some ⟨v.term.text, false⟩))]
  | .lte v => [.atom (.range field none (some ⟨v.term.text, true⟩))]
  | .between lower upper =>
    [.atom (.range field (some ⟨lower.term.text, true⟩) (some ⟨upper.term.text, true⟩))]
  | .like pattern => comparison field pattern
  | .nlike pattern => (comparison field pattern).negate
  | .exists isThere => [.atom (if isThere then .present field else .absent field)]
  | .missing isAbsent => [.atom (if isAbsent then .absent field else .present field)]

/-- **The formula of a filter** in a scope: the conjunction of its clauses. -/
def Filter.formula (scope : Option String) : List Clause → Formula
  | [] => []
  | clause :: rest => clause.formula scope ++ Filter.formula scope rest

/-- The formulas of several filters in a scope. -/
def Filter.formulas (scope : Option String) : List (List Clause) → List Formula
  | [] => []
  | filter :: rest => Filter.formula scope filter :: Filter.formulas scope rest

end

theorem Filter.mem_formula_iff {scope : Option String} {f : Filter} {d : Query.Conjunct} :
    d ∈ Filter.formula scope f ↔ ∃ clause ∈ f, d ∈ clause.formula scope := by
  induction f with
  | nil =>
    refine ⟨fun h => absurd h List.not_mem_nil, ?_⟩
    rintro ⟨clause, h, -⟩
    exact absurd h List.not_mem_nil
  | cons clause rest ih =>
    simp only [Filter.formula, List.mem_append, ih, List.mem_cons, exists_eq_or_imp]

namespace Query

variable {tight : Connective}

/-! ## The two invariants -/

/-- **The texts are a level that says `f`**: units that all say something, their
conjunction being `f`. -/
def Level (tight : Connective) (ts : List String) (f : Formula) : Prop :=
  ∃ fs, List.Forall₂ (ReadsAs tight) ts fs ∧ (∀ g ∈ fs, g ≠ []) ∧ fs.flatten = f

/-- **The texts write the formulas**, one unit for each that asks something. -/
def Writes (tight : Connective) (ts : List String) (fs : List Formula) : Prop :=
  List.Forall₂ (ReadsAs tight) ts (Formula.stated fs)

theorem Level.nil : Level tight [] [] := ⟨[], .nil, nofun, rfl⟩

theorem Level.append {ts us : List String} {f g : Formula} (hf : Level tight ts f)
    (hg : Level tight us g) : Level tight (ts ++ us) (f ++ g) := by
  obtain ⟨fs, hfs, hne, rfl⟩ := hf
  obtain ⟨gs, hgs, hne', rfl⟩ := hg
  refine ⟨fs ++ gs, List.rel_append hfs hgs, fun h hmem => ?_, List.flatten_append⟩
  rcases List.mem_append.1 hmem with hmem | hmem
  · exact hne h hmem
  · exact hne' h hmem

/-- A level that says something has a text. -/
theorem Level.ne_nil {ts : List String} {f : Formula} (h : Level tight ts f) (hf : f ≠ []) :
    ts ≠ [] := by
  rintro rfl
  obtain ⟨fs, hfs, -, rfl⟩ := h
  cases hfs
  exact hf rfl

/-- What writes a formula is a level of it. -/
theorem Writes.level {ts : List String} {f : Formula} (h : Writes tight ts [f]) :
    Level tight ts f :=
  ⟨_, h, fun _ => Formula.ne_nil_of_mem_stated,
    (Formula.flatten_stated [f]).trans List.flatten_singleton⟩

theorem Writes.nil : Writes tight [] [[]] := List.Forall₂.nil

theorem Writes.single {text : String} {f : Formula} (h : ReadsAs tight text f) (hf : f ≠ []) :
    Writes tight [text] [f] := by
  rw [Writes, Formula.stated_singleton hf]
  exact .cons h .nil

theorem Writes.append {ts us : List String} {fs gs : List Formula} (hf : Writes tight ts fs)
    (hg : Writes tight us gs) : Writes tight (ts ++ us) (fs ++ gs) := by
  rw [Writes, Formula.stated_append]
  exact List.rel_append hf hg

/-- **The group of a level** writes the formula of the level. -/
theorem Level.writes_groupPieces {ts : List String} {f : Formula} (h : Level tight ts f) :
    Writes tight (groupPieces ts) [f] := by
  obtain ⟨fs, hfs, hne, rfl⟩ := h
  cases hfs with
  | nil => exact Writes.nil
  | @cons t g ts fs ht hrest =>
    cases hrest with
    | nil =>
      rw [List.flatten_singleton]
      exact Writes.single ht (hne g List.mem_cons_self)
    | @cons u h ts fs hu hrest =>
      have hp := Primary.paren .and (.cons ht (.cons hu hrest)) (List.cons_ne_nil _ _)
      exact Writes.single hp.readsAs (Connective.and.combine_ne_nil (List.cons_ne_nil _ _) hne)

/-- **The groups of a conjunction or disjunction**, joined, write the combination
of what they say. Parentheses may be left away around a single group only. -/
theorem Writes.joinGroups {groups : List String} {fs : List Formula} (c : Connective)
    (h : Writes tight groups fs) {enclosed : Bool} (hlen : enclosed = false → groups.length ≤ 1) :
    Writes tight (UserDirectory.joinGroups enclosed c.separator.intercalate groups)
      [c.combine (Formula.stated fs)] := by
  have hne : ∀ f ∈ Formula.stated fs, f ≠ [] := fun _ => Formula.ne_nil_of_mem_stated
  rw [Writes] at h
  -- the groups that ask nothing have no text, so only the stated ones are joined
  generalize Formula.stated fs = gs at h hne
  cases h with
  | nil => cases c <;> exact Writes.nil
  | @cons t g ts gs ht hrest =>
    have hgs := Connective.combine_ne_nil c (List.cons_ne_nil g gs) hne
    rw [UserDirectory.joinGroups, if_neg (by simp)]
    cases enclosed with
    | true =>
      exact Writes.single (Primary.paren c (.cons ht hrest) (List.cons_ne_nil _ _)).readsAs hgs
    | false =>
      obtain rfl : ts = [] := by simpa using hlen rfl
      cases hrest
      rw [if_neg Bool.false_ne_true, String.intercalate_singleton, Connective.combine_singleton]
      exact Writes.single ht (hne g List.mem_cons_self)

/-- A negation takes the whole of what it stands before. -/
theorem Writes.map_minus {ts : List String} {f : Formula} (h : Writes tight ts [f]) :
    Writes tight (ts.map fun piece => "-" ++ paren piece) [f.negate] := by
  by_cases hf : f = []
  · subst hf
    cases h
    exact Writes.nil
  · -- what asks something is written in one piece
    rw [Writes, Formula.stated_singleton hf] at h
    cases h with
    | cons ht hrest =>
      cases hrest
      have hneg : f.negate ≠ [] := by
        rw [Formula.negate_of_ne_nil hf]
        exact List.cons_ne_nil _ _
      exact Writes.single ht.paren.minus hneg

/-! ## Operands and operators -/

section Conditions

variable {field : String}

theorem stated_comparisons (field : String) (values : List Literal) :
    Formula.stated (values.map (comparison field)) = values.map (comparison field) := by
  refine Formula.stated_of_forall fun f hf => ?_
  obtain ⟨v, _, rfl⟩ := List.mem_map.1 hf
  exact List.cons_ne_nil _ _

/-- The text of a list of choices, if there are any, is a unit that a minus may
precede. -/
theorem primary_of_oneOf? (tight : Connective) (hf : PlainName field) {values : List Literal}
    {text : String} (h : oneOf? field values = some text) :
    Primary tight text (Formula.disj (values.map (comparison field))) ∧
      Formula.disj (values.map (comparison field)) ≠ [] := by
  rw [Formula.disj, stated_comparisons]
  cases values with
  | nil => exact absurd h (by simp [oneOf?])
  | cons v vs =>
    obtain rfl : field ++ ":" ++ paren (disjoin ((v :: vs).map Literal.text)) = text := by
      simpa [oneOf?] using h
    refine ⟨primary_oneOf hf v vs, Connective.or.combine_ne_nil (List.cons_ne_nil _ _) ?_⟩
    intro f hmem
    obtain ⟨w, _, rfl⟩ := List.mem_map.1 hmem
    exact List.cons_ne_nil _ _

/-- **A list of choices** writes their disjunction. -/
theorem writes_oneOf (hf : PlainName field) (values : List Literal) :
    Writes tight (oneOf? field values).toList
      [Formula.disj (values.map (comparison field))] := by
  cases h : oneOf? field values with
  | none =>
    obtain rfl : values = [] := by simpa [oneOf?] using h
    exact Writes.nil
  | some text =>
    obtain ⟨hp, hne⟩ := primary_of_oneOf? tight hf h
    exact Writes.single hp.readsAs hne

/-- A list of choices behind a minus writes the negation. -/
theorem writes_noneOf (hf : PlainName field) (values : List Literal) :
    Writes tight ((oneOf? field values).map ("-" ++ ·)).toList
      [(Formula.disj (values.map (comparison field))).negate] := by
  cases h : oneOf? field values with
  | none =>
    obtain rfl : values = [] := by simpa [oneOf?] using h
    exact Writes.nil
  | some text =>
    obtain ⟨hp, hne⟩ := primary_of_oneOf? tight hf h
    refine Writes.single hp.minus ?_
    rw [Formula.negate_of_ne_nil hne]
    exact List.cons_ne_nil _ _

/-- **An empty, zero or missing field** is a disjunction of three comparisons. -/
theorem writes_blank (hf : PlainName field) :
    Writes tight [blank field] [Operand.formula field .null] := by
  have hp : Primary tight (blank field) (Connective.or.combine
      [comparison field (.string ""), comparison field (.number (.int 0)),
        [.atom (.absent field)]]) := by
    have htext : blank field = paren (Connective.or.separator.intercalate
        [equals field (.string ""), equals field (.number (.int 0)), absent field]) := by
      have hempty : equals field (.string "") = field ++ ":\"\"" := String.append_assoc
      have hzero : equals field (.number (.int 0)) = field ++ ":0" := String.append_assoc
      rw [hempty, hzero]
      rfl
    rw [htext]
    exact Primary.paren .or (.cons (primary_equals hf _).readsAs
      (.cons (primary_equals hf _).readsAs (.cons (primary_absent hf).readsAs .nil)))
      (List.cons_ne_nil _ _)
  exact Writes.single hp.readsAs (List.cons_ne_nil _ _)

/-- A range with its text spelled out. -/
theorem writes_range (hf : PlainName field) (i j : Bool) (lower upper : Option Literal)
    {text : String} (htext : text.toList = field.toList ++ [':'] ++ [openBracket i] ++
      (endText lower).toList ++ " TO ".toList ++ (endText upper).toList ++ [closeBracket j]) :
    Writes tight [text] [[.atom (.range field (endOf i lower) (endOf j upper))]] :=
  Writes.single (primary_range hf i j lower upper htext).readsAs (List.cons_ne_nil _ _)

/-- **The operators that hold no operand of their own.** -/
theorem writes_operator (hf : PlainName field) {op : Operator}
    (hneq : ∀ operand, op ≠ .neq operand) :
    Writes tight (op.pieces field) [op.formula field] := by
  cases op with
  | inq values => exact writes_oneOf hf values
  | nin values => exact writes_noneOf hf values
  | neq operand => exact absurd rfl (hneq operand)
  | gt v =>
    exact writes_range hf false true (some v) none
      (by simp [above, endText, openBracket, closeBracket])
  | gte v =>
    exact writes_range hf true true (some v) none
      (by simp [atLeast, endText, openBracket, closeBracket])
  | lt v =>
    exact writes_range hf true false none (some v)
      (by simp [below, endText, openBracket, closeBracket])
  | lte v =>
    exact writes_range hf true true none (some v)
      (by simp [atMost, endText, openBracket, closeBracket])
  | between lower upper =>
    exact writes_range hf true true (some lower) (some upper)
      (by simp [within, endText, openBracket, closeBracket])
  | like pattern => exact Writes.single (primary_equals hf pattern).readsAs (List.cons_ne_nil _ _)
  | nlike pattern => exact Writes.single (primary_equals hf pattern).minus (List.cons_ne_nil _ _)
  | «exists» isThere =>
    exact Writes.single (primary_operand hf isThere).readsAs (List.cons_ne_nil _ _)
  | missing isAbsent =>
    cases isAbsent with
    | true => exact Writes.single (primary_absent hf).readsAs (List.cons_ne_nil _ _)
    | false => exact Writes.single (primary_present hf).readsAs (List.cons_ne_nil _ _)

end Conditions

/-! ## The induction -/

mutual

theorem level_clause {scope : Option String} (hs : PlainScope scope) :
    (clause : Clause) → clause.Plain → Level tight (clause.pieces scope) (clause.formula scope)
  | .raw _, h => h.elim
  | .exists _, h => (Writes.single (primary_present h).readsAs (List.cons_ne_nil _ _)).level
  | .missing _, h => (Writes.single (primary_absent h).readsAs (List.cons_ne_nil _ _)).level
  | .and children, h => by
    cases scope with
    | none => exact level_flatPieces children h
    | some path =>
      have hw : Writes tight (joinGroups true conjoin (Filter.groups (some path) children))
          [Connective.and.combine (Formula.stated (Filter.formulas (some path) children))] :=
        Writes.joinGroups .and (writes_groups hs children h) nofun
      -- to a conjunction it makes no difference that they are left out
      rw [Connective.combine, Formula.flatten_stated] at hw
      exact hw.level
  | .or children, h => by
    refine (Writes.joinGroups .or (writes_groups hs children h) fun henc => ?_).level
    have hlen : ¬1 < (Filter.groups scope children).length := by
      simpa using (Bool.or_eq_false_iff.1 henc).2
    omega
  | .field name operand, h => (writes_operand (h.1.scoped hs) operand h.2).level
  | .operator op, h => by
    cases scope with
    | none => exact Level.nil
    | some path => exact (writes_operators (hs path rfl) op h).level
  | .unsupported _, _ => Level.nil

theorem writes_operand {field : String} (hf : PlainName field) :
    (operand : Operand) → operand.Plain →
      Writes tight (operand.pieces field) [operand.formula field]
  | .literal value, _ =>
    Writes.single (primary_equals hf value).readsAs (List.cons_ne_nil _ _)
  | .null, _ => writes_blank hf
  | .list values, _ => writes_oneOf hf values
  | .nested filter, h =>
    (level_filter (PlainScope.some hf) filter h).writes_groupPieces

theorem writes_operators {field : String} (hf : PlainName field) :
    (op : Operator) → op.Plain → Writes tight (op.pieces field) [op.formula field]
  | .neq operand, h => (writes_operand hf operand h).map_minus
  | .inq _, _ | .nin _, _ | .gt _, _ | .gte _, _ | .lt _, _ | .lte _, _ | .between _ _, _
  | .like _, _ | .nlike _, _ | .exists _, _ | .missing _, _ => writes_operator hf nofun

/-- **The pieces of a plain filter are a level of its formula.** -/
theorem level_filter {scope : Option String} (hs : PlainScope scope) :
    (filter : List Clause) → Filter.Plain filter →
      Level tight (Filter.pieces scope filter) (Filter.formula scope filter)
  | [], _ => Level.nil
  | clause :: rest, h => (level_clause hs clause h.1).append (level_filter hs rest h.2)

theorem level_flatPieces :
    (filters : List (List Clause)) → Filter.AllPlain filters →
      Level tight (Filter.flatPieces filters) (Filter.formulas none filters).flatten
  | [], _ => Level.nil
  | filter :: rest, h =>
    (level_filter PlainScope.none filter h.1).append (level_flatPieces rest h.2)

theorem writes_groups {scope : Option String} (hs : PlainScope scope) :
    (filters : List (List Clause)) → Filter.AllPlain filters →
      Writes tight (Filter.groups scope filters) (Filter.formulas scope filters)
  | [], _ => List.Forall₂.nil
  | filter :: rest, h =>
    (level_filter hs filter h.1).writes_groupPieces.append (writes_groups hs rest h.2)

end

/-! ## The text of a filter -/

/-- **Reading a compiled filter gives what the filter denotes**, whichever of
`AND` and `OR` binds tighter. -/
theorem read_compile_eq_formula (filter : Filter) (h : Filter.Plain filter) (tight : Connective) :
    read? tight filter.compile.query = some (Filter.formula none filter) := by
  obtain ⟨fs, hfs, -, hflat⟩ := @level_filter tight _ PlainScope.none filter h
  show read? tight (conjoin (Filter.pieces none filter)) = _
  rw [read?_conjoin hfs, hflat]

/-- A filter with groups in groups, a negated object, an empty list, a dropped
operator and a value that looks like syntax. -/
def layeredFilter : Filter :=
  [.or [[.field "a" (.literal (.number (.int (-1)))), .field "b" (.nested [.operator (.nin [])])],
      [.field "c" (.nested [.or [[.field "d" .null], [.operator (.neq (.list [.bool true]))]]])]],
    .field "name" (.literal (.string "x\\\" OR (")),
    .field "e" (.nested [.operator (.neq (.nested [.operator (.gt (.string "a] OR b:*")),
      .operator (.lt (.number (.int 5)))])), .unsupported "near"])]

theorem read_compile_layeredFilter :
    Filter.Plain layeredFilter ∧
      layeredFilter.compile.query =
        "(a:-1 OR ((c.d:\"\" OR c.d:0 OR _missing_:c.d) OR -(c:(true)))) AND " ++
          "name:\"x\\\\\\\" OR (\" AND -((e:\x7b\"a] OR b:*\" TO *] AND e:[* TO 5\x7d))" ∧
      read? .or layeredFilter.compile.query = some (Filter.formula none layeredFilter) := by
  have hplain : Filter.Plain layeredFilter := by
    simp only [layeredFilter, Filter.Plain, Clause.Plain, Operand.Plain, Operator.Plain,
      Filter.AllPlain]
    decide
  exact ⟨hplain, by decide +kernel, read_compile_eq_formula layeredFilter hplain .or⟩

end Query

end UserDirectory
