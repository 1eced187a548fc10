import UserDirectory.Proofs.Filter.Grammar
import UserDirectory.Proofs.Filter.Names
import UserDirectory.Proofs.Record.WellFormed

/-!
# What the reader of filters accepts

The reader goes through an object in the order of its keys and stops at the first value
that it cannot use. A walk of the same object meets every place of which the grammar
asks something, in the same order, and says of each whether its value has the form that
is asked. So one statement settles the result of every part of the reader: if there are
no offences on the walk of what it reads, it gives a value, and otherwise the first of
them (`Settled`). A sequence of two steps has the offences of both (`Settled.bind`), and
this is the only rule by which the statement is carried from the readers of operands to
that of whole filters.

What is given is settled along with it: the filter has one clause for each entry, in
their order, which says what the entry spells (`Filter.Spelled`), and its levels lie no
deeper than 32. Depth is checked where a filter is entered, so that the bound is one of
the offences, and holds of each level on whichever way it is reached.
-/

namespace UserDirectory

/-! ## The keys of the reader -/

/-- What the reader asks of the value under a keyword. -/
def Keyword.demand : Keyword → Demand
  | .inq | .nin => .choice
  | .neq => .operand
  | .gt | .gte | .lt | .lte => .bound
  | .between => .range
  | .like | .nlike => .pattern
  | .exists | .missing => .flag

/-- What the reader asks of the value under a key. -/
def FilterKey.demand : FilterKey → Demand
  | .raw | .exists | .missing => .text
  | .and | .or => .group
  | .unsupported => .anything
  | .operator keyword => keyword.demand
  | .field => .operand

/-- The keys with a meaning of their own, but for those that begin with a dollar sign. -/
def namedKeys : List String :=
  ["$where", "$search", "$exists", "_exists_", "$missing", "_missing_", "and", "or"] ++
    unsupportedOperators ++ Keyword.all.map Keyword.name

theorem Demand.ofKey_eq (key : String) : Demand.ofKey key = (FilterKey.ofKey key).demand := by
  by_cases hnamed : key ∈ namedKeys
  · revert key
    decide +kernel
  · -- a key that is not listed has a dollar sign, or is the name of a field
    have hkeyword : Keyword.ofName? key = none := List.find?_eq_none.2 fun keyword hmem hname =>
      hnamed (List.mem_append_right _ (beq_iff_eq.1 hname ▸ List.mem_map_of_mem hmem))
    simp only [namedKeys, unsupportedOperators, Keyword.all, Keyword.name, List.map_cons,
      List.map_nil, List.mem_append, List.mem_cons, List.not_mem_nil, or_false, not_or] at hnamed
    by_cases hdollar : key.toList.head? = some '$' <;>
      simp [Demand.ofKey, FilterKey.ofKey, unsupportedOperators, startsWithDollar, hnamed, hdollar,
        hkeyword, FilterKey.demand]

/-! ## Filters and what spells them -/

mutual

/-- **The entry spells the clause.** -/
def Clause.Spelled (key : String) (v : Json) : Clause → Prop
  | .raw text => (key = "$where" ∨ key = "$search") ∧ v = .str text
  | .exists field => (key = "$exists" ∨ key = "_exists_") ∧ v = .str field
  | .missing field => (key = "$missing" ∨ key = "_missing_") ∧ v = .str field
  | .and children => key = "and" ∧ ∃ items, v = .arr items ∧ Filter.AllSpelled items children
  | .or children => key = "or" ∧ ∃ items, v = .arr items ∧ Filter.AllSpelled items children
  | .field name operand =>
    name = key ∧ Demand.ofKey key = .operand ∧ key ≠ "neq" ∧ operand.Spelled v
  | .operator op => op.keyword.name = key ∧ op.Spelled v
  | .unsupported name => name = key ∧ Demand.ofKey key = .anything

/-- The value spells the operand. -/
def Operand.Spelled (v : Json) : Operand → Prop
  | .literal value => v = value.toJson
  | .null => v = .null
  | .list values => v = .arr (values.map Literal.toJson)
  | .nested filter =>
    ∃ fields, v = .obj fields ∧ Table.Ordered fields ∧ Filter.Spelled fields filter

/-- The value spells the operator, beside its keyword. -/
def Operator.Spelled (v : Json) : Operator → Prop
  | .inq values | .nin values =>
    v = .arr (values.map Literal.toJson) ∨ (v = .null ∧ values = []) ∨
      ∃ value, v = value.toJson ∧ values = [value]
  | .neq operand => operand.Spelled v
  | .gt value | .gte value | .lt value | .lte value => v = value.toJson
  | .between lower upper => v = .arr [lower.toJson, upper.toJson]
  | .like pattern | .nlike pattern => v = pattern.toJson ∨ v = .arr [pattern.toJson]
  | .exists present => v = .bool present
  | .missing absent => v = .bool absent

/-- **The entries spell the filter**: one clause for each, in their order. -/
def Filter.Spelled (fields : List (String × Json)) : List Clause → Prop
  | [] => fields = []
  | clause :: rest => ∃ key v others, fields = (key, v) :: others ∧ clause.Spelled key v ∧
      Filter.Spelled others rest

/-- The items spell the filters, one filter each. -/
def Filter.AllSpelled (items : List Json) : List (List Clause) → Prop
  | [] => items = []
  | filter :: rest => ∃ fields others, items = .obj fields :: others ∧ Table.Ordered fields ∧
      Filter.Spelled fields filter ∧ Filter.AllSpelled others rest

end

mutual

/-- How many levels of filters lie below the one that a clause belongs to. -/
def Clause.levels : Clause → Nat
  | .and children | .or children => Filter.levelsAll children
  | .field _ operand => operand.levels
  | .operator op => op.levels
  | .raw _ | .exists _ | .missing _ | .unsupported _ => 0

/-- How many levels of filters an operand holds. -/
def Operand.levels : Operand → Nat
  | .nested filter => Filter.levels filter + 1
  | .literal _ | .null | .list _ => 0

/-- How many levels of filters an operator holds. -/
def Operator.levels : Operator → Nat
  | .neq operand => operand.levels
  | _ => 0

/-- **How many levels of filters lie below a filter.** -/
def Filter.levels : List Clause → Nat
  | [] => 0
  | clause :: rest => max clause.levels (Filter.levels rest)

/-- How many levels of filters several members of a group make. -/
def Filter.levelsAll : List (List Clause) → Nat
  | [] => 0
  | filter :: rest => max (Filter.levels filter + 1) (Filter.levelsAll rest)

end

/-! ## Settled results -/

section

variable {ε α β : Type}

/-- **The offences settle the result**: if there is none, it is a value with the
property, and otherwise the first of them. -/
def Settled (offences : List ε) (P : α → Prop) : Except ε α → Prop
  | .ok a => offences = [] ∧ P a
  | .error e => offences.head? = some e

namespace Settled

variable {xs ys : List ε} {P : α → Prop} {Q : β → Prop} {x : Except ε α}

/-- **Step by step**, the offences of a later step count behind those of an earlier
one. -/
theorem bind {f : α → Except ε β} (hx : Settled xs P x) (hf : ∀ a, P a → Settled ys Q (f a)) :
    Settled (xs ++ ys) Q (x >>= f) := by
  cases x with
  | error e =>
    show (xs ++ ys).head? = some e
    rw [List.head?_append, show xs.head? = some e from hx, Option.some_or]
  | ok a =>
    obtain ⟨rfl, ha⟩ := hx
    exact hf a ha

/-- A later step that cannot fail has no offences. -/
theorem bind_of_ok {f : α → Except ε β} (hx : Settled xs P x)
    (hf : ∀ a, P a → ∃ b, f a = .ok b ∧ Q b) : Settled xs Q (x >>= f) := by
  rw [← List.append_nil xs]
  refine hx.bind fun a ha => ?_
  obtain ⟨b, hb, hq⟩ := hf a ha
  exact hb ▸ ⟨rfl, hq⟩

theorem map {f : α → β} (hx : Settled xs P x) (hf : ∀ a, P a → Q (f a)) :
    Settled xs Q (x.map f) :=
  hx.bind_of_ok fun a ha => ⟨f a, rfl, hf a ha⟩

/-- What a value has that was given. -/
theorem of_ok (hx : Settled xs P x) {a : α} (h : x = .ok a) : P a := by
  subst h
  exact hx.2

/-- There is a value exactly if there are no offences. -/
theorem ok_iff (hx : Settled xs P x) : (∃ a, x = .ok a) ↔ xs = [] := by
  cases x with
  | error e =>
    have hhead : xs.head? = some e := hx
    constructor
    · rintro ⟨a, h⟩
      cases h
    · rintro rfl
      cases hhead
  | ok a => exact iff_of_true ⟨a, rfl⟩ hx.1

/-- The error is the first offence. -/
theorem error_iff (hx : Settled xs P x) {e : ε} : x = .error e ↔ xs.head? = some e := by
  cases x with
  | error e' =>
    have hhead : xs.head? = some e' := hx
    rw [hhead, Option.some_inj]
    exact ⟨Except.error.inj, congrArg Except.error⟩
  | ok a =>
    obtain ⟨rfl, -⟩ := hx
    constructor
    · intro h
      cases h
    · intro h
      cases h

theorem imp {P' : α → Prop} (hx : Settled xs P x) (h : ∀ a, P a → P' a) : Settled xs P' x := by
  cases x with
  | error e => exact hx
  | ok a => exact ⟨hx.1, h a hx.2⟩

end Settled

end

/-! ## Operands -/

section

variable {depth : Nat} {key : String} {v : Json}

theorem settled_expectString (hd : Demand.ofKey key = .text) :
    Settled (entryOffences depth key v) (fun s => v = .str s) (expectString key v) := by
  unfold entryOffences
  rw [hd]
  cases v <;> simp [Json.partsBelow, offences, hd, Demand.refusal?, expectString, Settled]

theorem settled_expectBool (hd : Demand.ofKey key = .flag) :
    Settled (entryOffences depth key v) (fun b => v = .bool b) (expectBool key v) := by
  unfold entryOffences
  rw [hd]
  cases v <;> simp [Json.partsBelow, offences, hd, Demand.refusal?, expectBool, Settled]

/-- A scalar is read as a literal, and anything else gives the error. -/
theorem settled_literal (e : FilterError) :
    Settled (if v.isScalar then none else some e).toList (fun l => v = l.toJson)
      (match Literal.ofJson? v with
      | some l => .ok l
      | none => .error e) := by
  cases v with
  | null | arr _ | obj _ => exact rfl
  | bool _ | num _ | str _ => exact ⟨rfl, rfl⟩

theorem settled_expectScalar (hd : Demand.ofKey key = .bound) :
    Settled (entryOffences depth key v) (fun l => v = l.toJson) (expectScalar key v) := by
  have hbelow : v.partsBelow depth key = [] := by
    cases v <;> simp [Json.partsBelow, hd]
  rw [entryOffences, hd, hbelow, offences, List.filterMap_nil, List.append_nil]
  exact settled_literal _

theorem settled_expectScalars (items : List Json) :
    Settled (offences (items.map fun v => ⟨.item key .scalars, v⟩))
      (fun values => items = values.map Literal.toJson) (expectScalars key items) := by
  induction items with
  | nil => exact ⟨rfl, rfl⟩
  | cons v rest ih =>
    unfold expectScalars at ih ⊢
    rw [List.mapM_cons, List.map_cons, offences_cons]
    refine (settled_literal _).bind fun value hvalue => ?_
    exact ih.bind_of_ok fun values hvalues =>
      ⟨value :: values, rfl, congrArg₂ List.cons hvalue hvalues⟩

theorem settled_expectList (hd : Demand.ofKey key = .choice) :
    Settled (entryOffences depth key v)
      (fun values => v = .arr (values.map Literal.toJson) ∨ (v = .null ∧ values = []) ∨
        ∃ value, v = value.toJson ∧ values = [value]) (expectList key v) := by
  cases v with
  | null =>
    rw [entryOffences, hd]
    exact ⟨rfl, .inr (.inl ⟨rfl, rfl⟩)⟩
  | arr items =>
    rw [entryOffences, hd, Json.partsBelow, hd]
    exact (settled_expectScalars items).imp fun values h => .inl (h ▸ rfl)
  | bool _ | num _ | str _ =>
    rw [entryOffences, hd]
    exact ⟨rfl, .inr (.inr ⟨_, rfl, rfl⟩)⟩
  | obj _ =>
    rw [entryOffences, hd]
    exact rfl

theorem settled_expectPair (hd : Demand.ofKey key = .range) :
    Settled (entryOffences depth key v)
      (fun bounds => v = .arr [bounds.1.toJson, bounds.2.toJson]) (expectPair key v) := by
  rw [entryOffences, hd]
  match v with
  | .arr [lower, upper] =>
    rw [Json.partsBelow, hd]
    refine (settled_expectScalars [lower, upper]).bind_of_ok fun values hvalues => ?_
    match values with
    | [l, u] =>
      obtain ⟨rfl, rfl⟩ : lower = l.toJson ∧ upper = u.toJson := by simpa using hvalues
      exact ⟨(l, u), rfl, rfl⟩
    | [] | [_] | _ :: _ :: _ :: _ => exact absurd (congrArg List.length hvalues) (by simp)
  | .arr [] => exact rfl
  | .arr [_] => exact rfl
  | .arr (_ :: _ :: _ :: rest) =>
    simp [Demand.refusal?, Settled, expectPair]
  | .null | .bool _ | .num _ | .str _ | .obj _ => exact rfl

theorem settled_expectPattern (hd : Demand.ofKey key = .pattern) :
    Settled (entryOffences depth key v)
      (fun pattern => v = pattern.toJson ∨ v = .arr [pattern.toJson]) (expectPattern key v) := by
  rw [entryOffences, hd]
  match v with
  | .arr [item] =>
    rw [Json.partsBelow, hd]
    exact (settled_literal (.invalidOperand key .scalar)).imp fun l hl => .inr (hl ▸ rfl)
  | .arr [] => exact rfl
  | .arr (_ :: _ :: rest) =>
    simp [Demand.refusal?, Settled, expectPattern, expectScalar, Literal.ofJson?]
  | .null | .bool _ | .num _ | .str _ | .obj _ =>
    simp [Json.partsBelow, offences, Demand.refusal?, Json.isScalar, Settled, expectPattern,
      expectScalar, Literal.ofJson?, Literal.toJson]

/-! ## Clauses -/

/-- **No level lies deeper than 32**, of so many levels below one at a depth. -/
def WithinDepth (depth levels : Nat) : Prop := levels = 0 ∨ depth + levels ≤ 32

theorem WithinDepth.max {depth m n : Nat} (hm : WithinDepth depth m) (hn : WithinDepth depth n) :
    WithinDepth depth (max m n) := by
  unfold WithinDepth at *
  omega

/-- A level that is allowed, and no level below it too deep. -/
theorem WithinDepth.succ {depth levels : Nat} (hdepth : depth + 1 ≤ 32)
    (h : WithinDepth (depth + 1) levels) : WithinDepth depth (levels + 1) := by
  unfold WithinDepth at *
  omega

theorem settled_checkDepth (depth : Nat) (v : Json) :
    Settled (FilterPart.offence? ⟨.filter depth, v⟩).toList (fun _ => depth ≤ 32)
      (checkDepth depth) := by
  show Settled (if depth ≤ 32 then none else some _).toList _ (if 32 < depth then _ else _)
  by_cases h : depth ≤ 32
  · rw [if_pos h, if_neg (Nat.not_lt.2 h)]
    exact ⟨rfl, h⟩
  · rw [if_neg h, if_pos (Nat.lt_of_not_le h)]
    exact rfl

/-- **The reading of a value as a nested filter is settled**, where the key asks for
one. -/
def SettledNested (depth : Nat) (key : String) (v : Json) (nested : FilterResult Filter) : Prop :=
  Demand.ofKey key = .operand → ∀ fields, v = .obj fields →
    Settled (offences (v.partsBelow depth key))
      (fun f => (Operand.nested f).Spelled v ∧ WithinDepth depth (Operand.nested f).levels) nested

theorem settled_operand {nested : FilterResult Filter} (hd : Demand.ofKey key = .operand)
    (hn : SettledNested depth key v nested) :
    Settled (entryOffences depth key v)
      (fun operand => operand.Spelled v ∧ WithinDepth depth operand.levels)
      (Operand.ofEntry key v nested) := by
  rw [entryOffences, hd]
  cases v with
  | null | bool _ | num _ | str _ => exact ⟨rfl, rfl, .inl rfl⟩
  | arr items =>
    rw [Json.partsBelow, hd]
    exact (settled_expectScalars items).map fun values h => ⟨congrArg Json.arr h, .inl rfl⟩
  | obj fields => exact (hn hd fields rfl).map fun f hf => hf

theorem settled_operator {keyword : Keyword} {nested : FilterResult Filter}
    (hd : Demand.ofKey key = keyword.demand) (hn : SettledNested depth key v nested) :
    Settled (entryOffences depth key v)
      (fun op => op.keyword = keyword ∧ op.Spelled v ∧ WithinDepth depth op.levels)
      (Operator.ofEntry keyword key v nested) := by
  cases keyword with
  | inq | nin => exact (settled_expectList hd).map fun values h => ⟨rfl, h, .inl rfl⟩
  | neq => exact (settled_operand hd hn).map fun operand h => ⟨rfl, h⟩
  | gt | gte | lt | lte => exact (settled_expectScalar hd).map fun value h => ⟨rfl, h, .inl rfl⟩
  | between => exact (settled_expectPair hd).map fun bounds h => ⟨rfl, h, .inl rfl⟩
  | like | nlike => exact (settled_expectPattern hd).map fun pattern h => ⟨rfl, h, .inl rfl⟩
  | «exists» | missing => exact (settled_expectBool hd).map fun b h => ⟨rfl, h, .inl rfl⟩

theorem settled_clause {nested : FilterResult Filter} {children : FilterResult (List Filter)}
    (hn : SettledNested depth key v nested)
    (hc : Demand.ofKey key = .group → Settled (entryOffences depth key v)
      (fun fs => (∃ items, v = .arr items ∧ Filter.AllSpelled items fs) ∧
        WithinDepth depth (Filter.levelsAll fs)) children) :
    Settled (entryOffences depth key v)
      (fun clause => clause.Spelled key v ∧ WithinDepth depth clause.levels)
      (Clause.ofEntry key v nested children) := by
  have hd := Demand.ofKey_eq key
  have hkey := FilterKey.ofKey_spec key
  unfold Clause.ofEntry
  cases hk : FilterKey.ofKey key with
  | raw | «exists» | missing =>
    rw [hk] at hd hkey
    exact (settled_expectString hd).map fun s h => ⟨⟨hkey, h⟩, .inl rfl⟩
  | and | or =>
    rw [hk] at hd hkey
    exact (hc hd).map fun fs h => ⟨⟨hkey, h.1⟩, h.2⟩
  | unsupported =>
    rw [hk] at hd
    refine ⟨?_, ⟨rfl, hd⟩, .inl rfl⟩
    cases v <;>
      simp [entryOffences, Json.partsBelow, Demand.refusal?, hd, FilterKey.demand, offences]
  | operator keyword =>
    rw [hk] at hd hkey
    exact (settled_operator hd hn).map fun op h => ⟨⟨h.1 ▸ hkey.2.2, h.2.1⟩, h.2.2⟩
  | field =>
    rw [hk] at hd hkey
    have hneq : key ≠ "neq" := by
      rintro rfl
      exact absurd hkey.2.2 (by decide +kernel)
    exact (settled_operand hd hn).map fun operand h => ⟨⟨rfl, hd, hneq, h.1⟩, h.2⟩

end

mutual

theorem Clause.settled_ofField (depth : Nat) (key : String) (v : Json) (hv : v.WellFormed) :
    Settled (entryOffences depth key v)
      (fun clause => clause.Spelled key v ∧ WithinDepth depth clause.levels)
      (Clause.ofField depth key v) := by
  match v with
  | .obj fields =>
    refine settled_clause (fun hd fields' hfields => ?_) fun hd => ?_
    · obtain rfl := Json.obj.inj hfields
      rw [Json.partsBelow, if_pos hd, offences_cons]
      refine (settled_checkDepth (depth + 1) _).bind fun _ hdepth => ?_
      refine (Filter.settled_ofFields (depth + 1) fields hv.2).imp fun f hf => ?_
      exact ⟨⟨fields, rfl, hv.1, hf.1⟩, hf.2.succ hdepth⟩
    · -- an object is no group
      rw [entryOffences, hd]
      exact rfl
  | .arr items =>
    refine settled_clause (fun _ _ hfields => absurd hfields nofun) fun hd => ?_
    rw [entryOffences, hd, Json.partsBelow, hd]
    exact (Filter.settled_ofItems depth key items hv).imp fun fs hfs =>
      ⟨⟨items, rfl, hfs.1⟩, hfs.2⟩
  | .null | .bool _ | .num _ | .str _ =>
    refine settled_clause (fun _ _ hfields => absurd hfields nofun) fun hd => ?_
    rw [entryOffences, hd]
    exact rfl

/-- **The entries of an object** are read as what they spell, or give the first of their
offences. -/
theorem Filter.settled_ofFields (depth : Nat) (fields : List (String × Json))
    (hfields : Json.WellFormedFields fields) :
    Settled (offences (Json.fieldParts depth fields))
      (fun f => Filter.Spelled fields f ∧ WithinDepth depth (Filter.levels f))
      (Filter.ofFields depth fields) := by
  match fields with
  | [] => exact ⟨rfl, rfl, .inl rfl⟩
  | (key, v) :: rest =>
    rw [offences_fieldParts_cons]
    refine (Clause.settled_ofField depth key v hfields.1).bind fun clause hclause => ?_
    refine (Filter.settled_ofFields depth rest hfields.2).bind_of_ok fun clauses hclauses => ?_
    exact ⟨clause :: clauses, rfl, ⟨key, v, rest, rfl, hclause.1, hclauses.1⟩,
      hclause.2.max hclauses.2⟩

theorem Filter.settled_ofItems (depth : Nat) (key : String) (items : List Json)
    (hitems : Json.WellFormedItems items) :
    Settled (offences (Json.memberParts (depth + 1) key items))
      (fun fs => Filter.AllSpelled items fs ∧ WithinDepth depth (Filter.levelsAll fs))
      (Filter.ofItems (depth + 1) key items) := by
  match items with
  | [] => exact ⟨rfl, rfl, .inl rfl⟩
  | .obj fields :: rest =>
    have hfields : (Json.obj fields).WellFormed := hitems.1
    show Settled (offences (⟨.filter (depth + 1), .obj fields⟩ ::
      (Json.fieldParts (depth + 1) fields ++ Json.memberParts (depth + 1) key rest))) _ _
    rw [offences_cons, offences_append]
    refine (settled_checkDepth (depth + 1) _).bind fun _ hdepth => ?_
    refine (Filter.settled_ofFields (depth + 1) fields hfields.2).bind fun f hf => ?_
    refine (Filter.settled_ofItems depth key rest hitems.2).bind_of_ok fun fs hfs => ?_
    exact ⟨f :: fs, rfl, ⟨fields, rest, rfl, hfields.1, hf.1, hfs.1⟩,
      (hf.2.succ hdepth).max hfs.2⟩
  | .null :: rest | .bool _ :: rest | .num _ :: rest | .str _ :: rest | .arr _ :: rest =>
    exact rfl

end

/-! ## Whole filters -/

/-- **The value spells the filter**: `null` spells the one without clauses. -/
def Json.Spells (v : Json) (f : Filter) : Prop :=
  (v = .null ∧ f = []) ∨ ∃ fields, v = .obj fields ∧ Table.Ordered fields ∧ Filter.Spelled fields f

theorem Filter.settled_ofJson {v : Json} (hv : v.WellFormed) :
    Settled (offences v.filterParts) (fun f => v.Spells f ∧ Filter.levels f ≤ 32)
      (Filter.ofJson v) := by
  match v with
  | .null => exact ⟨rfl, .inl ⟨rfl, rfl⟩, Nat.zero_le _⟩
  | .obj fields =>
    rw [Json.filterParts, offences_cons, offences_cons]
    refine (Filter.settled_ofFields 0 fields hv.2).imp fun f hf => ?_
    refine ⟨.inr ⟨fields, rfl, hv.1, hf.1⟩, ?_⟩
    have := hf.2
    unfold WithinDepth at this
    omega
  | .bool _ | .num _ | .str _ | .arr _ => exact rfl

/-- **The reader accepts exactly its grammar.** A value is accepted if it is `null` or a
filter at the outermost depth, and refused otherwise. What is read from it has a clause
for each of its entries in the order of their keys, at every level, and no level is deeper
than 32. The error of a refused value is that of the first part of it, in the order of
keys and each before what lies below, that has not the form that is asked there. -/
theorem Filter.ofJson_accepts {v : Json} (hv : v.WellFormed) :
    ((∃ f, Filter.ofJson v = .ok f) ↔ v = .null ∨ v.IsFilter 0) ∧
      (∀ f, Filter.ofJson v = .ok f → v.Spells f ∧ Filter.levels f ≤ 32) ∧
      ∀ e, Filter.ofJson v = .error e ↔
        v.filterParts.findSome? FilterPart.offence? = some e := by
  have h := Filter.settled_ofJson hv
  rw [Json.isFilter_iff, ← List.head?_filterMap]
  exact ⟨h.ok_iff, fun f => h.of_ok, fun e => h.error_iff⟩

/-- A group, a range and an inequality between filters; and a bound that is none, before
a group that is none. -/
theorem Filter.ofJson_accepts_groups :
    let accepted : Record :=
      [("age", .obj [("between", .arr [.num (.int 1), .num (.int 2)])]),
        ("and", .arr [.obj [("name", .str "x")], .obj []]),
        ("city", .obj [("neq", .obj [("like", .arr [.str "y"])])])]
    let refused : Record := [("age", .obj [("gt", .obj [])]), ("and", .num (.int 5))]
    accepted.WellFormed ∧ refused.WellFormed ∧
      (Json.obj accepted).IsFilter 0 ∧ ¬ (Json.obj refused).IsFilter 0 ∧
      (∃ f, Filter.ofJson (.obj accepted) = .ok f ∧ (Json.obj accepted).Spells f ∧
        Filter.levels f = 2) ∧
      Filter.ofJson (.obj refused) = .error (.invalidOperand "gt" .scalar) := by
  intro accepted refused
  have haccepted : accepted.WellFormed := by decide +kernel
  have hrefused : refused.WellFormed := by decide +kernel
  obtain ⟨hgrammar, hread, -⟩ := Filter.ofJson_accepts haccepted
  obtain ⟨hgrammar', -, herror⟩ := Filter.ofJson_accepts hrefused
  have he := (herror (.invalidOperand "gt" .scalar)).2 (by decide +kernel)
  refine ⟨haccepted, hrefused, (hgrammar.1 ⟨_, rfl⟩).resolve_left nofun, fun h => ?_,
    ⟨_, rfl, (hread _ rfl).1, rfl⟩, he⟩
  obtain ⟨f, hf⟩ := hgrammar'.2 (.inr h)
  exact absurd (he.symm.trans hf) nofun

end UserDirectory
