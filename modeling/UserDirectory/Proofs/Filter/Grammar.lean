import UserDirectory.Filter.Reader
import UserDirectory.Proofs.Results

/-!
# Which values are filters

A filter is written as an object, and what may stand under a key is settled by the
key alone (`Demand.ofKey`): a string, an array of filters, anything at all, or one of
a few forms of operands, of which the last may be a filter again. So the values that
are filters form a grammar (`Json.IsFilter`), with a depth that counts the filters
around a filter, on whichever of three ways it came to stand there: as a member of a
group, as the operand of a field, or as the operand of an inequality.

A value outside the grammar is so at certain places. A walk of the value visits every
place of which the grammar asks something, each before what lies below it and in the
order of the keys (`Json.filterParts`), and at each it is plain whether the value
there has the form that is asked (`FilterPart.offence?`): this looks at one level of
the value only. A value is in the grammar exactly if the walk meets no offence
(`Json.isFilter_iff`).
-/

namespace UserDirectory

/-! ## What a key asks -/

/-- **What a key asks of its value.** -/
inductive Demand where
  /-- A string. -/
  | text
  /-- An array of filters. -/
  | group
  /-- Nothing. -/
  | anything
  /-- `null`, a scalar, or an array of scalars. -/
  | choice
  /-- A scalar. -/
  | bound
  /-- An array of two scalars. -/
  | range
  /-- A scalar, bare or as the only item of an array. -/
  | pattern
  /-- A truth value. -/
  | flag
  /-- `null`, a scalar, an array of scalars, or a filter. -/
  | operand
  deriving DecidableEq

/-- **The demand of every key.** Any key that is not listed, and does not begin with a
dollar sign, is the name of a field. -/
def Demand.ofKey (key : String) : Demand :=
  if key ∈ ["$where", "$search", "$exists", "_exists_", "$missing", "_missing_"] then .text
  else if key ∈ ["and", "or"] then .group
  else if key ∈ ["near", "ilike", "nilike", "regexp", "maxDistance"] then .anything
  else if key.toList.head? = some '$' then .anything
  else if key ∈ ["inq", "nin"] then .choice
  else if key ∈ ["gt", "gte", "lt", "lte"] then .bound
  else if key = "between" then .range
  else if key ∈ ["like", "nlike"] then .pattern
  else if key ∈ ["exists", "missing"] then .flag
  else .operand

/-- A string, a number or a truth value. -/
def Json.isScalar : Json → Bool
  | .bool _ | .num _ | .str _ => true
  | .null | .arr _ | .obj _ => false

@[simp] theorem Json.isScalar_null : Json.null.isScalar = false := rfl

@[simp] theorem Json.isScalar_arr (items : List Json) : (Json.arr items).isScalar = false := rfl

@[simp] theorem Json.isScalar_obj (fields : Record) : (Json.obj fields).isScalar = false := rfl

/-- An array of scalars. -/
def Json.IsScalars (v : Json) : Prop := ∃ items, v = .arr items ∧ ∀ item ∈ items, item.isScalar

/-- An array of so many scalars. -/
def Json.IsScalarTuple (size : Nat) (v : Json) : Prop :=
  ∃ items, v = .arr items ∧ items.length = size ∧ ∀ item ∈ items, item.isScalar

/-- **The values without filters** that a demand is content with. -/
def Demand.Admits : Demand → Json → Prop
  | .text, v => ∃ s, v = .str s
  | .group, _ => False
  | .anything, _ => True
  | .choice, v | .operand, v => v = .null ∨ v.isScalar ∨ v.IsScalars
  | .bound, v => v.isScalar
  | .range, v => v.IsScalarTuple 2
  | .pattern, v => v.isScalar ∨ v.IsScalarTuple 1
  | .flag, v => ∃ b, v = .bool b

/-! ## The grammar -/

mutual

/-- **The values that are filters at a depth**: objects, at most 32 filters deep, of
which every entry fits its key. -/
inductive Json.IsFilter : Nat → Json → Prop
  | object {depth : Nat} {fields : Record} (within : depth ≤ 32)
      (fits : ∀ e ∈ fields, Json.Fits depth e.1 e.2) : Json.IsFilter depth (.obj fields)

/-- **The value fits its key** in an object at a depth. -/
inductive Json.Fits : Nat → String → Json → Prop
  /-- The value holds no filters. -/
  | plain {depth : Nat} {key : String} {v : Json} (h : (Demand.ofKey key).Admits v) :
      Json.Fits depth key v
  /-- The value is a group of filters. -/
  | group {depth : Nat} {key : String} {items : List Json} (h : Demand.ofKey key = .group)
      (members : ∀ v ∈ items, Json.IsFilter (depth + 1) v) : Json.Fits depth key (.arr items)
  /-- The value is a filter. -/
  | nested {depth : Nat} {key : String} {v : Json} (h : Demand.ofKey key = .operand)
      (filter : Json.IsFilter (depth + 1) v) : Json.Fits depth key v

end

theorem Json.isFilter_obj_iff {depth : Nat} {fields : Record} :
    (Json.obj fields).IsFilter depth ↔ depth ≤ 32 ∧ ∀ e ∈ fields, Json.Fits depth e.1 e.2 :=
  ⟨fun h => by cases h with | object within fits => exact ⟨within, fits⟩,
    fun h => .object h.1 h.2⟩

/-- Only objects are filters. -/
theorem Json.IsFilter.exists_fields {depth : Nat} {v : Json} (h : v.IsFilter depth) :
    ∃ fields, v = .obj fields := by
  cases h with
  | object => exact ⟨_, rfl⟩

theorem Json.fits_iff {depth : Nat} {key : String} {v : Json} :
    v.Fits depth key ↔ (Demand.ofKey key).Admits v ∨
      (Demand.ofKey key = .group ∧ ∃ items, v = .arr items ∧ ∀ w ∈ items, w.IsFilter (depth + 1)) ∨
      (Demand.ofKey key = .operand ∧ v.IsFilter (depth + 1)) := by
  constructor
  · intro h
    cases h with
    | plain h => exact .inl h
    | group h members => exact .inr (.inl ⟨h, _, rfl, members⟩)
    | nested h filter => exact .inr (.inr ⟨h, filter⟩)
  · rintro (h | ⟨h, items, rfl, members⟩ | ⟨h, filter⟩)
    · exact .plain h
    · exact .group h members
    · exact .nested h filter

/-! ## The walk -/

/-- **Where the grammar asks something of a value.** -/
inductive FilterPlace where
  /-- The whole value. -/
  | whole
  /-- A filter, at this depth. -/
  | filter (depth : Nat)
  /-- The value of a key. -/
  | entry (key : String)
  /-- A member of the group under a key. -/
  | member (key : String)
  /-- An item of the array under a key, of which each item is to be a scalar. -/
  | item (key : String) (expected : Expected)

/-- **A part of a value at its place.** -/
structure FilterPart where
  place : FilterPlace
  value : Json

mutual

/-- What the walk meets below the value of a key, in an object at a depth. -/
def Json.partsBelow (depth : Nat) (key : String) : Json → List FilterPart
  | .obj fields =>
    if Demand.ofKey key = .operand then
      ⟨.filter (depth + 1), .obj fields⟩ :: Json.fieldParts (depth + 1) fields
    else []
  | .arr items =>
    match Demand.ofKey key with
    | .group => Json.memberParts (depth + 1) key items
    | .choice | .operand | .range => items.map fun v => ⟨.item key .scalars, v⟩
    | .pattern => items.map fun v => ⟨.item key .scalar, v⟩
    | .text | .anything | .bound | .flag => []
  | _ => []

/-- What the walk meets in the entries of an object at a depth. -/
def Json.fieldParts (depth : Nat) : List (String × Json) → List FilterPart
  | [] => []
  | (key, v) :: rest =>
    ⟨.entry key, v⟩ :: (v.partsBelow depth key ++ Json.fieldParts depth rest)

/-- What the walk meets in a group whose members stand at a depth. -/
def Json.memberParts (depth : Nat) (key : String) : List Json → List FilterPart
  | [] => []
  | .obj fields :: rest => ⟨.member key, .obj fields⟩ :: ⟨.filter depth, .obj fields⟩ ::
      (Json.fieldParts depth fields ++ Json.memberParts depth key rest)
  | v :: rest => ⟨.member key, v⟩ :: Json.memberParts depth key rest

end

/-- **The parts of a value that is to be a filter**, as a walk meets them: each before
what lies below it, and entries in their order. -/
def Json.filterParts : Json → List FilterPart
  | .obj fields => ⟨.whole, .obj fields⟩ :: ⟨.filter 0, .obj fields⟩ :: Json.fieldParts 0 fields
  | v => [⟨.whole, v⟩]

/-! ## Offences -/

/-- The error of a value that has none of the forms that its key asks for. Whether the
items of an array are scalars is asked at the items. -/
def Demand.refusal? (key : String) : Demand → Json → Option FilterError
  | .anything, _ | .operand, _ => none
  | .text, .str _ | .group, .arr _ | .flag, .bool _ => none
  | .choice, .null | .choice, .arr _ => none
  | .range, .arr items =>
    if items.length = 2 then none else some (.invalidOperand key .twoScalars)
  | .pattern, .arr items =>
    if items.length = 1 then none else some (.invalidOperand key .scalar)
  | .text, _ => some (.invalidOperand key .string)
  | .group, _ => some (.logicalOperand key)
  | .flag, _ => some (.invalidOperand key .boolean)
  | .range, _ => some (.invalidOperand key .twoScalars)
  | .choice, v | .bound, v | .pattern, v =>
    if v.isScalar then none else some (.invalidOperand key .scalar)

/-- **The offence of a part**, if it has not the form that is asked at its place. -/
def FilterPart.offence? (p : FilterPart) : Option FilterError :=
  match p.place, p.value with
  | .whole, .null | .whole, .obj _ => none
  | .whole, v => some (.notAnObject v)
  | .filter depth, _ => if depth ≤ 32 then none else some (.tooDeep 32)
  | .entry key, v => (Demand.ofKey key).refusal? key v
  | .member _, .obj _ => none
  | .member key, _ => some (.logicalOperand key)
  | .item key expected, v => if v.isScalar then none else some (.invalidOperand key expected)

/-- The offences of several parts, in their order. -/
def offences (parts : List FilterPart) : List FilterError := parts.filterMap FilterPart.offence?

theorem offences_append (ps qs : List FilterPart) :
    offences (ps ++ qs) = offences ps ++ offences qs := List.filterMap_append

theorem offences_cons (p : FilterPart) (ps : List FilterPart) :
    offences (p :: ps) = p.offence?.toList ++ offences ps := by
  unfold offences
  rw [List.filterMap_cons]
  cases p.offence? <;> rfl

/-- The offences of an entry: that of its value, and those below. -/
def entryOffences (depth : Nat) (key : String) (v : Json) : List FilterError :=
  ((Demand.ofKey key).refusal? key v).toList ++ offences (v.partsBelow depth key)

theorem offences_fieldParts_cons (depth : Nat) (key : String) (v : Json)
    (rest : List (String × Json)) :
    offences (Json.fieldParts depth ((key, v) :: rest)) =
      entryOffences depth key v ++ offences (Json.fieldParts depth rest) := by
  rw [Json.fieldParts, offences_cons, offences_append, entryOffences, List.append_assoc]
  rfl

theorem offences_items_eq_nil_iff (key : String) (expected : Expected) (items : List Json) :
    offences (items.map fun v => ⟨.item key expected, v⟩) = [] ↔
      ∀ v ∈ items, v.isScalar := by
  unfold offences
  rw [List.filterMap_map, List.filterMap_eq_nil_iff]
  refine forall₂_congr fun v _ => ?_
  show (if v.isScalar then none else some _) = none ↔ _
  split <;> simp_all

/-! ## The grammar and the walk -/

mutual

/-- **A value fits its key** exactly if the walk meets no offence from it on. -/
theorem Json.fits_iff_offences {depth : Nat} {key : String} (v : Json) :
    v.Fits depth key ↔ entryOffences depth key v = [] := by
  rw [Json.fits_iff, entryOffences]
  match v with
  | .obj fields =>
    rw [Json.partsBelow, Json.isFilter_obj_iff, Json.forall_fits_iff_offences fields]
    cases Demand.ofKey key <;>
      simp [Demand.Admits, Demand.refusal?, Json.IsScalars, Json.IsScalarTuple,
        FilterPart.offence?, offences]
  | .arr items =>
    rw [Json.partsBelow]
    cases Demand.ofKey key with
    | group =>
      simpa [Demand.Admits, Demand.refusal?] using
        Json.forall_isFilter_iff_offences key items
    | operand =>
      -- an array is no filter, so that only its items count
      have hfilter : ¬ (Json.arr items).IsFilter (depth + 1) := fun h =>
        absurd h.exists_fields.choose_spec nofun
      simp [Demand.Admits, Demand.refusal?, Json.IsScalars,
        offences_items_eq_nil_iff, hfilter]
    | choice | range | pattern | text | anything | bound | flag =>
      simp [Demand.Admits, Demand.refusal?, Json.IsScalars, Json.IsScalarTuple,
        FilterPart.offence?, offences]
  | .null | .bool _ | .num _ | .str _ =>
    cases Demand.ofKey key <;>
      simp [Demand.Admits, Demand.refusal?, Json.isScalar, Json.IsScalars,
        Json.IsScalarTuple, Json.partsBelow, offences]

theorem Json.forall_fits_iff_offences {depth : Nat} (fields : List (String × Json)) :
    (∀ e ∈ fields, Json.Fits depth e.1 e.2) ↔ offences (Json.fieldParts depth fields) = [] := by
  match fields with
  | [] => exact iff_of_true (List.forall_mem_nil _) rfl
  | (key, v) :: rest =>
    rw [List.forall_mem_cons, offences_fieldParts_cons, List.append_eq_nil_iff,
      Json.fits_iff_offences v, Json.forall_fits_iff_offences rest]

theorem Json.forall_isFilter_iff_offences {depth : Nat} (key : String) (items : List Json) :
    (∀ v ∈ items, v.IsFilter depth) ↔ offences (Json.memberParts depth key items) = [] := by
  match items with
  | [] => exact iff_of_true (List.forall_mem_nil _) rfl
  | .obj fields :: rest =>
    rw [List.forall_mem_cons, Json.memberParts, offences_cons, offences_cons, offences_append,
      Json.isFilter_obj_iff, Json.forall_fits_iff_offences fields,
      Json.forall_isFilter_iff_offences key rest]
    simp [FilterPart.offence?, and_assoc]
  | .null :: rest | .bool _ :: rest | .num _ :: rest | .str _ :: rest | .arr _ :: rest =>
    -- no filter, and an offence at once
    refine iff_of_false (fun h => ?_) (List.cons_ne_nil _ _)
    obtain ⟨fields, hfields⟩ := (List.forall_mem_cons.1 h).1.exists_fields
    exact absurd hfields nofun

end

/-- **A value is a filter or `null`** exactly if a walk of it meets no offence. -/
theorem Json.isFilter_iff (v : Json) :
    v = .null ∨ v.IsFilter 0 ↔ offences v.filterParts = [] := by
  cases v with
  | null => exact iff_of_true (.inl rfl) rfl
  | obj fields =>
    rw [Json.filterParts, offences_cons, offences_cons, Json.isFilter_obj_iff,
      Json.forall_fits_iff_offences fields]
    simp [FilterPart.offence?]
  | bool _ | num _ | str _ | arr _ =>
    refine iff_of_false ?_ (List.cons_ne_nil _ _)
    rintro (h | h) <;> cases h

end UserDirectory
