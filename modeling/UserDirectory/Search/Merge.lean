import UserDirectory.Search.Bundle

/-!
# Layering conditions and bundles

Conditions compose by conjunction, so that a layer can only narrow a search; the empty conditions,
`null` and the object without fields, add nothing. The directives of a bundle keep the first value
given unless the layer is told to override.
-/

namespace UserDirectory

/-- **The conditions that ask nothing**: `null` and the object without fields. -/
def isEmptyCondition : Json → Bool
  | .null => true
  | .obj fields => fields.isEmpty
  | _ => false

/-- **The conjunction of two conditions.** -/
def conjunction (existing addition : Json) : Json :=
  if isEmptyCondition addition then existing
  else if isEmptyCondition existing then addition
  else .obj [("and", .arr [existing, addition])]

/-- Which of two values of a directive counts. -/
inductive Precedence where
  /-- The value that was there first. -/
  | keepExisting
  /-- The value that comes in. -/
  | override
  deriving DecidableEq, Repr, Inhabited

/-- What becomes of two lists of fields. -/
inductive FieldsMerge where
  /-- The list that comes in counts. -/
  | replace
  /-- The list that comes in is added, less what is there. -/
  | append
  deriving DecidableEq, Repr, Inhabited

/-- **How bundles are layered.** -/
structure MergeSpec where
  /-- Whether relations are merged at all. -/
  relations : Bool := true
  /-- Whether a single relation that comes in encloses those that are there. -/
  nestedRelations : Bool := false
  fields : FieldsMerge := .replace
  order : Precedence := .keepExisting
  limit : Precedence := .keepExisting
  /-- The rule for both `offset` and `skip`. -/
  offset : Precedence := .keepExisting
  deriving Inhabited, DecidableEq, Repr

/-- The value of a directive after a layer. -/
def mergeDirective {α : Type} (rule : Precedence) (existing incoming : Option α) : Option α :=
  match rule with
  | .keepExisting => existing.or incoming
  | .override => incoming.or existing

mutual

/-- The value with every zero unsigned: zeros of both signs are equal numbers. -/
def Json.unsignedZeros : Json → Json
  | .num (.real x) => .num (.real (if x.isZero then Binary64.zero false else x))
  | .arr items => .arr (unsignedZerosItems items)
  | .obj fields => .obj (unsignedZerosFields fields)
  | v => v

/-- Each item with zeros unsigned. -/
def Json.unsignedZerosItems : List Json → List Json
  | [] => []
  | v :: rest => v.unsignedZeros :: unsignedZerosItems rest

/-- Each field with zeros unsigned. -/
def Json.unsignedZerosFields : List (String × Json) → List (String × Json)
  | [] => []
  | (k, v) :: rest => (k, v.unsignedZeros) :: unsignedZerosFields rest

end

/-- Equality of values, numbers compared as numbers. -/
def Json.sameValue (a b : Json) : Bool := a.unsignedZeros == b.unsignedZeros

/-- Adds to a list each further item that it does not hold yet. -/
def appendNew {α : Type} (same : α → α → Bool) (existing incoming : List α) : List α :=
  incoming.foldl (fun list item => if list.any (same · item) then list else list ++ [item]) existing

/-- The relations of a value: the items of an array, none for `null`, else the value itself. -/
def relationList : Json → List Json
  | .arr items => items
  | .null => []
  | v => [v]

/-- The relations after a layer. -/
def mergeRelations (nested : Bool) (existing incoming : Option Json) : Option Json :=
  match incoming, existing with
  | none, _ => existing
  | some incoming, none => some incoming
  | some (.str relation), some existing =>
    if nested then some (.obj [(relation, existing)])
    else some (.arr (appendNew Json.sameValue (relationList existing) [.str relation]))
  | some incoming, some existing =>
    some (.arr (appendNew Json.sameValue (relationList existing) (relationList incoming)))

/-- The list of fields after a layer. -/
def mergeFields (rule : FieldsMerge) (existing incoming : Option (List String)) :
    Option (List String) :=
  match incoming, existing, rule with
  | none, _, _ => existing
  | some incoming, some existing, .append => some (appendNew (· == ·) existing incoming)
  | some incoming, _, _ => some incoming

/-- The condition after a layer; one that is `null` counts as absent. -/
def mergeCondition (existing incoming : Option Json) : Option Json :=
  match incoming with
  | none => existing
  | some addition =>
    match conjunction (existing.getD .null) addition with
    | .null => none
    | merged => some merged

/-- **A bundle with another layered over it.** -/
def SearchBundle.merge (spec : MergeSpec) (base update : SearchBundle) : SearchBundle where
  condition := mergeCondition base.condition update.condition
  limit := mergeDirective spec.limit base.limit update.limit
  offset := mergeDirective spec.offset base.offset update.offset
  skip := mergeDirective spec.offset base.skip update.skip
  fields := mergeFields spec.fields base.fields update.fields
  order := mergeDirective spec.order base.order update.order
  totals := mergeDirective .keepExisting base.totals update.totals
  relations :=
    if spec.relations then mergeRelations spec.nestedRelations base.relations update.relations
    else base.relations

end UserDirectory
