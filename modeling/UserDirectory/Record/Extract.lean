import UserDirectory.Record.Path

/-!
# Merging and extracting records

`Record.mergeDeep` writes one record over another, objects into objects and any other value in place
of what was there. `Record.extract` copies values from place to place by pairs of paths and, if
asked, carries the fields along that no pair has used.
-/

namespace UserDirectory

mutual

/-- A value written over what stands in its place. -/
def Json.mergeOver (existing : Option Json) : Json → Json
  | .obj incoming => .obj (Record.mergeDeep (Json.fieldsOrNone existing) incoming)
  | v => v

/-- **Merges a record into another.** -/
def Record.mergeDeep (target : List (String × Json)) : List (String × Json) → List (String × Json)
  | [] => target
  | (key, v) :: rest =>
    Record.mergeDeep (Table.insert target key (v.mergeOver (Table.get? target key))) rest

end

/-- A pair of paths that takes part: neither of them is empty. -/
def isLivePair (pair : String × String) : Bool := !pair.1.isEmpty && !pair.2.isEmpty

/-- The pairs whose first path has a value in the record. -/
def usedPairs (source : Record) (pairs : List (String × String)) : List (String × String) :=
  pairs.filter fun pair => isLivePair pair && ((Json.obj source).at? pair.1).isSome

/-- The record of the values that the pairs copy, in their order. -/
def Record.copyPairs (source : Record) (pairs : List (String × String)) : Record :=
  (usedPairs source pairs).foldl
    (fun r pair =>
      match (Json.obj source).at? pair.1 with
      | some v => Record.set r pair.2 v
      | none => r)
    []

/-- **Extracts a record by pairs of paths.** With `unmapped`, the fields of the source that no pair
has used are carried over, and the copied values merged into them. -/
def Record.extract (source : Record) (pairs : List (String × String)) (unmapped : Bool) : Record :=
  let mapped := Record.copyPairs source pairs
  if unmapped then
    let used := (usedPairs source pairs).map (·.1)
    Record.mergeDeep (Table.restrict source fun key => !used.contains key) mapped
  else mapped

end UserDirectory
