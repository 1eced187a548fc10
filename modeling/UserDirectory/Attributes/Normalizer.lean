import UserDirectory.Attributes.Timestamp
import UserDirectory.Mapping.Resolve
import UserDirectory.Record.Extract

/-!
# Records on the way in

A record of the directory becomes the caller's by mapping its fields back, those without a mapping
being left behind, and by bringing every date field, at any depth, to one form.
-/

namespace UserDirectory

mutual

/-- **The value with its date fields coerced**, at every depth. An item of an array goes by its
index. -/
def Json.coerceDates (dates : List String) : Json → Json
  | .obj fields => .obj (Json.coerceDateFields dates fields)
  | .arr items => .arr (Json.coerceDateItems dates 0 items)
  | v => v

/-- Coerces the date fields of an object and descends into the others. -/
def Json.coerceDateFields (dates : List String) : List (String × Json) → List (String × Json)
  | [] => []
  | (k, v) :: rest =>
    (k, if dates.contains k then coerceTimestamp v else v.coerceDates dates)
      :: Json.coerceDateFields dates rest

/-- Coerces the items of an array, counted from an index, whose index is a date field. -/
def Json.coerceDateItems (dates : List String) (i : Nat) : List Json → List Json
  | [] => []
  | v :: rest =>
    (if dates.contains (toString i) then coerceTimestamp v else v.coerceDates dates)
      :: Json.coerceDateItems dates (i + 1) rest

end

/-- **How the records of one model are read.** -/
structure Normalizer where
  /-- Remote paths to the caller's names. -/
  mapping : FieldMapping
  /-- The fields that hold dates. -/
  dates : List String

/-- **The caller's record for one of the directory.** -/
def Normalizer.normalize (n : Normalizer) (external : Record) : Record :=
  Json.coerceDateFields n.dates (Record.extract external n.mapping.live false)

end UserDirectory
