import UserDirectory.Json.Basic
import UserDirectory.Text.Blank
import UserDirectory.Text.Numeral

/-!
# Dotted paths

A path such as `user_metadata.address.city` names a place in a record. `Json.at?` reads it and
`Record.set` writes it. Both walk the segments between the dots, with two differences: reading takes
a field of the whole value whose name is the entire path before it splits anything, and descends
into arrays by index; writing always splits, creates the objects on the way and replaces any other
value that stands there.
-/

namespace UserDirectory

/-- The segments of a path. -/
def pathSegments (path : String) : List String := splitAtChar '.' path

/-- One step down: a field of an object, an item of an array. -/
def Json.child? (v : Json) (segment : String) : Option Json :=
  match v with
  | .obj fields => Table.get? fields segment
  | .arr items => (word64? segment).bind fun i => items[i]?
  | _ => none

/-- Walks the segments one after another. -/
def Json.walk? (v : Json) : List String → Option Json
  | [] => some v
  | segment :: rest => (v.child? segment).bind fun child => child.walk? rest

/-- **The value at a path.** The empty path is the value itself. -/
def Json.at? (v : Json) (path : String) : Option Json :=
  if path.isEmpty then some v
  else
    match v.field? path with
    | some direct => some direct
    | none => v.walk? (pathSegments path)

/-- The fields of a value that is an object, and none for any other. -/
def Json.fieldsOrNone : Option Json → Record
  | some (.obj fields) => fields
  | _ => []

/-- Writes a value at the end of the segments. -/
def Record.setAt (r : Record) (segments : List String) (value : Json) : Record :=
  match segments with
  | [] => r
  | [segment] => Table.insert r segment value
  | segment :: rest =>
    let inner : Record := Json.fieldsOrNone (Table.get? r segment)
    Table.insert r segment (.obj (Record.setAt inner rest value))

/-- **Writes a value at a path.** -/
def Record.set (r : Record) (path : String) (value : Json) : Record :=
  Record.setAt r (pathSegments path) value

end UserDirectory
