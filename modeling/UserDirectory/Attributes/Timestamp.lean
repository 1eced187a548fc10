import UserDirectory.Json.Basic
import UserDirectory.Time.Rfc3339

/-!
# Timestamps in records

A date field of a record holds a timestamp as text or as milliseconds of the epoch. Coercion brings
both to one text form, and anything else to `null`.
-/

namespace UserDirectory

/-- The instant that a value writes, as text or as an integer number of milliseconds. -/
def Json.instant? : Json → Option Instant
  | .str s => Instant.read? s
  | .num (.int n) => Instant.ofEpochMillis? n
  | _ => none

/-- **The value as a timestamp in universal time**, or `null`. -/
def coerceTimestamp (v : Json) : Json :=
  match v.instant? with
  | some t => .str t.text
  | none => .null

/-- The instant of a record's field. -/
def Record.instant? (r : Record) (field : String) : Option Instant :=
  (Table.get? r field).bind Json.instant?

end UserDirectory
