import UserDirectory.Search.Order

/-!
# Query bundles

What a caller asks of a search beside the condition itself: how many users, from which one on, which
of their fields, in which order. `SearchBundle` is the caller's bundle, `UserQuery` the request that
the directory understands. Both are written as JSON with their present fields only.
-/

namespace UserDirectory

/-- **A caller's query bundle.** Positions count from one. -/
structure SearchBundle where
  /-- The condition, not yet read as a filter. -/
  condition : Option Json := none
  /-- The greatest number of users. -/
  limit : Option Nat := none
  /-- The page to start at. -/
  offset : Option Nat := none
  /-- The page to start at, when `offset` says nothing. -/
  skip : Option Nat := none
  /-- The fields to return. -/
  fields : Option (List String) := none
  /-- The order of the users. -/
  order : Option Order := none
  /-- Whether to count all matches. -/
  totals : Option Bool := none
  /-- Relations to include. -/
  relations : Option Json := none
  deriving Inhabited, DecidableEq

namespace SearchBundle

/-- The fields' names, in the order of declaration. -/
def fieldNames : List String :=
  ["where", "limit", "offset", "skip", "fields", "order", "totals", "include"]

/-- Reads a bundle; names that are not its own are passed over. -/
def ofJson? (v : Json) (rules : StructureRules := .json) : Option SearchBundle := do
  let fields ← v.fields? fieldNames false rules
  pure {
    condition := ← Json.optionalField? Json.any? fields "where" rules
    limit := ← Json.optionalField? Json.nat? fields "limit" rules
    offset := ← Json.optionalField? Json.nat? fields "offset" rules
    skip := ← Json.optionalField? Json.nat? fields "skip" rules
    fields := ← Json.optionalField? Json.strings? fields "fields" rules
    order := ← Json.optionalField? Order.ofJson? fields "order" rules
    totals := ← Json.optionalField? Json.bool? fields "totals" rules
    relations := ← Json.optionalField? Json.any? fields "include" rules }

/-- The present fields in the order of declaration. -/
def presentFields (b : SearchBundle) : List (String × Json) :=
  [("where", b.condition), ("limit", b.limit.map .ofNat), ("offset", b.offset.map .ofNat),
    ("skip", b.skip.map .ofNat), ("fields", b.fields.map .ofStrings),
    ("order", b.order.map Order.toJson), ("totals", b.totals.map .bool),
    ("include", b.relations)].filterMap fun (k, v) => v.map (k, ·)

/-- Writes the present fields. -/
def toJson (b : SearchBundle) : Json := .obj (Table.ofList b.presentFields)

end SearchBundle

/-- The generation of the directory's search. -/
inductive SearchEngine where
  | v2
  | v3
  deriving DecidableEq, Repr, Inhabited

/-- The name of a generation. -/
def SearchEngine.name : SearchEngine → String
  | .v2 => "v2"
  | .v3 => "v3"

/-- Reads the name of a generation. -/
def SearchEngine.ofJson? (v : Json) (rules : StructureRules := .json) : Option SearchEngine := do
  match ← v.caseName? rules with
  | "v2" => some .v2
  | "v3" => some .v3
  | _ => none

/-- **A search request.** Pages count from zero. -/
structure UserQuery where
  /-- The query text. -/
  q : Option String := none
  /-- The generation that understands it. -/
  searchEngine : Option SearchEngine := none
  /-- Users on a page. -/
  perPage : Option Nat := none
  /-- The page, counted from zero. -/
  page : Option Nat := none
  /-- The fields to return, with commas between them. -/
  fields : Option String := none
  /-- The sort term. -/
  sort : Option String := none
  /-- Whether to count all matches. -/
  includeTotals : Option Bool := none
  deriving Inhabited, DecidableEq, Repr

namespace UserQuery

/-- The fields' names, in the order of declaration. -/
def fieldNames : List String :=
  ["q", "search_engine", "per_page", "page", "fields", "sort", "include_totals"]

/-- Reads a request; names that are not its own are passed over. -/
def ofJson? (v : Json) : Option UserQuery := do
  let fields ← v.fields? fieldNames false
  pure {
    q := ← Json.optionalField? Json.string? fields "q"
    searchEngine := ← Json.optionalField? (SearchEngine.ofJson? ·) fields "search_engine"
    perPage := ← Json.optionalField? Json.nat? fields "per_page"
    page := ← Json.optionalField? Json.nat? fields "page"
    fields := ← Json.optionalField? Json.string? fields "fields"
    sort := ← Json.optionalField? Json.string? fields "sort"
    includeTotals := ← Json.optionalField? Json.bool? fields "include_totals" }

/-- The present fields in the order of declaration. -/
def presentFields (u : UserQuery) : List (String × Json) :=
  [("q", u.q.map .str), ("search_engine", u.searchEngine.map fun e => .str e.name),
    ("per_page", u.perPage.map .ofNat), ("page", u.page.map .ofNat),
    ("fields", u.fields.map .str), ("sort", u.sort.map .str),
    ("include_totals", u.includeTotals.map .bool)].filterMap fun (k, v) => v.map (k, ·)

/-- Writes the present fields. -/
def toJson (u : UserQuery) : Json := .obj (Table.ofList u.presentFields)

end UserQuery

/-- **The page of an offset or a skip**, counted from zero: the first of them above one, less one.
The first page is never named. -/
def pageIndex (offset skip : Option Nat) : Option Nat :=
  match offset.filter (1 < ·), skip.filter (1 < ·) with
  | some n, _ => some (n - 1)
  | none, some n => some (n - 1)
  | none, none => none

end UserDirectory
