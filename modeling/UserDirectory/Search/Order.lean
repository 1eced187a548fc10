import UserDirectory.Json.Fields
import UserDirectory.Text.Blank

/-!
# Sort directives

A caller orders a search by terms such as `email DESC`, several of them in one text with commas or
in a list. Terms that do not read are passed over. The directory takes a term as the field with `1`
or `-1`.
-/

namespace UserDirectory

/-- The direction of a sort. -/
inductive SortDirection where
  | ascending
  | descending
  deriving DecidableEq, Repr, Inhabited

/-- **A sort term**: a field and a direction. -/
structure SortTerm where
  field : String
  direction : SortDirection
  deriving DecidableEq, Repr, Inhabited

/-- **A sort directive**: one text of terms, or a list of terms. -/
inductive Order where
  | one (text : String)
  | many (terms : List String)
  deriving DecidableEq, Repr, Inhabited

/-- Letters of ASCII in lower case, all other characters as they are. -/
def lowerAscii (s : String) : String := String.ofList (s.toList.map Char.toLower)

/-- The direction that a word names, in either case. -/
def SortDirection.ofWord? (word : String) : Option SortDirection :=
  match lowerAscii word with
  | "asc" => some .ascending
  | "desc" => some .descending
  | _ => none

/-- Reads `field`, `field ASC` or `field DESC`. -/
def SortTerm.ofText? (text : String) : Option SortTerm :=
  match blankSeparated text with
  | [field] => some ⟨field, .ascending⟩
  | [field, word] => (SortDirection.ofWord? word).map (SortTerm.mk field)
  | _ => none

/-- The directory's form of a direction. -/
def SortDirection.text : SortDirection → String
  | .ascending => "1"
  | .descending => "-1"

/-- The directory's form of a term. -/
def SortTerm.text (t : SortTerm) : String := t.field ++ ":" ++ t.direction.text

/-- **The terms of a directive**, in order, less those that do not read. -/
def Order.terms : Order → List SortTerm
  | .one text => (splitAtChar ',' text).filterMap SortTerm.ofText?
  | .many terms => terms.filterMap SortTerm.ofText?

/-- The directory's fields that a search can be sorted by. -/
def sortableFields : List String := ["email", "connection", "user_id", "created_at", "last_login"]

/-- Reads a directive: a string, or an array of strings. -/
def Order.ofJson? : Json → Option Order
  | .str s => some (.one s)
  | v => (v.strings?).map .many

/-- Writes a directive. -/
def Order.toJson : Order → Json
  | .one s => .str s
  | .many terms => Json.ofStrings terms

end UserDirectory
