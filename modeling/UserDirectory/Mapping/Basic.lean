import UserDirectory.Table

/-!
# Field mappings

A field mapping sends the names of one side to paths of the other: the caller's `favoriteColor` to
the directory's `user_metadata.favoriteColor`. An entry with an empty side is dropped, which is how
a model takes back an entry of a wider table.

`FieldMapping.invert` turns a mapping round. It exists when no two live entries share a target;
otherwise the error names the first such pair in key order.
-/

namespace UserDirectory

/-- **A field mapping**, in ascending order of its names. -/
structure FieldMapping where
  /-- All entries, dropped ones included. -/
  entries : Table String
  ordered : Table.Ordered entries

instance : DecidableEq FieldMapping := fun a b =>
  decidable_of_iff (a.entries = b.entries) <| by cases a; cases b; simp

/-- Two live entries with one target. -/
structure DuplicateTarget where
  target : String
  /-- The name whose entry came first. -/
  first : String
  /-- The name whose entry came second. -/
  second : String
  deriving DecidableEq, Repr

/-- The wording of the error. -/
def DuplicateTarget.message (e : DuplicateTarget) : String :=
  "fields `" ++ e.first ++ "` and `" ++ e.second ++ "` both map to `" ++ e.target ++
    "`; map one of them to an empty string or supply the inverse table explicitly"

namespace FieldMapping

/-- The mapping without entries. -/
def empty : FieldMapping := ⟨[], Table.ordered_nil⟩

instance : Inhabited FieldMapping := ⟨empty⟩

/-- Gives a name a target. -/
def insert (m : FieldMapping) (name target : String) : FieldMapping :=
  ⟨m.entries.insert name target, m.ordered.insert name target⟩

/-- The mapping of a list of pairs, the later of equal names counting. -/
def ofList (pairs : List (String × String)) : FieldMapping :=
  ⟨Table.ofList pairs, Table.ordered_ofList pairs⟩

/-- **Writes the entries of another mapping over this one**, dropped entries included. -/
def extend (m other : FieldMapping) : FieldMapping :=
  ⟨m.entries.overlay other.entries, m.ordered.overlay other.entries⟩

/-- The target of a name, unless its entry is dropped. -/
def get? (m : FieldMapping) (name : String) : Option String :=
  (m.entries.get? name).filter (!·.isEmpty)

/-- **The target of a name**, or the name itself when it has none. -/
def apply (m : FieldMapping) (name : String) : String := (m.get? name).getD name

/-- The live entries, in key order: both sides nonempty. -/
def live (m : FieldMapping) : List (String × String) :=
  m.entries.filter fun e => !e.1.isEmpty && !e.2.isEmpty

/-- How many live entries there are. -/
def size (m : FieldMapping) : Nat := m.live.length

/-- There is no live entry. -/
def isEmpty (m : FieldMapping) : Bool := m.live.isEmpty

/-- Adds the inverse of an entry to the inverse of those before it. -/
def invertStep (inverse : FieldMapping) (entry : String × String) :
    Except DuplicateTarget FieldMapping :=
  match inverse.entries.get? entry.2 with
  | some first => .error ⟨entry.2, first, entry.1⟩
  | none => .ok (inverse.insert entry.2 entry.1)

/-- **The inverse**: targets to names, over the live entries. -/
def invert (m : FieldMapping) : Except DuplicateTarget FieldMapping :=
  m.live.foldlM invertStep empty

/-- The mapping of the directory's own user fields. -/
def builtin : FieldMapping := ofList [
  ("id", "user_id"),
  ("username", "username"),
  ("name", "name"),
  ("nickname", "nickname"),
  ("picture", "picture"),
  ("password", "password"),
  ("verifyPassword", "verify_password"),
  ("email", "email"),
  ("emailVerified", "email_verified"),
  ("verifyEmail", "verify_email"),
  ("phoneNumber", "phone_number"),
  ("phoneVerified", "phone_verified"),
  ("verifyPhoneNumber", "verify_phone_number"),
  ("givenName", "given_name"),
  ("familyName", "family_name"),
  ("identities", "identities"),
  ("createdAt", "created_at"),
  ("updatedAt", "updated_at"),
  ("clientId", "client_id"),
  ("lastIp", "last_ip"),
  ("lastLogin", "last_login"),
  ("loginsCount", "logins_count")]

end FieldMapping

end UserDirectory
