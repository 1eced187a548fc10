import UserDirectory.Search.Bundle

/-!
# The directory

What a handle on the remote directory can do, seen from this side: six calls, each of which answers
or fails. `Directory m` is a handle whose calls have effects in `m`. `DirectoryCall` is a call as a
value, and `Directory.recorded` wraps any handle so that the calls made through it are listed.
-/

namespace UserDirectory

/-- **Why a call of the directory failed.** -/
inductive ClientError where
  /-- The request did not get there or was not answered. -/
  | request
  /-- The directory answered with an error. -/
  | api (status : Nat) (message : String)
  /-- The answer could not be used; the reason, where it is told. -/
  | invalidResponse (reason : String)
  /-- The address of the directory is no URL to go down from; the reason, where it is told. -/
  | url (reason : String)
  /-- The token could not be signed. -/
  | token
  deriving DecidableEq, Repr

/-- The wording of an error. -/
def ClientError.message : ClientError → String
  | .request => "HTTP request failed"
  | .api status message => "Directory API error (" ++ toString status ++ "): " ++ message
  | .invalidResponse reason => "Invalid response format: " ++ reason
  | .url reason => "Invalid directory URL: " ++ reason
  | .token => "Failed to sign API token"

/-- The result of a call. -/
abbrev ClientResult (α : Type) := Except ClientError α

/-- **One page of a search.** -/
structure UserPage where
  users : List Json := []
  /-- The number of all matches, if it was asked for. -/
  total : Option Nat := none
  deriving DecidableEq, Repr, Inhabited

namespace UserPage

/-- What is said of a body that is no page. -/
def mismatch : String := "data did not match any variant of untagged enum UserPageBody"

/-- Reads a page: the array of users, or an object with them and perhaps a total. -/
def ofJson? (v : Json) : Option UserPage :=
  match v with
  | .arr users => some { users }
  | v => do
    let fields ← v.fields? ["users", "total"] false
    let users ← (← fields.lookup "users").items?
    let total ← Json.optionalField? Json.nat? fields "total"
    pure { users, total }

/-- Reads a page from the body of an answer. -/
def ofBody (v : Json) : ClientResult UserPage :=
  match ofJson? v with
  | some page => .ok page
  | none => .error (.invalidResponse mismatch)

end UserPage

/-- **A handle on the directory.** -/
structure Directory (m : Type → Type) where
  /-- Creates a user. -/
  createUser : Record → m (ClientResult Json)
  /-- Searches for users. -/
  getUsers : UserQuery → m (ClientResult UserPage)
  /-- Updates the user of an id. -/
  updateUser : String → Record → m (ClientResult Json)
  /-- Deletes the user of an id. -/
  deleteUser : String → m (ClientResult Unit)
  /-- Links a further identity to a user. -/
  linkUser : String → Json → m (ClientResult Json)
  /-- Takes an identity, named by provider and id, from a user. -/
  unlinkUser : String → String → String → m (ClientResult Json)

/-- **A call of the directory.** -/
inductive DirectoryCall where
  | createUser (data : Record)
  | getUsers (query : UserQuery)
  | updateUser (id : String) (data : Record)
  | deleteUser (id : String)
  | linkUser (id : String) (data : Json)
  | unlinkUser (id provider userId : String)
  deriving DecidableEq

/-- **The handle that also tells each call**, before it is made. -/
def Directory.recorded {m : Type → Type} [Monad m] (d : Directory m)
    (tell : DirectoryCall → m Unit) : Directory m where
  createUser data := do tell (.createUser data); d.createUser data
  getUsers query := do tell (.getUsers query); d.getUsers query
  updateUser id data := do tell (.updateUser id data); d.updateUser id data
  deleteUser id := do tell (.deleteUser id); d.deleteUser id
  linkUser id data := do tell (.linkUser id data); d.linkUser id data
  unlinkUser id provider userId := do
    tell (.unlinkUser id provider userId); d.unlinkUser id provider userId

end UserDirectory
