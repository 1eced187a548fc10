import UserDirectory.Client.Directory

/-!
# A directory in memory

The smallest thing that behaves like the directory: a list of users and a counter for the ids of new
ones. Of a search it understands one term, the one that names an id, and otherwise answers with
every user.
-/

namespace UserDirectory

/-- **The users of a directory**, in the order of their creation. -/
structure InMemoryDirectory where
  users : List Json := []
  /-- How many users were created. -/
  created : Nat := 0
  deriving DecidableEq, Inhabited

namespace InMemoryDirectory

/-- The user has this id. -/
def hasId (id : String) (user : Json) : Bool := user.field? "user_id" == some (.str id)

/-- The id that a query asks for: the text between the first `user_id:"` and the next quote. -/
def wantedId? (q : String) : Option String :=
  match q.splitOn "user_id:\"" with
  | _ :: rest :: _ => (rest.splitOn "\"").head?
  | _ => none

/-- A new user, under the next id. -/
def create (d : InMemoryDirectory) (data : Record) : Json × InMemoryDirectory :=
  let id := "auth0|" ++ toString (d.created + 1)
  let user : Json := .obj (Table.insert data "user_id" (.str id))
  (user, { users := d.users ++ [user], created := d.created + 1 })

/-- The page of a search. -/
def search (d : InMemoryDirectory) (query : UserQuery) : UserPage :=
  let found :=
    match query.q.bind wantedId? with
    | some id => d.users.filter (hasId id)
    | none => d.users
  { users := query.perPage.elim found found.take
    total := query.includeTotals.map fun _ => found.length }

/-- The user with the fields of a record written over its own. -/
def overlaid (data : Record) : Json → Json
  | .obj fields => .obj (Table.overlay fields data)
  | v => v

/-- Writes a record over the first user with an id. -/
def update? (id : String) (data : Record) : List Json → Option (Json × List Json)
  | [] => none
  | user :: rest =>
    if hasId id user then some (overlaid data user, overlaid data user :: rest)
    else (update? id data rest).map fun (found, rest) => (found, user :: rest)

/-- The directory without the users that have an id. -/
def delete (d : InMemoryDirectory) (id : String) : InMemoryDirectory :=
  { d with users := d.users.filter (!hasId id ·) }

/-- The identity that an id names. -/
def identity (id : String) : Json := .obj [("user_id", .str id)]

/-- **The handle on a directory in memory.** -/
def handle : Directory (StateM InMemoryDirectory) where
  createUser data := do
    let (user, d) := (← get).create data
    set d
    pure (.ok user)
  getUsers query := do pure (.ok ((← get).search query))
  updateUser id data := do
    let d ← get
    match update? id data d.users with
    | some (user, users) =>
      set { d with users }
      pure (.ok user)
    | none => pure (.error (.api 404 "The user does not exist."))
  deleteUser id := do
    modify (·.delete id)
    pure (.ok ())
  linkUser id data := pure (.ok (.arr [identity id, data]))
  unlinkUser id _ _ := pure (.ok (.arr [identity id]))

end InMemoryDirectory

end UserDirectory
