import UserDirectory.Json.Fields

/-!
# Token scopes

The permissions that a handle on the directory is asked for: for each resource, the actions on it. A
later grant replaces all actions of its resource.
-/

namespace UserDirectory

/-- **Permissions**: resources with their actions. -/
structure TokenScopes where
  resources : Table (List String)
  ordered : Table.Ordered resources

instance : DecidableEq TokenScopes := fun a b =>
  decidable_of_iff (a.resources = b.resources) <| by cases a; cases b; simp

namespace TokenScopes

/-- No permission. -/
def empty : TokenScopes := ⟨[], Table.ordered_nil⟩

instance : Inhabited TokenScopes := ⟨empty⟩

/-- The permissions of a list of grants. -/
def ofList (grants : List (String × List String)) : TokenScopes :=
  ⟨Table.ofList grants, Table.ordered_ofList grants⟩

/-- Grants the actions on a resource and no others. -/
def grant (s : TokenScopes) (resource : String) (actions : List String) : TokenScopes :=
  ⟨s.resources.insert resource actions, s.ordered.insert resource actions⟩

/-- **Lays other permissions over these**, resource by resource. -/
def merge (s other : TokenScopes) : TokenScopes :=
  ⟨s.resources.overlay other.resources, s.ordered.overlay other.resources⟩

/-- The actions on a resource. -/
def actions? (s : TokenScopes) (resource : String) : Option (List String) :=
  s.resources.get? resource

/-- There is no resource. -/
def isEmpty (s : TokenScopes) : Bool := s.resources.isEmpty

/-- All that may be done to a resource. -/
def allActions : List String := ["create", "read", "update", "delete"]

/-- **Full access** to users and to the part of them that applications keep. -/
def full : TokenScopes := ofList [("users", allActions), ("users_app_metadata", allActions)]

/-- Reads an object of string arrays. -/
def ofJson? : Json → Option TokenScopes
  | .obj fields => do
    let grants ← fields.mapM fun (k, v) => do pure (k, ← v.strings?)
    pure (ofList grants)
  | _ => none

/-- Writes an object of string arrays. -/
def toJson (s : TokenScopes) : Json := .obj (s.resources.mapValues Json.ofStrings)

end TokenScopes

end UserDirectory
