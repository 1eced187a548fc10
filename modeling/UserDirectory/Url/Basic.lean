import UserDirectory.Url.Host

/-!
# URLs

A URL has a scheme and either a hierarchy (an authority, perhaps, and a path of segments) or, like
`urn:isbn:1`, a plain text that nothing can be resolved against. `Url.print` writes it, and
`Url.addSegments` goes down its path, one segment for each name: names of one or two dots are passed
over, and all that could be taken for syntax is percent-encoded.
-/

namespace UserDirectory

namespace Url

/-- **The path of a URL.** -/
inductive Path where
  /-- Segments, each behind a slash. -/
  | segments (list : List String)
  /-- A text without hierarchy. -/
  | plain (text : String)
  deriving DecidableEq, Repr

end Url

/-- **A URL**, in normal form. -/
structure Url where
  scheme : String
  username : String := ""
  password : Option String := none
  host : Option Url.Host := none
  /-- The port, where it is not the scheme's own. -/
  port : Option Nat := none
  path : Url.Path
  query : Option String := none
  fragment : Option String := none
  deriving DecidableEq, Repr

namespace Url

/-- The web's schemes with their ports; a file has none. -/
def specialSchemes : List (String × Option Nat) :=
  [("http", some 80), ("https", some 443), ("ws", some 80), ("wss", some 443), ("ftp", some 21),
    ("file", none)]

/-- The scheme is one of the web's. -/
def isSpecialScheme (scheme : String) : Bool := (specialSchemes.lookup scheme).isSome

/-- The URL has no hierarchy. -/
def isPlain (u : Url) : Bool :=
  match u.path with
  | .plain _ => true
  | .segments _ => false

/-- The text of a path. -/
def Path.print : Path → String
  | .plain t => t
  | .segments list => String.join (list.map ("/" ++ ·))

/-- User name and password before the host. -/
def printUserinfo (u : Url) : String :=
  if u.username.isEmpty && u.password.isNone then ""
  else u.username ++ (match u.password with
    | some p => ":" ++ p
    | none => "") ++ "@"

/-- The authority with its slashes. A path that itself begins with two slashes is set off from a
missing authority. -/
def printAuthority (u : Url) : String :=
  match u.host with
  | some h => "//" ++ u.printUserinfo ++ h.print ++ (match u.port with
    | some p => ":" ++ toString p
    | none => "")
  | none =>
    match u.path with
    | .segments ("" :: _ :: _) => "/."
    | _ => ""

/-- The query behind its mark. -/
def printQuery (u : Url) : String :=
  match u.query with
  | some q => "?" ++ q
  | none => ""

/-- **The text of a URL.** -/
def print (u : Url) : String :=
  u.scheme ++ ":" ++ u.printAuthority ++ u.path.print ++ u.printQuery ++
    (match u.fragment with
    | some f => "#" ++ f
    | none => "")

/-- What a request asks its host for: the path and the query. -/
def target (u : Url) : String := u.path.print ++ u.printQuery

/-! ## Going down a path -/

/-- Tabs and line ends vanish from a URL. -/
def isVanishing (c : Char) : Bool := c == '\t' || c == '\n' || c == '\r'

/-- A name as a segment: encoded so that nothing in it is syntax. -/
def encodeSegment (special : Bool) (name : String) : String :=
  String.ofList <|
    percentEncode (if special then specialSegmentSet else segmentSet)
      (name.toList.filter fun c => !isVanishing c)

/-- The path with a segment added. The root's empty segment makes room. A segment that has become a
dot stands for none, and one that has become two dots takes back the last. -/
def addSegment (path : List String) (segment : String) : List String :=
  let parent := if path == [""] then [] else path
  if segment == "." then parent ++ [""]
  else if segment == ".." then parent.dropLast ++ [""]
  else parent ++ [segment]

/-- An empty last segment is dropped, the root's excepted. -/
def dropEmptyLast (path : List String) : List String :=
  match path with
  | [] | [_] => path
  | _ => if path.getLast? == some "" then path.dropLast else path

/-- **The URL further down its path**, or nothing if it has no hierarchy. Names of one or two dots
are passed over. -/
def addSegments? (u : Url) (names : List String) : Option Url :=
  match u.path with
  | .plain _ => none
  | .segments path =>
    let names := names.filter fun n => n != "." && n != ".."
    let encoded := names.map (encodeSegment (isSpecialScheme u.scheme))
    some { u with path := .segments (encoded.foldl addSegment (dropEmptyLast path)) }

/-- The URL with the pairs of a form added to its query; an empty query is none. -/
def addQuery (u : Url) (pairs : List (String × String)) : Url :=
  let form := formQuery pairs
  let query :=
    match u.query with
    | none => form
    | some q => if q.isEmpty then form else if form.isEmpty then q else q ++ "&" ++ form
  { u with query := if query.isEmpty then none else some query }

end Url

end UserDirectory
