import UserDirectory.Url.Basic

/-!
# Reading URLs

`Url.read?` reads an absolute URL and brings it to normal form: blanks around it go, the scheme and
the host become lower-case, the scheme's own port is dropped, dot segments are resolved, and what a
place does not allow is percent-encoded. Web addresses read a backslash as a slash and do not mind
how many slashes stand before the host.
-/

namespace UserDirectory.Url

/-- The text before the first character that satisfies the test, and the text from it on. -/
def splitBefore (p : Char → Bool) (cs : List Char) : List Char × List Char :=
  (cs.takeWhile (!p ·), cs.dropWhile (!p ·))

/-- The input without controls and spaces around it, and without tabs and line ends anywhere. -/
def cleanInput (cs : List Char) : List Char :=
  let blank (c : Char) : Bool := c.toNat ≤ 0x20
  (((cs.dropWhile blank).reverse.dropWhile blank).reverse).filter fun c => !isVanishing c

/-- The scheme in front of the first colon, in lower case, and what follows. -/
def scheme? (cs : List Char) : Option (String × List Char) :=
  match splitBefore (· == ':') cs with
  | (c :: rest, ':' :: tail) =>
    if c.isAlpha && rest.all fun c => c.isAlphanum || ['+', '-', '.'].contains c then
      some (String.ofList ((c :: rest).map Char.toLower), tail)
    else none
  | _ => none

/-! ## Paths -/

/-- The segment is a single dot, perhaps encoded. -/
def isSingleDot (s : List Char) : Bool :=
  ["." , "%2e"].contains (String.ofList (s.map Char.toLower))

/-- The segment is two dots, perhaps encoded. -/
def isDoubleDot (s : List Char) : Bool :=
  ["..", ".%2e", "%2e.", "%2e%2e"].contains (String.ofList (s.map Char.toLower))

/-- A letter and a colon or a bar, the name of a drive. -/
def isDriveLetter : List Char → Bool
  | [c, d] => c.isAlpha && (d == ':' || d == '|')
  | _ => false

/-- The path without its last segment; a drive stays. -/
def shortenPath (file : Bool) (path : List (List Char)) : List (List Char) :=
  if file && path.length == 1 && path.all isDriveLetter then path else path.dropLast

/-- Resolves the segments of a path from left to right. -/
def resolveSegments (file : Bool) : List (List Char) → List (List Char) → List (List Char)
  | path, [] => path
  | path, s :: rest =>
    let ending : List (List Char) := if rest.isEmpty then [[]] else []
    if isDoubleDot s then resolveSegments file (shortenPath file path ++ ending) rest
    else if isSingleDot s then resolveSegments file (path ++ ending) rest
    else
      let s := percentEncode pathSet s
      let s :=
        match file && path.isEmpty && isDriveLetter s, s with
        | true, c :: _ => [c, ':']
        | _, s => s
      resolveSegments file (path ++ [s]) rest

/-- The path that a text writes, whose first slash has been taken off. -/
def readPath (special file : Bool) (cs : List Char) : Path :=
  let isSlash (c : Char) : Bool := c == '/' || (special && c == '\\')
  .segments ((resolveSegments file [] (splitAtAll isSlash cs)).map String.ofList)

/-! ## Authorities -/

/-- User name and password: the text before the last `@`, if there is one, and the text behind
it. -/
def splitUserinfo (cs : List Char) : Option (List Char) × List Char :=
  match splitBefore (· == '@') cs.reverse with
  | (host, '@' :: user) => (some user.reverse, host.reverse)
  | _ => (none, cs)

/-- The host and the text of the port behind the first colon outside of brackets. -/
def splitPort : Bool → List Char → List Char × Option (List Char)
  | _, [] => ([], none)
  | inside, c :: rest =>
    if c == ':' && !inside then ([], some rest)
    else
      let inside := if c == '[' then true else if c == ']' then false else inside
      let (host, port) := splitPort inside rest
      (c :: host, port)

/-- A port: digits up to 65535. No digits and the scheme's own port are none. -/
def port? (scheme : String) (cs : List Char) : Option (Option Nat) :=
  if cs.isEmpty then some none
  else
    match digits? cs with
    | none => none
    | some n =>
      if 65535 < n then none
      else if specialSchemes.lookup scheme == some (some n) then some none
      else some (some n)

/-- An authority as the parts of a URL without path. -/
def authority? (scheme : String) (cs : List Char) : Option Url := do
  let (userinfo, hostPort) := splitUserinfo cs
  let (hostText, portText) := splitPort false hostPort
  let special := isSpecialScheme scheme
  if hostText.isEmpty && (special || userinfo.isSome || portText.isSome) then none
  let host ← if special then specialHost? hostText else plainHost? hostText
  let port ← port? scheme (portText.getD [])
  let (name, word) := splitBefore (· == ':') (userinfo.getD [])
  let password := word.drop 1
  pure {
    scheme
    username := String.ofList (percentEncode userinfoSet name)
    password :=
      if password.isEmpty then none else some (String.ofList (percentEncode userinfoSet password))
    host := some host
    port
    path := .segments [] }

/-! ## The forms of a URL -/

/-- Behind the slashes: an authority and a path. -/
def readHierarchy? (scheme : String) (cs : List Char) : Option Url := do
  let special := isSpecialScheme scheme
  let (auth, rest) := splitBefore (fun c => c == '/' || (special && c == '\\')) cs
  let url ← authority? scheme auth
  if rest.isEmpty && !special then pure url
  else pure { url with path := readPath special false (rest.drop 1) }

/-- A file: perhaps a host behind two slashes, and a path. -/
def readFile? (cs : List Char) : Option Url := do
  let isSlash (c : Char) : Bool := c == '/' || c == '\\'
  let rooted (host : Host) (path : List Char) : Url :=
    { scheme := "file", host := some host, path := readPath true true path }
  match cs with
  | a :: b :: rest =>
    if isSlash a && isSlash b then
      let (hostText, tail) := splitBefore isSlash rest
      if isDriveLetter hostText then pure (rooted (.text "") rest)
      else if hostText.isEmpty then pure (rooted (.text "") (tail.drop 1))
      else
        match ← specialHost? hostText with
        | .domain "localhost" => pure (rooted (.text "") (tail.drop 1))
        | host => pure (rooted host (tail.drop 1))
    else if isSlash a then pure (rooted (.text "") (b :: rest))
    else pure (rooted (.text "") cs)
  | [a] => pure (rooted (.text "") (if isSlash a then [] else [a]))
  | [] => pure (rooted (.text "") [])

/-- What stands between the scheme and the query. -/
def readBody? (scheme : String) (cs : List Char) : Option Url :=
  if scheme == "file" then readFile? cs
  else if isSpecialScheme scheme then
    readHierarchy? scheme (cs.dropWhile fun c => c == '/' || c == '\\')
  else
    match cs with
    | '/' :: '/' :: rest => readHierarchy? scheme rest
    | '/' :: rest => some { scheme, path := readPath false false rest }
    | cs => some { scheme, path := .plain (String.ofList (percentEncode isControlOrBeyond cs)) }

/-- **Reads an absolute URL.** -/
def read? (text : String) : Option Url := do
  let (scheme, rest) ← scheme? (cleanInput text.toList)
  let (rest, fragment) := splitBefore (· == '#') rest
  let (body, query) := splitBefore (· == '?') rest
  let url ← readBody? scheme body
  let encode (set : Char → Bool) : List Char → Option String
    | [] => none
    | _ :: cs => some (String.ofList (percentEncode set cs))
  pure { url with
    query := encode (if isSpecialScheme scheme then specialQuerySet else querySet) query
    fragment := encode fragmentSet fragment }

end UserDirectory.Url
