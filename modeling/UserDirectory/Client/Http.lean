import UserDirectory.Client.Directory
import UserDirectory.Client.Token
import UserDirectory.Text.Blank
import UserDirectory.Text.Debug
import UserDirectory.Url.Reader

/-!
# The directory over HTTP

The calls of the directory as requests to its management interface, and what is made of the answers.
How requests travel is a parameter: a `Transport` takes a request and gives the response, or nothing
if there was none.

A user is addressed by its id as one segment of the path, encoded as the path requires. An id is not
looked at before, and those that no path can hold lead elsewhere.
-/

namespace UserDirectory

/-- A method of HTTP. -/
inductive HttpMethod where
  | get | post | patch | delete
  deriving DecidableEq, Repr

/-- The name of a method. -/
def HttpMethod.name : HttpMethod → String
  | .get => "GET"
  | .post => "POST"
  | .patch => "PATCH"
  | .delete => "DELETE"

/-- **A request.** -/
structure HttpRequest where
  method : HttpMethod
  url : Url
  /-- The token that goes with it. -/
  bearer : String
  /-- The JSON that it carries. -/
  body : Option Json
  deriving DecidableEq

/-- **A response.** -/
structure HttpResponse where
  status : Nat
  body : String
  deriving DecidableEq, Repr

/-- **How requests travel**; no response means that the request failed. -/
abbrev Transport (m : Type → Type) := HttpRequest → m (Option HttpResponse)

namespace HttpRequest

/-- The header that names the token. -/
def authorization (r : HttpRequest) : String := "Bearer " ++ r.bearer

/-- The text of the body. -/
def bodyText (r : HttpRequest) : String :=
  match r.body with
  | some v => v.text
  | none => ""

/-- The type of the body. -/
def contentType? (r : HttpRequest) : Option String := r.body.map fun _ => "application/json"

/-- A header may not hold controls other than the tab. -/
def isSendable (r : HttpRequest) : Bool :=
  (r.url.scheme == "http" || r.url.scheme == "https") &&
    r.bearer.toList.all fun c => c == '\t' || (0x20 ≤ c.toNat && c.toNat != 0x7F)

end HttpRequest

/-! ## Responses -/

/-- What a status means, in the words of the standard. -/
def statusReason? (status : Nat) : Option String :=
  [(100, "Continue"), (101, "Switching Protocols"), (102, "Processing"), (103, "Early Hints"),
    (200, "OK"), (201, "Created"), (202, "Accepted"), (203, "Non Authoritative Information"),
    (204, "No Content"), (205, "Reset Content"), (206, "Partial Content"), (207, "Multi-Status"),
    (208, "Already Reported"), (226, "IM Used"), (300, "Multiple Choices"),
    (301, "Moved Permanently"), (302, "Found"), (303, "See Other"), (304, "Not Modified"),
    (305, "Use Proxy"), (307, "Temporary Redirect"), (308, "Permanent Redirect"),
    (400, "Bad Request"), (401, "Unauthorized"), (402, "Payment Required"), (403, "Forbidden"),
    (404, "Not Found"), (405, "Method Not Allowed"), (406, "Not Acceptable"),
    (407, "Proxy Authentication Required"), (408, "Request Timeout"), (409, "Conflict"),
    (410, "Gone"), (411, "Length Required"), (412, "Precondition Failed"),
    (413, "Payload Too Large"), (414, "URI Too Long"), (415, "Unsupported Media Type"),
    (416, "Range Not Satisfiable"), (417, "Expectation Failed"), (418, "I'm a teapot"),
    (421, "Misdirected Request"), (422, "Unprocessable Entity"), (423, "Locked"),
    (424, "Failed Dependency"), (425, "Too Early"), (426, "Upgrade Required"),
    (428, "Precondition Required"), (429, "Too Many Requests"),
    (431, "Request Header Fields Too Large"), (451, "Unavailable For Legal Reasons"),
    (500, "Internal Server Error"), (501, "Not Implemented"), (502, "Bad Gateway"),
    (503, "Service Unavailable"), (504, "Gateway Timeout"), (505, "HTTP Version Not Supported"),
    (506, "Variant Also Negotiates"), (507, "Insufficient Storage"), (508, "Loop Detected"),
    (510, "Not Extended"), (511, "Network Authentication Required")].lookup status

namespace HttpResponse

/-- The status tells success. -/
def isSuccess (r : HttpResponse) : Bool := 200 ≤ r.status && r.status < 300

/-- The text without the byte order mark that it may begin with. -/
def dropByteOrderMark (s : String) : String :=
  match s.toList with
  | '\uFEFF' :: rest => String.ofList rest
  | _ => s

/-- The text of the body, which some statuses never have. -/
def content (r : HttpResponse) : String :=
  if r.status == 204 || r.status == 304 then "" else dropByteOrderMark r.body

/-- The explanation in the body of an error: its `message` or else its `error`. -/
def explanation? (r : HttpResponse) : Option String :=
  match Json.read? r.content with
  | some (.obj fields) =>
    ((Table.get? fields "message").bind Json.string?).or
      ((Table.get? fields "error").bind Json.string?)
  | _ => none

/-- **The text of an error**: the explanation in the body, or else the body, or else the meaning of
the status. -/
def errorText (r : HttpResponse) : String :=
  match r.explanation? with
  | some text => text
  | none =>
    let body := trimBlanks r.content
    if body.isEmpty then (statusReason? r.status).getD "Unknown error" else body

/-- **What a response says**: its JSON, nothing for a blank body, or an error. -/
def result (r : HttpResponse) : ClientResult (Option Json) :=
  if !r.isSuccess then .error (.api r.status r.errorText)
  else if (trimBlanks r.content).isEmpty then .ok none
  else
    match Json.read? r.content with
    | some v => .ok (some v)
    | none => .error (.invalidResponse "")

end HttpResponse

/-! ## Handles -/

/-- **An authorised address of the directory.** -/
structure ManagementClient where
  baseUrl : Url
  token : String
  deriving DecidableEq

/-- The text without slashes at its end. -/
def trimEndSlashes (s : String) : String :=
  String.ofList (s.toList.reverse.dropWhile (· == '/')).reverse

/-- The address of a tenant's management interface; the scheme is `https` unless the domain names
another one of the web's two. -/
def managementBaseUrl (domain : String) : String :=
  let domain := trimEndSlashes domain
  let hasScheme := ["http://", "https://"].any fun scheme =>
    scheme.toList.isPrefixOf domain.toList
  if hasScheme then domain ++ "/api/v2" else "https://" ++ domain ++ "/api/v2"

namespace ManagementClient

/-- The handle for an address, which must be a URL with a hierarchy. -/
def ofBaseUrl (baseUrl token : String) : ClientResult ManagementClient :=
  match Url.read? baseUrl with
  | none => .error (.url "")
  | some url =>
    if url.isPlain then .error (.url (url.print ++ " cannot be a base URL"))
    else .ok { baseUrl := url, token }

/-- A handle for diagnostics: its address, and nothing of its token. -/
def debugText (c : ManagementClient) : String :=
  "ManagementClient \x7b base_url: " ++ UserDirectory.debugText c.baseUrl.print ++ ", .. \x7d"

/-- The resource at the end of the names. -/
def endpoint (c : ManagementClient) (names : List String) : ClientResult Url :=
  match c.baseUrl.addSegments? names with
  | some url => .ok url
  | none => .error (.url c.baseUrl.print)

variable {m : Type → Type} [Monad m]

/-- Sends a request and reads the answer. -/
def send (transport : Transport m) (request : HttpRequest) : m (ClientResult (Option Json)) := do
  if !request.isSendable then pure (.error .request)
  else
    match ← transport request with
    | none => pure (.error .request)
    | some response => pure response.result

/-- A call: its resource, a method, and perhaps a body. -/
def call (c : ManagementClient) (transport : Transport m) (method : HttpMethod)
    (names : List String) (body : Option Json) : m (ClientResult (Option Json)) :=
  match c.endpoint names with
  | .error e => pure (.error e)
  | .ok url => send transport { method, url, bearer := c.token, body }

/-- The text of a query's field in a form. -/
def formValue : Json → String
  | .str s => s
  | v => v.text

/-- The query of a search request, as the pairs of a form. -/
def searchPairs (query : UserQuery) : List (String × String) :=
  query.presentFields.map fun (k, v) => (k, formValue v)

/-- A search. -/
def search (c : ManagementClient) (transport : Transport m) (query : UserQuery) :
    m (ClientResult UserPage) :=
  match c.endpoint ["users"] with
  | .error e => pure (.error e)
  | .ok url => do
    let url := url.addQuery (searchPairs query)
    match ← send transport { method := .get, url, bearer := c.token, body := none } with
    | .error e => pure (.error e)
    | .ok none => pure (.ok {})
    | .ok (some v) => pure (UserPage.ofBody v)

/-- **The directory behind a handle.** -/
def directory (c : ManagementClient) (transport : Transport m) : Directory m where
  createUser data := orNull <$> c.call transport .post ["users"] (some (.obj data))
  getUsers query := c.search transport query
  updateUser id data := orNull <$> c.call transport .patch ["users", id] (some (.obj data))
  deleteUser id := (·.map fun _ => ()) <$> c.call transport .delete ["users", id] none
  linkUser id data := orNull <$> c.call transport .post ["users", id, "identities"] (some data)
  unlinkUser id provider userId :=
    orNull <$> c.call transport .delete ["users", id, "identities", provider, userId] none
where
  /-- No answer reads as `null`. -/
  orNull (r : ClientResult (Option Json)) : ClientResult Json := r.map (·.getD .null)

end ManagementClient

/-- **What signed handles are made of.** -/
structure ClientCredentials where
  baseUrl : String
  clientId : String
  clientSecret : String
  /-- Seconds that a token lives. -/
  tokenLifetime : Nat
  deriving DecidableEq

/-- A handle with a token signed at `now`, in seconds of the epoch. -/
def ClientCredentials.createClient (c : ClientCredentials) (scopes : TokenScopes) (now : Int)
    (tokenId : String) : ClientResult ManagementClient :=
  let claims := TokenClaims.issue c.clientId scopes c.tokenLifetime now tokenId
  ManagementClient.ofBaseUrl c.baseUrl (claims.sign c.clientSecret)

end UserDirectory
