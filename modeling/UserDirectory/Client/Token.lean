import UserDirectory.Client.Scopes
import UserDirectory.Decimal.Power
import UserDirectory.Digest.Sha256
import UserDirectory.Json.Printer
import UserDirectory.Json.Reader
import UserDirectory.Text.Bytes

/-!
# API tokens

A handle on the directory carries a token that its holder signs: who asks, for which permissions,
and until when. The token is a header, the claims and their keyed digest, each in base64 with points
between them.

The secret is base64 as a rule; one that does not read as such is used as it stands.
-/

namespace UserDirectory

/-- **What a token claims.** Times are seconds of the epoch. -/
structure TokenClaims where
  /-- The client that asks. -/
  audience : String
  scopes : Table (List String)
  issuedAt : Int
  expiresAt : Int
  /-- A name of the token, never given twice. -/
  tokenId : String
  deriving DecidableEq, Repr

/-- The greatest time that a token can name. -/
def maxTime : Int := signedLimit - 1

/-- The least time that a token can name. -/
def minTime : Int := -signedLimit

/-- The name of a token as 32 hexadecimal digits of a random number, four of them marked with the
version and the variant of random identifiers. -/
def tokenIdOf (random : List UInt8) : String :=
  hexText <| (random.take 16).zipIdx.map fun (b, i) =>
    if i == 6 then (b &&& 0x0F) ||| 0x40 else if i == 8 then (b &&& 0x3F) ||| 0x80 else b

namespace TokenClaims

/-- **The claims of a new token**: it lives for so many seconds from `now` on, or to the end of
time. -/
def issue (client : String) (scopes : TokenScopes) (lifetime : Nat) (now : Int) (tokenId : String) :
    TokenClaims where
  audience := client
  scopes := scopes.resources
  issuedAt := now
  expiresAt := min (now + min (lifetime : Int) maxTime) maxTime
  tokenId := tokenId

/-- The claims as an object. -/
def scopesJson (c : TokenClaims) : Json :=
  .obj (c.scopes.map fun (k, v) => (k, .obj [("actions", .ofStrings v)]))

/-- The claims' text, fields in the order of declaration. -/
def payload (c : TokenClaims) : String :=
  Json.text <| .obj [("aud", .str c.audience), ("scopes", c.scopesJson),
    ("iat", .num (.int c.issuedAt)), ("exp", .num (.int c.expiresAt)), ("jti", .str c.tokenId)]

/-- The names of the claims, in the order of declaration. -/
def fieldNames : List String := ["aud", "scopes", "iat", "exp", "jti"]

/-- A signed integer of 64 bits. -/
def time? : Json → Option Int
  | .num (.int n) => if minTime ≤ n && n ≤ maxTime then some n else none
  | _ => none

/-- The actions of a resource: an object, or the array of its only field. -/
def actions? (v : Json) : Option (List String) := do
  let fields ← v.fields? ["actions"] false
  (← fields.lookup "actions").strings?

/-- The scopes of a token. -/
def scopes? : Json → Option (Table (List String))
  | .obj fields => fields.mapM fun (k, v) => do pure (k, ← actions? v)
  | _ => none

/-- Reads claims; all of them must be there. -/
def ofJson? (v : Json) : Option TokenClaims := do
  let fields ← v.fields? fieldNames false
  pure {
    audience := ← (← fields.lookup "aud").string?
    scopes := ← scopes? (← fields.lookup "scopes")
    issuedAt := ← time? (← fields.lookup "iat")
    expiresAt := ← time? (← fields.lookup "exp")
    tokenId := ← (← fields.lookup "jti").string? }

end TokenClaims

/-- The key that a secret stands for. -/
def secretKey (secret : String) : List UInt8 :=
  (Base64.read? secret.toList).getD (utf8Bytes secret)

/-- The header of every token. -/
def tokenHeader : String := "\x7b\"typ\":\"JWT\",\"alg\":\"HS256\"\x7d"

/-- A text in base64. -/
def tokenPart (text : String) : String := Base64.urlText (utf8Bytes text)

/-- The signature of a token's first two parts. -/
def tokenSignature (secret message : String) : String :=
  Base64.urlText (hmacSha256 (secretKey secret) (utf8Bytes message))

/-- **Signs claims.** -/
def TokenClaims.sign (c : TokenClaims) (secret : String) : String :=
  let message := tokenPart tokenHeader ++ "." ++ tokenPart c.payload
  message ++ "." ++ tokenSignature secret message

/-- **Opens a token** that the secret has signed: the text of its header, and its claims. -/
def openToken? (token secret : String) : Option (String × TokenClaims) :=
  match token.splitOn "." with
  | [header, payload, signature] => do
    if tokenSignature secret (header ++ "." ++ payload) != signature then none
    let headerText ← String.fromUTF8? ⟨(← Base64.readUrl? header.toList).toArray⟩
    let payloadText ← String.fromUTF8? ⟨(← Base64.readUrl? payload.toList).toArray⟩
    let claims ← (Json.read? payloadText).bind TokenClaims.ofJson?
    pure (headerText, claims)
  | _ => none

end UserDirectory
