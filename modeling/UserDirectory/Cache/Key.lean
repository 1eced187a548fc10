import UserDirectory.Digest.Sha256
import UserDirectory.Json.Printer
import UserDirectory.Text.Bytes

/-!
# Cache keys

The key of a call is the digest of its arguments, written canonically: object fields in ascending
order at every depth, arrays in their own order. So arguments that differ in the order of fields
alone have one key.
-/

namespace UserDirectory

/-- **The key that is never cached**: a call that has it goes past the cache. -/
def noCache : String := "NO_CACHE"

/-- The canonical text of a value, its objects in ascending key order. -/
def Json.canonicalText (v : Json) : String := v.ordered.text

/-- The key of a digest. -/
def memoKey (digest : List UInt8) : String := "memo:" ++ hexText digest

/-- **The key of a call's arguments.** -/
def hashArgs (args : Json) : String :=
  memoKey (Sha256.digest (utf8Bytes args.canonicalText))

/-- The key of arguments that may have no JSON form; without one the call is not cached. -/
def hashArgs? : Option Json → String
  | some args => hashArgs args
  | none => noCache

end UserDirectory
