import UserDirectory.Cache.Key
import UserDirectory.Table

/-!
# Caches with a time to live

A cache keeps each value for a fixed time from the moment it was stored; a reading does not prolong
it. An entry lives while the clock shows at most its expiry. Every lookup first purges what has
expired. Errors are not stored, and neither is anything under `noCache`.

The clock is an argument: `now` is the time of the call. Times and lifetimes are counted in the ticks
of one clock, whatever these are.
-/

namespace UserDirectory

/-- A stored value. -/
structure CacheEntry (α : Type) where
  value : α
  /-- The last time at which the entry lives. -/
  expiresAt : Nat
  deriving DecidableEq, Repr

/-- **A cache** of values by key. -/
structure TtlCache (α : Type) where
  /-- What is stored, expired entries included until the next purge. -/
  entries : Table (CacheEntry α)
  /-- How long an entry lives. -/
  ttl : Nat

namespace TtlCache

variable {α ε : Type} {m : Type → Type} [Monad m]

/-- The cache that holds nothing. -/
def empty (ttl : Nat) : TtlCache α := ⟨[], ttl⟩

/-- Removes what has expired. -/
def purge (c : TtlCache α) (now : Nat) : TtlCache α :=
  { c with entries := c.entries.filter fun e => now ≤ e.2.expiresAt }

/-- Stores a value from now on. -/
def store (c : TtlCache α) (now : Nat) (key : String) (value : α) : TtlCache α :=
  { c with entries := c.entries.insert key ⟨value, now + c.ttl⟩ }

/-- What a lookup finds. -/
inductive Finding (α : Type) where
  /-- The key is never cached. -/
  | bypass
  | hit (value : α)
  | miss
  deriving DecidableEq, Repr

/-- Looks a key up in a purged cache. -/
def find (c : TtlCache α) (key : String) : Finding α :=
  if key = noCache then .bypass
  else
    match c.entries.get? key with
    | some entry => .hit entry.value
    | none => .miss

/-- **The cached value, or the one that is computed now.** An error is handed on and not stored. -/
def getOrTry (c : TtlCache α) (now : Nat) (key : String) (compute : m (Except ε α)) :
    m (Except ε α × TtlCache α) := do
  let c := c.purge now
  match c.find key with
  | .bypass => do pure (← compute, c)
  | .hit value => pure (.ok value, c)
  | .miss => do
    match ← compute with
    | .ok value => pure (.ok value, c.store now key value)
    | .error e => pure (.error e, c)

/-- The cached value, or the one that is computed now. -/
def getOrInsert (c : TtlCache α) (now : Nat) (key : String) (compute : m α) :
    m (α × TtlCache α) := do
  let c := c.purge now
  match c.find key with
  | .bypass => do pure (← compute, c)
  | .hit value => pure (value, c)
  | .miss => do
    let value ← compute
    pure (value, c.store now key value)

/-- The cached value. -/
def get? (c : TtlCache α) (now : Nat) (key : String) : Option α × TtlCache α :=
  let c := c.purge now
  ((c.entries.get? key).map (·.value), c)

/-- Removes a key. -/
def invalidate (c : TtlCache α) (key : String) : TtlCache α :=
  { c with entries := c.entries.erase key }

/-- Removes everything. -/
def clear (c : TtlCache α) : TtlCache α := { c with entries := [] }

/-- How many entries are stored, expired ones included. -/
def size (c : TtlCache α) : Nat := c.entries.length

end TtlCache

/-- **Calls a function through a cache**, under the key of its arguments. -/
def memoCall {α β : Type} {m : Type → Type} [Monad m] (hasher : α → String) (f : α → m β)
    (c : TtlCache β) (now : Nat) (args : α) : m (β × TtlCache β) :=
  c.getOrInsert now (hasher args) (f args)

end UserDirectory
