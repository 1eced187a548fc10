import UserDirectory.Cache.Ttl
import UserDirectory.Proofs.Table

/-!
# What a cache holds

A cache is known by what its keys read. A purge takes the entries away whose time is
over and leaves the others as they are, and what is stored now lives for the cache's
time from now on. That the entries are in order matters to the purge alone: of two
entries under one key it could take away the first and so show the second.
-/

namespace UserDirectory

/-- An entry that is filtered out is no longer read, and any other is. -/
theorem Table.Ordered.get?_filter {α : Type} {t : Table α} (h : Ordered t) (keep : α → Bool)
    (key : String) :
    get? (t.filter fun e => keep e.2) key = (get? t key).filter keep := by
  have hfiltered : Ordered (t.filter fun e => keep e.2) := List.Pairwise.filter _ h
  ext value
  rw [hfiltered.get?_eq_some_iff, List.mem_filter, Option.filter_eq_some_iff, h.get?_eq_some_iff]

namespace TtlCache

variable {α ε : Type} {c : TtlCache α}

@[simp] theorem purge_ttl (c : TtlCache α) (now : Nat) : (c.purge now).ttl = c.ttl := rfl

theorem ordered_purge (h : Table.Ordered c.entries) (now : Nat) :
    Table.Ordered (c.purge now).entries :=
  List.Pairwise.filter _ h

theorem ordered_store (h : Table.Ordered c.entries) (now : Nat) (key : String) (value : α) :
    Table.Ordered (c.store now key value).entries :=
  h.insert key _

/-- **A purge leaves what lives**, up to and including its last moment. -/
theorem get?_purge_eq_some_iff (h : Table.Ordered c.entries) {now : Nat} {key : String}
    {entry : CacheEntry α} :
    Table.get? (c.purge now).entries key = some entry ↔
      Table.get? c.entries key = some entry ∧ now ≤ entry.expiresAt := by
  show Table.get? (c.entries.filter _) key = some entry ↔ _
  rw [h.get?_filter fun e => decide (now ≤ e.expiresAt), Option.filter_eq_some_iff,
    decide_eq_true_iff]

/-- **What is stored** is read under its key, and nothing else changes. -/
theorem get?_store (c : TtlCache α) (now : Nat) (key : String) (value : α) (other : String) :
    Table.get? (c.store now key value).entries other =
      if other = key then some ⟨value, now + c.ttl⟩ else Table.get? c.entries other :=
  Table.get?_insert _ _ _ _

/-- Stores a result under a key, unless it is an error. -/
def keep (c : TtlCache α) (now : Nat) (key : String) : Except ε α → TtlCache α
  | .ok value => c.store now key value
  | .error _ => c

/-- **A lookup** under a key that may be cached: the value that lives, or else what is
computed now, which is kept if it is one. -/
theorem getOrTry_of_ne {m : Type → Type} [Monad m] {key : String} (h : key ≠ noCache)
    (c : TtlCache α) (now : Nat) (compute : m (Except ε α)) :
    c.getOrTry now key compute =
      match Table.get? (c.purge now).entries key with
      | some entry => pure (.ok entry.value, c.purge now)
      | none => compute >>= fun computed => pure (computed, (c.purge now).keep now key computed) := by
  unfold getOrTry find
  dsimp only
  rw [if_neg h]
  cases Table.get? (c.purge now).entries key with
  | some entry => rfl
  | none =>
    refine congrArg (compute >>= ·) (funext fun computed => ?_)
    cases computed <;> rfl

end TtlCache

end UserDirectory
