import UserDirectory.Cache.Ttl
import UserDirectory.Proofs.Results

/-!
# Histories of caches

What a cache answers can be told from what has been asked of it so far, without looking
at what it holds. A key has a value if the last value that was computed under it is not
over, and no one has taken it away since (`HasValue`). A lookup gives this value and
computes nothing; if there is none, it computes once and keeps what comes of it unless it
is a failure (`Told`). What is told is told once (`Told.unique`), because one entry at most
is the last under its key.

A run is any sequence of requests, each at no earlier time than those before it, on one
cache that was empty at first (`CacheRun`).
-/

namespace UserDirectory

variable {A ε α : Type}

/-! ## Requests -/

/-- **A request to a cache.** What a computation gives if it is run comes with it. -/
inductive CacheRequest (A ε α : Type) where
  /-- A call of the function that the cache is for. -/
  | call (args : A) (result : α)
  /-- A lookup whose computation cannot fail. -/
  | lookup (key : String) (result : α)
  /-- A lookup whose computation may fail. -/
  | attempt (key : String) (result : Except ε α)
  | get (key : String)
  | invalidate (key : String)
  | clear
  | purge
  deriving DecidableEq

/-- What comes of a request. -/
inductive CacheAnswer (ε α : Type) where
  /-- Of a call or a lookup. -/
  | result (result : Except ε α)
  /-- Of a reading. -/
  | reading (value : Option α)
  | done

/-- A computation that counts how often it is run. -/
def counted {β : Type} (result : β) : StateM Nat β := do
  modify (· + 1)
  pure result

namespace CacheRequest

/-- **Does what is asked**, and counts how often a value is computed for it. -/
def perform (hasher : A → String) (c : TtlCache α) (now : Nat) :
    CacheRequest A ε α → StateM Nat (CacheAnswer ε α × TtlCache α)
  | .call args result => do
    let (value, c) ← memoCall hasher (fun _ => counted result) c now args
    pure (.result (.ok value), c)
  | .lookup key result => do
    let (value, c) ← c.getOrInsert now key (counted result)
    pure (.result (.ok value), c)
  | .attempt key result => do
    let (result, c) ← c.getOrTry now key (counted result)
    pure (.result result, c)
  | .get key => pure (.reading (c.get? now key).1, (c.get? now key).2)
  | .invalidate key => pure (.done, c.invalidate key)
  | .clear => pure (.done, c.clear)
  | .purge => pure (.done, c.purge now)

/-- The key under which a call or a lookup looks, and what its computation gives. -/
def lookup? (hasher : A → String) : CacheRequest A ε α → Option (String × Except ε α)
  | .call args result => some (hasher args, .ok result)
  | .lookup key result => some (key, .ok result)
  | .attempt key result => some (key, result)
  | _ => none

end CacheRequest

/-! ## Histories -/

/-- **A request that was made**: when, what came of it, and how often it was computed for. -/
structure CacheEvent (A ε α : Type) where
  time : Nat
  request : CacheRequest A ε α
  answer : CacheAnswer ε α
  runs : Nat

namespace CacheEvent

/-- The event stored a value: a lookup under a key that may be cached computed it. -/
def Stores (hasher : A → String) (e : CacheEvent A ε α) (key : String) (value : α) : Prop :=
  key ≠ noCache ∧ (∃ result, e.request.lookup? hasher = some (key, result)) ∧ e.runs ≠ 0 ∧
    e.answer = .result (.ok value)

/-- The event took the key away, alone or with all others. -/
def Removes (e : CacheEvent A ε α) (key : String) : Prop :=
  e.request = .invalidate key ∨ e.request = .clear

instance [DecidableEq A] [DecidableEq ε] [DecidableEq α] (e : CacheEvent A ε α) (key : String) :
    Decidable (e.Removes key) :=
  inferInstanceAs (Decidable (_ ∨ _))

/-- The event neither stores anything nor takes anything away. -/
def Passive (hasher : A → String) (e : CacheEvent A ε α) : Prop :=
  ∀ key, ¬ e.Removes key ∧ ∀ value, ¬ e.Stores hasher key value

end CacheEvent

/-- A cache and the events that led to it, the latest first. -/
structure CacheLog (A ε α : Type) where
  events : List (CacheEvent A ε α)
  cache : TtlCache α

/-- The next request, and what comes of it. -/
def CacheLog.after (hasher : A → String) (log : CacheLog A ε α) (now : Nat)
    (request : CacheRequest A ε α) : CacheLog A ε α :=
  let ((answer, cache), runs) := (request.perform hasher log.cache now).run 0
  ⟨⟨now, request, answer, runs⟩ :: log.events, cache⟩

/-- **A run of requests** on a cache that was empty at first, at times that do not decrease. -/
inductive CacheRun (hasher : A → String) (ttl : Nat) : CacheLog A ε α → Prop where
  | start : CacheRun hasher ttl ⟨[], .empty ttl⟩
  | step {log : CacheLog A ε α} (h : CacheRun hasher ttl log) (now : Nat)
      (request : CacheRequest A ε α) (hlater : ∀ e ∈ log.events, e.time ≤ now) :
      CacheRun hasher ttl (log.after hasher now request)

/-- **The last to be stored under a key**, with the end of its time, and not taken away since. -/
def LastStored (hasher : A → String) (ttl : Nat) (events : List (CacheEvent A ε α)) (key : String)
    (entry : CacheEntry α) : Prop :=
  ∃ since e before, events = since ++ e :: before ∧ e.Stores hasher key entry.value ∧
    entry.expiresAt = e.time + ttl ∧
    ∀ f ∈ since, ¬ f.Removes key ∧ ∀ value, ¬ f.Stores hasher key value

/-- **What a key has, as the history tells**: the last to be stored, until its time is over. -/
def HasValue (hasher : A → String) (ttl : Nat) (events : List (CacheEvent A ε α)) (now : Nat)
    (key : String) (value : α) : Prop :=
  ∃ entry, LastStored hasher ttl events key entry ∧ entry.value = value ∧ now ≤ entry.expiresAt

section

variable {hasher : A → String} {ttl : Nat} {events : List (CacheEvent A ε α)}
  {e : CacheEvent A ε α} {key : String} {entry : CacheEntry α}

theorem not_lastStored_nil :
    ¬ LastStored hasher ttl ([] : List (CacheEvent A ε α)) key entry := by
  rintro ⟨since, e, before, hnil, -⟩
  exact List.append_ne_nil_of_right_ne_nil since (List.cons_ne_nil e before) hnil.symm

/-- **One more event** stores, or leaves alone what was stored. -/
theorem lastStored_cons_iff :
    LastStored hasher ttl (e :: events) key entry ↔
      e.Stores hasher key entry.value ∧ entry.expiresAt = e.time + ttl ∨
      (¬ e.Removes key ∧ ∀ value, ¬ e.Stores hasher key value) ∧
        LastStored hasher ttl events key entry := by
  constructor
  · rintro ⟨since, s, before, heq, hstores, htime, huntouched⟩
    rcases List.cons_eq_append_iff.1 heq with ⟨rfl, hcons⟩ | ⟨since, rfl, rfl⟩
    · obtain ⟨rfl, rfl⟩ := List.cons.inj hcons
      exact .inl ⟨hstores, htime⟩
    · obtain ⟨hhead, hrest⟩ := List.forall_mem_cons.1 huntouched
      exact .inr ⟨hhead, since, s, before, rfl, hstores, htime, hrest⟩
  · rintro (⟨hstores, htime⟩ | ⟨hhead, since, s, before, rfl, hstores, htime, hrest⟩)
    · exact ⟨[], e, events, rfl, hstores, htime, nofun⟩
    · exact ⟨e :: since, s, before, rfl, hstores, htime, List.forall_mem_cons.2 ⟨hhead, hrest⟩⟩

/-- An event stores one value at most. -/
theorem CacheEvent.Stores.unique {value value' : α} (h : e.Stores hasher key value)
    (h' : e.Stores hasher key value') : value = value' := by
  obtain ⟨-, -, -, hanswer⟩ := h
  obtain ⟨-, -, -, hanswer'⟩ := h'
  exact Except.ok.inj (CacheAnswer.result.inj (hanswer.symm.trans hanswer'))

/-- **One entry is the last.** -/
theorem LastStored.unique {entry' : CacheEntry α} (h : LastStored hasher ttl events key entry)
    (h' : LastStored hasher ttl events key entry') : entry = entry' := by
  induction events with
  | nil => exact absurd h not_lastStored_nil
  | cons e events ih =>
    rcases lastStored_cons_iff.1 h with ⟨hstores, htime⟩ | ⟨⟨-, hnone⟩, hrest⟩ <;>
      rcases lastStored_cons_iff.1 h' with ⟨hstores', htime'⟩ | ⟨⟨-, hnone'⟩, hrest'⟩
    · obtain ⟨value, expiresAt⟩ := entry
      rw [show value = entry'.value from hstores.unique hstores',
        show expiresAt = entry'.expiresAt from htime.trans htime'.symm]
    · exact absurd hstores (hnone' _)
    · exact absurd hstores' (hnone _)
    · exact ih hrest hrest'

theorem LastStored.ne_noCache (h : LastStored hasher ttl events key entry) : key ≠ noCache := by
  obtain ⟨_, _, _, -, hstores, -⟩ := h
  exact hstores.1

/-- A request that does not look under a key stores nothing. -/
theorem not_stores_of_lookup?_eq_none (h : e.request.lookup? hasher = none) {value : α} :
    ¬ e.Stores hasher key value := by
  rintro ⟨-, ⟨result, hlookup⟩, -⟩
  exact absurd (h.symm.trans hlookup) nofun

/-- **A request that is neither a lookup nor a removal** leaves the history as it is. -/
theorem passive_of_lookup?_eq_none (h : e.request.lookup? hasher = none)
    (hremoves : ∀ key, ¬ e.Removes key) : e.Passive hasher :=
  fun key => ⟨hremoves key, fun _ => not_stores_of_lookup?_eq_none h⟩

theorem lastStored_cons_of_passive (he : e.Passive hasher) :
    LastStored hasher ttl (e :: events) key entry ↔ LastStored hasher ttl events key entry := by
  rw [lastStored_cons_iff, or_iff_right fun h => (he key).2 entry.value h.1]
  exact and_iff_right (he key)

/-- **What is stored in a window lives to its end**, unless it is taken away there. -/
theorem exists_lastStored_cons {start : Nat} (hkeeps : ¬ e.Removes key) (hfrom : start ≤ e.time)
    (h : (∃ value, e.Stores hasher key value) ∨
      ∃ entry, LastStored hasher ttl events key entry ∧ start + ttl ≤ entry.expiresAt) :
    ∃ entry, LastStored hasher ttl (e :: events) key entry ∧ start + ttl ≤ entry.expiresAt := by
  by_cases hstores : ∃ value, e.Stores hasher key value
  · obtain ⟨value, hstores⟩ := hstores
    exact ⟨⟨value, e.time + ttl⟩, lastStored_cons_iff.2 (.inl ⟨hstores, rfl⟩),
      Nat.add_le_add_right hfrom ttl⟩
  · obtain ⟨entry, hentry, hend⟩ := h.resolve_left hstores
    exact ⟨entry, lastStored_cons_iff.2 (.inr ⟨⟨hkeeps, not_exists.1 hstores⟩, hentry⟩), hend⟩

end

/-! ## What is told -/

/-- **What the history tells of a request**, with how often it is computed for. -/
inductive Told (hasher : A → String) (ttl : Nat) (events : List (CacheEvent A ε α)) (now : Nat) :
    CacheRequest A ε α → CacheAnswer ε α → Nat → Prop where
  | hit {request key result value} (h : request.lookup? hasher = some (key, result))
      (hvalue : HasValue hasher ttl events now key value) :
      Told hasher ttl events now request (.result (.ok value)) 0
  | miss {request key result} (h : request.lookup? hasher = some (key, result))
      (hnone : ∀ value, ¬ HasValue hasher ttl events now key value) :
      Told hasher ttl events now request (.result result) 1
  | reading {key reading}
      (h : ∀ value, reading = some value ↔ HasValue hasher ttl events now key value) :
      Told hasher ttl events now (.get key) (.reading reading) 0
  | invalidate (key) : Told hasher ttl events now (.invalidate key) .done 0
  | clear : Told hasher ttl events now .clear .done 0
  | purge : Told hasher ttl events now .purge .done 0

section

variable {hasher : A → String} {ttl now : Nat} {events : List (CacheEvent A ε α)}

theorem HasValue.unique {key : String} {value value' : α}
    (h : HasValue hasher ttl events now key value) (h' : HasValue hasher ttl events now key value') :
    value = value' := by
  obtain ⟨entry, hlast, rfl, -⟩ := h
  obtain ⟨entry', hlast', rfl, -⟩ := h'
  rw [hlast.unique hlast']

/-- **The history tells one answer** of a request. -/
theorem Told.unique {request : CacheRequest A ε α}
    {answer answer' : CacheAnswer ε α} {runs runs' : Nat}
    (h : Told hasher ttl events now request answer runs)
    (h' : Told hasher ttl events now request answer' runs') : answer = answer' ∧ runs = runs' := by
  cases h with
  | hit hlookup hvalue =>
    cases h' with
    | hit hlookup' hvalue' =>
      obtain ⟨rfl, -⟩ := Prod.mk.inj (Option.some.inj (hlookup.symm.trans hlookup'))
      rw [hvalue.unique hvalue']
      exact ⟨rfl, rfl⟩
    | miss hlookup' hnone =>
      obtain ⟨rfl, -⟩ := Prod.mk.inj (Option.some.inj (hlookup.symm.trans hlookup'))
      exact absurd hvalue (hnone _)
    | reading | invalidate | clear | purge => exact absurd hlookup nofun
  | miss hlookup hnone =>
    cases h' with
    | hit hlookup' hvalue' =>
      obtain ⟨rfl, -⟩ := Prod.mk.inj (Option.some.inj (hlookup.symm.trans hlookup'))
      exact absurd hvalue' (hnone _)
    | miss hlookup' =>
      obtain ⟨-, rfl⟩ := Prod.mk.inj (Option.some.inj (hlookup.symm.trans hlookup'))
      exact ⟨rfl, rfl⟩
    | reading | invalidate | clear | purge => exact absurd hlookup nofun
  | reading hreading =>
    cases h' with
    | hit hlookup' | miss hlookup' => exact absurd hlookup' nofun
    | reading hreading' =>
      rw [Option.ext fun value => (hreading value).trans (hreading' value).symm]
      exact ⟨rfl, rfl⟩
  | invalidate | clear | purge =>
    cases h' with
    | hit hlookup' | miss hlookup' => exact absurd hlookup' nofun
    | _ => exact ⟨rfl, rfl⟩

/-- **A call** is answered from the history or runs the function, once. -/
theorem Told.call {args : A} {result : α}
    {answer : CacheAnswer ε α} {runs : Nat}
    (h : Told hasher ttl events now (.call args result) answer runs) :
    (∃ value, HasValue hasher ttl events now (hasher args) value) ∧ runs = 0 ∨
      (∀ value, ¬ HasValue hasher ttl events now (hasher args) value) ∧
        answer = .result (.ok result) ∧ runs = 1 := by
  cases h with
  | hit hlookup hvalue =>
    obtain ⟨rfl, -⟩ := Prod.mk.inj (Option.some.inj hlookup)
    exact .inl ⟨⟨_, hvalue⟩, rfl⟩
  | miss hlookup hnone =>
    obtain ⟨rfl, rfl⟩ := Prod.mk.inj (Option.some.inj hlookup)
    exact .inr ⟨hnone, rfl, rfl⟩

end

end UserDirectory
