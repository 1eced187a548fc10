import UserDirectory.Proofs.Cache.Entries
import UserDirectory.Proofs.Cache.Histories

/-!
# Caches answer from their histories

A cache removes what is over only now and then, and so it may hold more than the keys that
have a value. But whatever it holds was the last to be stored under its key, and what was
and is not yet over is there (`Mirrors`). Every request keeps this, and all that is said of
an answer follows from what was so before it (`cache_answers_history`).

That a function is run once in a while is a fact of the history alone: in a window as long
as the cache's time, what was stored first lives to the end.
-/

namespace UserDirectory

variable {A ε α : Type}

/-! ## Lookups -/

namespace TtlCache

/-- **What a lookup can come to**, with how often it computes. -/
inductive Looked (c : TtlCache α) (now : Nat) (key : String) (result : Except ε α) :
    Except ε α → Nat → TtlCache α → Prop where
  | bypass (h : key = noCache) : Looked c now key result result 1 (c.purge now)
  | hit (hkey : key ≠ noCache) (entry : CacheEntry α)
      (h : Table.get? (c.purge now).entries key = some entry) :
      Looked c now key result (.ok entry.value) 0 (c.purge now)
  | miss (hkey : key ≠ noCache) (h : Table.get? (c.purge now).entries key = none) :
      Looked c now key result result 1 ((c.purge now).keep now key result)

theorem looked_getOrTry (c : TtlCache α) (now : Nat) (key : String) (result : Except ε α) :
    Looked c now key result ((c.getOrTry now key (counted result)).run 0).1.1
      ((c.getOrTry now key (counted result)).run 0).2
      ((c.getOrTry now key (counted result)).run 0).1.2 := by
  by_cases hkey : key = noCache
  · subst hkey
    exact .bypass rfl
  · rw [getOrTry_of_ne hkey]
    cases hentry : Table.get? (c.purge now).entries key with
    | some entry => exact .hit hkey entry hentry
    | none => exact .miss hkey hentry

/-- A computation that cannot fail is one that does not. -/
theorem run_getOrTry_ok (ε : Type) (c : TtlCache α) (now : Nat) (key : String) (value : α) :
    (c.getOrTry now key (counted (.ok value : Except ε α))).run 0 =
      ((.ok ((c.getOrInsert now key (counted value)).run 0).1.1,
        ((c.getOrInsert now key (counted value)).run 0).1.2),
        ((c.getOrInsert now key (counted value)).run 0).2) := by
  unfold getOrTry getOrInsert
  dsimp only
  cases (c.purge now).find key <;> rfl

end TtlCache

/-- **A call or a lookup** looks once, under its key. -/
theorem CacheLog.after_lookup {hasher : A → String} (log : CacheLog A ε α) (now : Nat)
    {request : CacheRequest A ε α} {key : String} {result : Except ε α}
    (h : request.lookup? hasher = some (key, result)) :
    ∃ outcome runs cache, log.cache.Looked now key result outcome runs cache ∧
      log.after hasher now request =
        ⟨⟨now, request, .result outcome, runs⟩ :: log.events, cache⟩ := by
  have hlooked := log.cache.looked_getOrTry now key result
  cases request with
  | call args value =>
    obtain ⟨rfl, rfl⟩ := Prod.mk.inj (Option.some.inj h)
    rw [TtlCache.run_getOrTry_ok] at hlooked
    exact ⟨_, _, _, hlooked, rfl⟩
  | lookup key value =>
    obtain ⟨rfl, rfl⟩ := Prod.mk.inj (Option.some.inj h)
    rw [TtlCache.run_getOrTry_ok] at hlooked
    exact ⟨_, _, _, hlooked, rfl⟩
  | attempt key result =>
    obtain ⟨rfl, rfl⟩ := Prod.mk.inj (Option.some.inj h)
    exact ⟨_, _, _, hlooked, rfl⟩
  | get _ | invalidate _ | clear | purge => exact absurd h nofun

theorem TtlCache.lives_purge (c : TtlCache α) (now : Nat) :
    ∀ e ∈ (c.purge now).entries, now ≤ e.2.expiresAt :=
  fun _ he => of_decide_eq_true (List.mem_filter.1 he).2

/-- Nothing that is over is held after a lookup. -/
theorem TtlCache.Looked.lives {c cache : TtlCache α} {now : Nat} {key : String}
    {result outcome : Except ε α} {runs : Nat} (h : c.Looked now key result outcome runs cache) :
    ∀ e ∈ cache.entries, now ≤ e.2.expiresAt := by
  cases h with
  | bypass | hit => exact c.lives_purge now
  | miss =>
    cases result with
    | error e => exact c.lives_purge now
    | ok value =>
      intro e he
      rcases Table.mem_insert he with rfl | he
      · exact Nat.le_add_right now c.ttl
      · exact c.lives_purge now e he

/-- **Nothing that is over is held** after a request, unless it was the removal of one key. -/
theorem CacheLog.lives_after (hasher : A → String) (log : CacheLog A ε α) (now : Nat)
    (request : CacheRequest A ε α) (hrequest : ∀ key, request ≠ .invalidate key) :
    ∀ e ∈ (log.after hasher now request).cache.entries, now ≤ e.2.expiresAt := by
  cases hlookup : request.lookup? hasher with
  | some lookup =>
    obtain ⟨outcome, runs, cache, hlooked, hafter⟩ := log.after_lookup now hlookup
    rw [hafter]
    exact hlooked.lives
  | none =>
    cases request with
    | call | lookup | attempt => exact absurd hlookup nofun
    | get | purge => exact log.cache.lives_purge now
    | invalidate key => exact absurd rfl (hrequest key)
    | clear => exact fun e he => absurd he List.not_mem_nil

/-! ## What a cache holds of its history -/

/-- **A cache mirrors its history**: what it holds was the last to be stored, and what was
and is not over by now is held. -/
structure Mirrors (hasher : A → String) (ttl : Nat) (log : CacheLog A ε α) : Prop where
  ordered : Table.Ordered log.cache.entries
  ttl_eq : log.cache.ttl = ttl
  stored : ∀ {key entry}, Table.get? log.cache.entries key = some entry →
    LastStored hasher ttl log.events key entry
  held : ∀ {key entry}, LastStored hasher ttl log.events key entry →
    (∀ e ∈ log.events, e.time ≤ entry.expiresAt) → Table.get? log.cache.entries key = some entry

section

variable {hasher : A → String} {ttl now : Nat} {log : CacheLog A ε α} {e : CacheEvent A ε α}

/-- **What lives in a cache is what lives in its history.** -/
theorem Mirrors.get?_purge_eq_some_iff (h : Mirrors hasher ttl log)
    (hlater : ∀ e ∈ log.events, e.time ≤ now) {key : String} {entry : CacheEntry α} :
    Table.get? (log.cache.purge now).entries key = some entry ↔
      LastStored hasher ttl log.events key entry ∧ now ≤ entry.expiresAt := by
  rw [TtlCache.get?_purge_eq_some_iff h.ordered]
  exact and_congr_left fun hlives =>
    ⟨h.stored, fun hlast => h.held hlast fun e he => Nat.le_trans (hlater e he) hlives⟩

/-- The value that a purged cache has for a key is that of its history. -/
theorem Mirrors.hasValue_iff (h : Mirrors hasher ttl log)
    (hlater : ∀ e ∈ log.events, e.time ≤ now) {key : String} {value : α} :
    HasValue hasher ttl log.events now key value ↔
      (Table.get? (log.cache.purge now).entries key).map (·.value) = some value := by
  rw [Option.map_eq_some_iff]
  refine exists_congr fun entry => ?_
  rw [h.get?_purge_eq_some_iff hlater, and_right_comm, and_assoc]

/-- A purge keeps what lives. -/
theorem Mirrors.purge (h : Mirrors hasher ttl log) (hlater : ∀ f ∈ log.events, f.time ≤ e.time)
    (he : e.Passive hasher) : Mirrors hasher ttl ⟨e :: log.events, log.cache.purge e.time⟩ where
  ordered := TtlCache.ordered_purge h.ordered _
  ttl_eq := h.ttl_eq
  stored hentry :=
    (lastStored_cons_of_passive he).2 ((h.get?_purge_eq_some_iff hlater).1 hentry).1
  held hlast hlives := (h.get?_purge_eq_some_iff hlater).2
    ⟨(lastStored_cons_of_passive he).1 hlast, hlives e List.mem_cons_self⟩

/-- What is stored is the last under its key from now on. -/
theorem Mirrors.store (h : Mirrors hasher ttl log) (hlater : ∀ f ∈ log.events, f.time ≤ e.time)
    {key : String} {value : α} (he : e.Stores hasher key value)
    (hothers : ∀ other, ¬ e.Removes other ∧ (other ≠ key → ∀ v, ¬ e.Stores hasher other v)) :
    Mirrors hasher ttl
      ⟨e :: log.events, (log.cache.purge e.time).store e.time key value⟩ := by
  have hother : ∀ {other entry}, other ≠ key →
      (LastStored hasher ttl (e :: log.events) other entry ↔
        LastStored hasher ttl log.events other entry) := fun hne => by
    have hleft := (hothers _).2 hne
    rw [lastStored_cons_iff, or_iff_right fun hs => hleft _ hs.1]
    exact and_iff_right ⟨(hothers _).1, hleft⟩
  have hself : ∀ {entry}, LastStored hasher ttl (e :: log.events) key entry ↔
      entry = ⟨value, e.time + ttl⟩ := fun {entry} => by
    rw [lastStored_cons_iff, or_iff_left fun hs => hs.1.2 value he]
    constructor
    · rintro ⟨hstores, htime⟩
      obtain ⟨v, expiresAt⟩ := entry
      rw [show v = value from hstores.unique he, show expiresAt = e.time + ttl from htime]
    · rintro rfl
      exact ⟨he, rfl⟩
  refine ⟨TtlCache.ordered_store (TtlCache.ordered_purge h.ordered _) _ _ _, h.ttl_eq, ?_, ?_⟩
  · intro other entry hentry
    rw [TtlCache.get?_store, TtlCache.purge_ttl, h.ttl_eq] at hentry
    split at hentry
    · next hkey => exact hkey ▸ hself.2 (Option.some.inj hentry).symm
    · next hne => exact (hother hne).2 ((h.get?_purge_eq_some_iff hlater).1 hentry).1
  · intro other entry hlast hlives
    rw [TtlCache.get?_store, TtlCache.purge_ttl, h.ttl_eq]
    split
    · next hkey => exact congrArg some (hself.1 (hkey ▸ hlast)).symm
    · next hne =>
      exact (h.get?_purge_eq_some_iff hlater).2
        ⟨(hother hne).1 hlast, hlives e List.mem_cons_self⟩

/-- A key that is taken away has nothing, and the others keep theirs. -/
theorem Mirrors.invalidate (h : Mirrors hasher ttl log) {key : String}
    (he : e.request = .invalidate key) :
    Mirrors hasher ttl ⟨e :: log.events, log.cache.invalidate key⟩ := by
  have hlookup : e.request.lookup? hasher = none := by rw [he]; rfl
  have hstores : ∀ other value, ¬ e.Stores hasher other value := fun _ _ =>
    not_stores_of_lookup?_eq_none hlookup
  have hremoves : ∀ {other}, e.Removes other ↔ other = key := fun {other} => by
    rw [CacheEvent.Removes, he, or_iff_left nofun, CacheRequest.invalidate.injEq, eq_comm]
  have hlast : ∀ {other entry}, LastStored hasher ttl (e :: log.events) other entry ↔
      other ≠ key ∧ LastStored hasher ttl log.events other entry := fun {other entry} => by
    rw [lastStored_cons_iff, or_iff_right fun hs => hstores _ _ hs.1, hremoves,
      and_iff_left (hstores other)]
  refine ⟨h.ordered.erase key, h.ttl_eq, fun {other entry} hentry => ?_,
    fun {other entry} hentry hlives => ?_⟩
  · have hentry : Table.get? (log.cache.entries.erase key) other = some entry := hentry
    rw [Table.get?_erase] at hentry
    split at hentry
    · exact absurd hentry nofun
    · next hne => exact hlast.2 ⟨hne, h.stored hentry⟩
  · obtain ⟨hne, hentry⟩ := hlast.1 hentry
    show Table.get? (log.cache.entries.erase key) other = some entry
    rw [Table.get?_erase, if_neg hne]
    exact h.held hentry fun f hf => hlives f (List.mem_cons_of_mem e hf)

/-- Once everything is taken away, no key has anything. -/
theorem Mirrors.clear (h : Mirrors hasher ttl log) (he : e.request = .clear) :
    Mirrors hasher ttl ⟨e :: log.events, log.cache.clear⟩ where
  ordered := Table.ordered_nil
  ttl_eq := h.ttl_eq
  stored hentry := absurd hentry nofun
  held {key entry} hlast _ := by
    have hlookup : e.request.lookup? hasher = none := by rw [he]; rfl
    rcases lastStored_cons_iff.1 hlast with ⟨hstores, -⟩ | ⟨⟨hkeeps, -⟩, -⟩
    · exact absurd hstores (not_stores_of_lookup?_eq_none hlookup)
    · exact absurd (.inr he) hkeeps

end

/-! ## Answers -/

section

variable {hasher : A → String} {ttl now : Nat} {log : CacheLog A ε α}

theorem Told.of_looked (h : Mirrors hasher ttl log) (hlater : ∀ e ∈ log.events, e.time ≤ now)
    {request : CacheRequest A ε α} {key : String} {result outcome : Except ε α} {runs : Nat}
    {cache : TtlCache α} (hlookup : request.lookup? hasher = some (key, result))
    (hlooked : log.cache.Looked now key result outcome runs cache) :
    Told hasher ttl log.events now request (.result outcome) runs := by
  cases hlooked with
  | bypass hkey => exact .miss hlookup fun value ⟨entry, hlast, _⟩ => hlast.ne_noCache hkey
  | hit _ entry hentry =>
    exact .hit hlookup ((h.hasValue_iff hlater).2 (congrArg (Option.map _) hentry))
  | miss _ hentry =>
    refine .miss hlookup fun value hvalue => ?_
    have hread := (h.hasValue_iff hlater).1 hvalue
    rw [hentry] at hread
    exact absurd hread nofun

/-- What a lookup comes to leaves the mirror whole. -/
theorem Mirrors.looked (h : Mirrors hasher ttl log) (hlater : ∀ e ∈ log.events, e.time ≤ now)
    {request : CacheRequest A ε α} {key : String} {result outcome : Except ε α} {runs : Nat}
    {cache : TtlCache α} (hlookup : request.lookup? hasher = some (key, result))
    (hlooked : log.cache.Looked now key result outcome runs cache) :
    Mirrors hasher ttl ⟨⟨now, request, .result outcome, runs⟩ :: log.events, cache⟩ := by
  have hremoves : ∀ other, ¬ (⟨now, request, .result outcome, runs⟩ :
      CacheEvent A ε α).Removes other := by
    rintro other (h | h) <;>
    · rw [show request = _ from h] at hlookup
      exact absurd hlookup nofun
  have hstores : ∀ {other value}, (⟨now, request, .result outcome, runs⟩ :
      CacheEvent A ε α).Stores hasher other value →
        other = key ∧ key ≠ noCache ∧ runs ≠ 0 ∧ outcome = .ok value := by
    rintro other value ⟨hne, ⟨result', hlookup'⟩, hruns, hanswer⟩
    obtain ⟨rfl, -⟩ := Prod.mk.inj (Option.some.inj (hlookup.symm.trans hlookup'))
    exact ⟨rfl, hne, hruns, CacheAnswer.result.inj hanswer⟩
  cases hlooked with
  | bypass hkey =>
    exact h.purge hlater fun other => ⟨hremoves other, fun value hs => (hstores hs).2.1 hkey⟩
  | hit _ entry =>
    exact h.purge hlater fun other => ⟨hremoves other, fun value hs => (hstores hs).2.2.1 rfl⟩
  | miss hkey =>
    cases result with
    | ok value =>
      exact h.store hlater ⟨hkey, ⟨_, hlookup⟩, Nat.one_ne_zero, rfl⟩
        fun other => ⟨hremoves other, fun hne v hs => hne (hstores hs).1⟩
    | error e =>
      have hfails : ∀ value, (.error e : Except ε α) ≠ .ok value := by simp
      exact h.purge hlater fun other =>
        ⟨hremoves other, fun value hs => hfails value (hstores hs).2.2.2⟩

/-- **One request** is answered as the history tells, and leaves the mirror whole. -/
theorem Mirrors.after (h : Mirrors hasher ttl log) (hlater : ∀ e ∈ log.events, e.time ≤ now)
    (request : CacheRequest A ε α) :
    ∃ answer runs, (log.after hasher now request).events =
        ⟨now, request, answer, runs⟩ :: log.events ∧
      Told hasher ttl log.events now request answer runs ∧
      Mirrors hasher ttl (log.after hasher now request) := by
  cases hlookup : request.lookup? hasher with
  | some lookup =>
    obtain ⟨outcome, runs, cache, hlooked, hafter⟩ := log.after_lookup now hlookup
    rw [hafter]
    exact ⟨_, _, rfl, .of_looked h hlater hlookup hlooked, h.looked hlater hlookup hlooked⟩
  | none =>
    cases request with
    | call | lookup | attempt => exact absurd hlookup nofun
    | get key =>
      refine ⟨_, _, rfl, .reading fun value => (h.hasValue_iff hlater).symm, ?_⟩
      exact h.purge hlater (passive_of_lookup?_eq_none rfl nofun)
    | invalidate key => exact ⟨_, _, rfl, .invalidate key, h.invalidate rfl⟩
    | clear => exact ⟨_, _, rfl, .clear, h.clear rfl⟩
    | purge =>
      exact ⟨_, _, rfl, .purge, h.purge hlater (passive_of_lookup?_eq_none rfl nofun)⟩

/-- **A cache mirrors its history** after every run. -/
theorem CacheRun.mirrors (h : CacheRun hasher ttl log) : Mirrors hasher ttl log := by
  induction h with
  | start =>
    refine ⟨Table.ordered_nil, rfl, fun hentry => absurd hentry nofun, ?_⟩
    exact fun hlast => absurd hlast not_lastStored_nil
  | step h now request hlater ih =>
    obtain ⟨_, _, -, -, hmirrors⟩ := ih.after hlater request
    exact hmirrors

/-- **Every event of a run** was told by those before it, which are a run of their own. -/
theorem CacheRun.of_cons {e : CacheEvent A ε α} {events : List (CacheEvent A ε α)}
    (h : CacheRun hasher ttl log) (hevents : log.events = e :: events) :
    (∃ before : CacheLog A ε α, CacheRun hasher ttl before ∧ before.events = events) ∧
      (∀ f ∈ events, f.time ≤ e.time) ∧
      Told hasher ttl events e.time e.request e.answer e.runs := by
  cases h with
  | start => exact absurd hevents nofun
  | step h now request hlater =>
    obtain ⟨answer, runs, hafter, htold, -⟩ := h.mirrors.after hlater request
    obtain ⟨rfl, rfl⟩ := List.cons.inj (hafter.symm.trans hevents)
    exact ⟨⟨_, h, rfl⟩, hlater, htold⟩

/-- The earlier part of a run's events is that of a run. -/
theorem CacheRun.of_append {late early : List (CacheEvent A ε α)} (h : CacheRun hasher ttl log)
    (hevents : log.events = late ++ early) :
    ∃ before : CacheLog A ε α, CacheRun hasher ttl before ∧ before.events = early := by
  induction late generalizing log with
  | nil => exact ⟨log, h, hevents⟩
  | cons e late ih =>
    obtain ⟨⟨before, hbefore, heq⟩, -⟩ := h.of_cons hevents
    exact ih hbefore heq

end

/-! ## Memoised calls -/

/-- The key under which a call looks; a lookup that is no call has none. -/
def CacheRequest.callKey? (hasher : A → String) : CacheRequest A ε α → Option String
  | .call args _ => some (hasher args)
  | _ => none

/-- How often the function was run for calls under a key. -/
def callRuns (hasher : A → String) (key : String) : List (CacheEvent A ε α) → Nat
  | [] => 0
  | e :: events =>
    (if e.request.callKey? hasher = some key then e.runs else 0) + callRuns hasher key events

section

variable {hasher : A → String} {ttl : Nat} {log : CacheLog A ε α}

/-- **One run is enough for a while.** If the function was run for a call under a key, its
value lives to the end of the window. -/
theorem CacheRun.callRuns_le_one {key : String} (hkey : key ≠ noCache) {start : Nat}
    {window early : List (CacheEvent A ε α)} (h : CacheRun hasher ttl log)
    (hevents : log.events = window ++ early)
    (hwindow : ∀ e ∈ window, ¬ e.Removes key ∧ start ≤ e.time ∧ e.time ≤ start + ttl) :
    callRuns hasher key window ≤ 1 ∧ (callRuns hasher key window ≠ 0 →
      ∃ entry, LastStored hasher ttl (window ++ early) key entry ∧
        start + ttl ≤ entry.expiresAt) := by
  induction window generalizing log with
  | nil => exact ⟨Nat.zero_le 1, fun hruns => absurd rfl hruns⟩
  | cons e window ih =>
    obtain ⟨⟨hkeeps, hfrom, hto⟩, hwindow⟩ := List.forall_mem_cons.1 hwindow
    obtain ⟨⟨before, hbefore, hrest⟩, -, htold⟩ := h.of_cons hevents
    obtain ⟨hle, hlives⟩ := ih hbefore hrest hwindow
    rw [callRuns, List.cons_append]
    split
    · next hcall =>
      obtain ⟨time, request, answer, runs⟩ := e
      cases request with
      | lookup | attempt | get | invalidate | clear | purge => exact absurd hcall nofun
      | call args result =>
        obtain rfl := Option.some.inj hcall
        obtain ⟨-, rfl⟩ | ⟨hnone, rfl, rfl⟩ := htold.call
        · rw [Nat.zero_add]
          exact ⟨hle, fun hruns => exists_lastStored_cons hkeeps hfrom (.inr (hlives hruns))⟩
        · -- no value lived, so the function was not run in the window before
          have hzero : callRuns hasher (hasher args) window = 0 :=
            Decidable.byContradiction fun hruns => by
              obtain ⟨entry, hentry, hend⟩ := hlives hruns
              exact hnone entry.value ⟨entry, hentry, rfl, Nat.le_trans hto hend⟩
          rw [hzero]
          exact ⟨Nat.le_refl 1, fun _ => exists_lastStored_cons hkeeps hfrom
            (.inl ⟨result, hkey, ⟨_, rfl⟩, Nat.one_ne_zero, rfl⟩)⟩
    · rw [Nat.zero_add]
      exact ⟨hle, fun hruns => exists_lastStored_cons hkeeps hfrom (.inr (hlives hruns))⟩

end

/-! ## A day of a cache -/

/-- Requests at times that do not decrease are a run. -/
theorem CacheRun.foldl {hasher : A → String} {ttl : Nat} {log : CacheLog A ε α}
    (h : CacheRun hasher ttl log) {requests : List (Nat × CacheRequest A ε α)}
    (hlater : ∀ e ∈ log.events, ∀ r ∈ requests, e.time ≤ r.1)
    (hsorted : requests.Pairwise fun r s => r.1 ≤ s.1) :
    CacheRun hasher ttl (requests.foldl (fun log r => log.after hasher r.1 r.2) log) := by
  induction requests generalizing log with
  | nil => exact h
  | cons r rest ih =>
    obtain ⟨hfirst, hrest⟩ := List.pairwise_cons.1 hsorted
    refine ih (h.step r.1 r.2 fun e he => hlater e he r List.mem_cons_self)
      (fun e he s hs => ?_) hrest
    rcases List.mem_cons.1 he with rfl | he
    · exact hfirst s hs
    · exact hlater e he s (List.mem_cons_of_mem r hs)

/-- Calls at the last moment of a value and after it, past the cache, and after a removal,
and a lookup that fails. -/
def sessionRequests : List (Nat × CacheRequest String String Nat) :=
  [(0, .call "user" 1), (3, .attempt "group" (.error "unavailable")), (10, .call "user" 2),
    (10, .call noCache 3), (11, .call "user" 4), (12, .invalidate "user"), (12, .get "group"),
    (13, .call "user" 5), (14, .call noCache 6)]

/-- What comes of them in a cache that keeps a value for ten ticks. -/
def sessionLog : CacheLog String String Nat :=
  sessionRequests.foldl (fun log r => log.after id r.1 r.2) ⟨[], .empty 10⟩

end UserDirectory
