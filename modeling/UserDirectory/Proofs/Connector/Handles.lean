import UserDirectory.Proofs.Cache.Entries
import UserDirectory.Proofs.Cache.Keys
import UserDirectory.Proofs.Connector.Dialogue

/-!
# Asking for a handle

Whoever asks for a handle first asks for the time, and then for nothing more if the cache
holds one that lives, or else for a new one, which is kept unless it is a failure. These
are all the ways through it (`Connector.HandleCourse`), because its key is never the one
that goes past the cache. To ask for the directory is to ask for a handle
(`Connector.course_client_iff`), and no call of the directory is made by it.
-/

namespace UserDirectory.Connector

variable {H : Type} {s : ConnectorSettings} {cache cache' : TtlCache H} {turns : List (Turn H)}

/-- **What asking for a handle can come to**, at a time, for a model and its permissions:
the handle in the cache, if one lives there, or else the answer to the question for a new
one, which is kept unless it is a failure. -/
inductive HandleCourse (model : String) (scopes : TokenScopes) (now : Nat) (cache : TtlCache H) :
    List (Turn H) → ClientResult H → TtlCache H → Prop where
  | found (entry : CacheEntry H)
      (h : Table.get? (cache.purge now).entries (handleKey model scopes) = some entry) :
      HandleCourse model scopes now cache [⟨.time, now⟩] (.ok entry.value) (cache.purge now)
  | asked (h : Table.get? (cache.purge now).entries (handleKey model scopes) = none)
      (answer : ClientResult H) :
      HandleCourse model scopes now cache [⟨.time, now⟩, ⟨.handle model scopes, answer⟩] answer
        ((cache.purge now).keep now (handleKey model scopes) answer)

namespace HandleCourse

variable {model : String} {scopes : TokenScopes} {now : Nat} {result : ClientResult H}

theorem mem_time_iff (h : HandleCourse model scopes now cache turns result cache') {time : Nat} :
    ⟨.time, time⟩ ∈ turns ↔ time = now := by
  have htime : (⟨.time, time⟩ : Turn H) = ⟨.time, now⟩ ↔ time = now :=
    ⟨fun heq => eq_of_heq (Turn.mk.inj heq).2, fun heq => heq ▸ rfl⟩
  cases h with
  | found => rw [List.mem_singleton, htime]
  | asked =>
    rw [List.mem_cons, htime, List.mem_singleton]
    exact or_iff_left nofun

/-- **A handle is asked for only if none lives**, for the model and the permissions of the
call, and what comes of it is the answer. -/
theorem of_mem_handle (h : HandleCourse model scopes now cache turns result cache')
    {model' : String} {scopes' : TokenScopes} {answer : ClientResult H}
    (hmem : ⟨.handle model' scopes', answer⟩ ∈ turns) :
    (model' = model ∧ scopes' = scopes ∧ answer = result) ∧
      Table.get? (cache.purge now).entries (handleKey model scopes) = none ∧
      cache' = (cache.purge now).keep now (handleKey model scopes) result := by
  cases h with
  | found => exact absurd (List.mem_singleton.1 hmem) nofun
  | asked hmiss =>
    have heq := List.mem_singleton.1 ((List.mem_cons.1 hmem).resolve_left nofun)
    obtain ⟨hquestion, hanswer⟩ := Turn.mk.inj heq
    obtain ⟨rfl, rfl⟩ := Question.handle.inj hquestion
    exact ⟨⟨rfl, rfl, eq_of_heq hanswer⟩, hmiss, rfl⟩

theorem calls_eq_nil (h : HandleCourse model scopes now cache turns result cache') :
    Turn.calls turns = [] := by
  cases h with
  | found => rfl
  | asked => rfl

/-- Nothing is stored unless a handle was made. -/
theorem eq_purge_of_not_made (h : HandleCourse model scopes now cache turns result cache')
    (hnone : ∀ handle, ⟨.handle model scopes, .ok handle⟩ ∉ turns) : cache' = cache.purge now := by
  cases h with
  | found => rfl
  | asked =>
    cases result with
    | ok handle => exact absurd (List.mem_cons_of_mem _ List.mem_cons_self) (hnone handle)
    | error e => rfl

/-- If no handle lives, one is asked for, and what comes of it is the answer. -/
theorem asked_of_get?_eq_none (h : HandleCourse model scopes now cache turns result cache')
    (hmiss : Table.get? (cache.purge now).entries (handleKey model scopes) = none) :
    ⟨.handle model scopes, result⟩ ∈ turns := by
  cases h with
  | found entry hentry => exact absurd (hmiss.symm.trans hentry) nofun
  | asked => exact List.mem_cons_of_mem _ List.mem_cons_self

/-- A failure that comes of it is an answer. -/
theorem failed {e : ClientError} (h : HandleCourse model scopes now cache turns (.error e) cache') :
    ⟨.handle model scopes, .error e⟩ ∈ turns := by
  cases h with
  | asked => exact List.mem_cons_of_mem _ List.mem_cons_self

/-- A handle that comes of it was made for it or lived. -/
theorem made_or_lives {handle : H}
    (h : HandleCourse model scopes now cache turns (.ok handle) cache') :
    ⟨.handle model scopes, .ok handle⟩ ∈ turns ∨
      ∃ entry, Table.get? (cache.purge now).entries (handleKey model scopes) = some entry ∧
        entry.value = handle := by
  cases h with
  | found entry hentry => exact .inr ⟨entry, hentry, rfl⟩
  | asked => exact .inl (List.mem_cons_of_mem _ List.mem_cons_self)

end HandleCourse

/-- **The ways through a lookup** under a key that may be cached. -/
theorem takes_getOrTry_iff {ε : Type} {now : Nat} {key : String} (hkey : key ≠ noCache)
    {compute : Dialogue H (Except ε H)} {r : Except ε H × TtlCache H} :
    (cache.getOrTry now key compute).Takes turns r ↔
      (∃ entry, Table.get? (cache.purge now).entries key = some entry ∧ turns = [] ∧
        r = (.ok entry.value, cache.purge now)) ∨
      (Table.get? (cache.purge now).entries key = none ∧ ∃ computed, compute.Takes turns computed ∧
        r = (computed, (cache.purge now).keep now key computed)) := by
  rw [TtlCache.getOrTry_of_ne hkey]
  cases hentry : Table.get? (cache.purge now).entries key with
  | some entry =>
    rw [Dialogue.takes_pure_iff, or_iff_left nofun]
    exact ⟨fun h => ⟨entry, rfl, h⟩, fun ⟨_, heq, h⟩ => Option.some.inj heq ▸ h⟩
  | none =>
    rw [Dialogue.takes_bind_pure_iff, or_iff_right nofun]
    exact (and_iff_right rfl).symm

/-- **The courses of asking for a handle.** -/
theorem course_handle_iff {model : String} {call : Option TokenScopes}
    {outcome : Except ConnectorError H} :
    Course ((spoken s).handle model call) cache turns outcome cache' ↔
      ∃ now result, HandleCourse model (s.tokenScopes model call) now cache turns result cache' ∧
        outcome = result.mapError .remote := by
  let scopes := s.tokenScopes model call
  let ask : Dialogue H (ClientResult H) := .put (.handle model scopes)
  have hrun : ((spoken s).handle model call).run.run cache =
      (Dialogue.put .time >>= fun now =>
        cache.getOrTry now (handleKey model scopes) ask >>= fun r =>
          pure (r.1.mapError .remote, r.2)) := rfl
  have hkey : handleKey model scopes ≠ noCache := handleKey_ne_noCache model scopes
  unfold Course
  rw [hrun, Dialogue.takes_put_bind_iff]
  refine exists_congr fun now => ?_
  constructor
  · rintro ⟨rest, rfl, h⟩
    obtain ⟨r, hlookup, heq⟩ := Dialogue.takes_bind_pure_iff.1 h
    obtain ⟨rfl, rfl⟩ := Prod.mk.inj heq
    refine ⟨r.1, ?_, rfl⟩
    rcases (takes_getOrTry_iff hkey).1 hlookup with
      ⟨entry, hentry, rfl, rfl⟩ | ⟨hmiss, answer, hput, rfl⟩
    · exact .found entry hentry
    · obtain rfl := Dialogue.takes_put_iff.1 hput
      exact .asked hmiss answer
  · rintro ⟨result, h, rfl⟩
    obtain ⟨rest, rfl, hlookup⟩ : ∃ rest, turns = ⟨.time, now⟩ :: rest ∧
        (cache.getOrTry now (handleKey model scopes) ask).Takes rest (result, cache') := by
      cases h with
      | found entry hentry =>
        exact ⟨[], rfl, (takes_getOrTry_iff hkey).2 (.inl ⟨_, hentry, rfl, rfl⟩)⟩
      | asked hmiss =>
        exact ⟨_, rfl, (takes_getOrTry_iff hkey).2
          (.inr ⟨hmiss, _, Dialogue.takes_put_iff.2 rfl, rfl⟩)⟩
    exact ⟨rest, rfl, Dialogue.takes_bind_pure_iff.2 ⟨_, hlookup, rfl⟩⟩

/-- **The courses of asking for the directory.** -/
theorem course_client_iff {model : String} {call : Option TokenScopes}
    {outcome : Except ConnectorError (Directory (Dialogue H))} :
    Course ((spoken s).client model call) cache turns outcome cache' ↔
      ∃ now result, HandleCourse model (s.tokenScopes model call) now cache turns result cache' ∧
        outcome = (result.mapError .remote).map spokenDirectory := by
  unfold client
  rw [course_bind_pure_iff]
  constructor
  · rintro ⟨_, h, rfl⟩
    obtain ⟨now, result, hcourse, rfl⟩ := course_handle_iff.1 h
    exact ⟨now, result, hcourse, rfl⟩
  · rintro ⟨now, result, hcourse, rfl⟩
    exact ⟨_, course_handle_iff.2 ⟨now, result, hcourse, rfl⟩, rfl⟩

/-- **Getting the directory makes no call of it**, and what is got is that of a handle. -/
theorem course_client {model : String} {call : Option TokenScopes}
    {outcome : Except ConnectorError (Directory (Dialogue H))}
    (h : Course ((spoken s).client model call) cache turns outcome cache') :
    Turn.calls turns = [] ∧
      ∀ directory, outcome = .ok directory → ∃ handle, directory = spokenDirectory handle := by
  obtain ⟨now, result, hcourse, rfl⟩ := course_client_iff.1 h
  refine ⟨hcourse.calls_eq_nil, fun directory hdirectory => ?_⟩
  cases result with
  | ok handle => exact ⟨handle, (Except.ok.inj hdirectory).symm⟩
  | error e => exact absurd hdirectory nofun

/-- **What is done with a handle** follows on turns that make no call, if there is one. -/
theorem course_client_bind {α : Type} {model : String} {call : Option TokenScopes}
    {next : Directory (Dialogue H) → ConnectorAction (Dialogue H) H α}
    {outcome : Except ConnectorError α}
    (h : Course ((spoken s).client model call >>= next) cache turns outcome cache') :
    (Turn.calls turns = [] ∧ ∃ e, outcome = .error e) ∨
      ∃ handling rest handle middle, turns = handling ++ rest ∧ Turn.calls handling = [] ∧
        Course (next (spokenDirectory handle)) middle rest outcome cache' := by
  rcases course_bind_iff.1 h with
    ⟨e, rfl, hclient⟩ | ⟨handling, rest, _, middle, rfl, hclient, hnext⟩
  · exact .inl ⟨(course_client hclient).1, e, rfl⟩
  · obtain ⟨hcalls, hdirectory⟩ := course_client hclient
    obtain ⟨handle, rfl⟩ := hdirectory _ rfl
    exact .inr ⟨handling, rest, handle, middle, rfl, hcalls, hnext⟩

end UserDirectory.Connector
