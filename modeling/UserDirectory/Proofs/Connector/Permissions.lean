import UserDirectory.Proofs.Connector.Handles

/-!
# Handles and permissions

A handle is made for one model and one set of permissions, and it is kept for later
calls. That it comes to no call with other permissions rests on two things: a key says
which permissions it was made of, and the cache gives back under a key what was stored
under it, for no longer than handles are used.

A run is a list of calls for the directory on one connector, the latest first, each
with the time at which it was made, what was asked in it, and what came of it
(`Connector.ClientRun`). What the cache holds after a run can be told from the run
alone: the handles that its calls had made, each until its time is over
(`Connector.HoldsMade`). This is kept by every call, whether it finds a handle, has one
made or fails, and everything that is said of a call follows from what the cache held
before it (`Connector.client_never_shares`).
-/

namespace UserDirectory.Connector

variable {H : Type} {s : ConnectorSettings} {cache cache' : TtlCache H}

/-! ## Runs -/

/-- **A call for the directory**: for which model and with which permissions of its own,
when, what was asked, and what came of it. -/
structure ClientCall (H : Type) where
  model : String
  call : Option TokenScopes
  time : Nat
  turns : List (Turn H)
  outcome : Except ConnectorError (Directory (Dialogue H))

namespace ClientCall

/-- The permissions of the call, all layers taken together. -/
def scopes (s : ConnectorSettings) (c : ClientCall H) : TokenScopes := s.tokenScopes c.model c.call

/-- What the key of its handle is made of. -/
def arguments (s : ConnectorSettings) (c : ClientCall H) : Json :=
  handleArguments c.model (c.scopes s)

/-- The key of its handle. -/
def key (s : ConnectorSettings) (c : ClientCall H) : String := handleKey c.model (c.scopes s)

/-- **The call had a handle made**, for its model and its permissions. -/
def Made (s : ConnectorSettings) (c : ClientCall H) (handle : H) : Prop :=
  ⟨.handle c.model (c.scopes s), .ok handle⟩ ∈ c.turns

end ClientCall

/-- **A run of calls for the directory** on one connector, the latest first: each goes on
from the cache that the one before it has left, at no earlier time. -/
inductive ClientRun (s : ConnectorSettings) : List (ClientCall H) → TtlCache H → Prop where
  | start : ClientRun s [] (spoken s).noHandles
  | call {history : List (ClientCall H)} {cache cache' : TtlCache H} {c : ClientCall H}
      (hrun : ClientRun s history cache)
      (hcourse : Course ((spoken s).client c.model c.call) cache c.turns c.outcome cache')
      (htime : ⟨.time, c.time⟩ ∈ c.turns) (hlater : ∀ earlier ∈ history, earlier.time ≤ c.time) :
      ClientRun s (c :: history) cache'

variable {history : List (ClientCall H)} {c : ClientCall H} {result : ClientResult H}

/-- The last call of a run, and what led to it. -/
theorem ClientRun.exists_of_cons (h : ClientRun s (c :: history) cache') :
    ∃ cache result, ClientRun s history cache ∧ (∀ earlier ∈ history, earlier.time ≤ c.time) ∧
      HandleCourse c.model (c.scopes s) c.time cache c.turns result cache' ∧
      c.outcome = (result.mapError .remote).map spokenDirectory := by
  rcases h with _ | ⟨hrun, hcourse, htime, hlater⟩
  obtain ⟨now, result, hcourse, houtcome⟩ := course_client_iff.1 hcourse
  obtain rfl := hcourse.mem_time_iff.1 htime
  exact ⟨_, result, hrun, hlater, hcourse, houtcome⟩

/-- **What a cache holds after a run**: under each key the handle that a call of the run
had made for it, until its time is over. -/
structure HoldsMade (s : ConnectorSettings) (history : List (ClientCall H)) (cache : TtlCache H) :
    Prop where
  ordered : Table.Ordered cache.entries
  ttl : cache.ttl = s.handleLifetime
  get?_eq_some_iff : ∀ {key : String} {entry : CacheEntry H},
    Table.get? cache.entries key = some entry ↔
      ∃ w ∈ history, w.key s = key ∧ w.Made s entry.value ∧
        entry.expiresAt = w.time + s.handleLifetime ∧ ∀ v ∈ history, v.time ≤ entry.expiresAt

namespace HoldsMade

/-- **What lives when the next call is made**: what was made and is not yet over. -/
theorem get?_purge_eq_some_iff (h : HoldsMade s history cache) {now : Nat}
    (hlater : ∀ earlier ∈ history, earlier.time ≤ now) {key : String} {entry : CacheEntry H} :
    Table.get? (cache.purge now).entries key = some entry ↔
      ∃ w ∈ history, w.key s = key ∧ w.Made s entry.value ∧
        entry.expiresAt = w.time + s.handleLifetime ∧ now ≤ entry.expiresAt := by
  rw [TtlCache.get?_purge_eq_some_iff h.ordered, h.get?_eq_some_iff]
  constructor
  · rintro ⟨⟨w, hw, hkey, hmade, htime, -⟩, hlives⟩
    exact ⟨w, hw, hkey, hmade, htime, hlives⟩
  · rintro ⟨w, hw, hkey, hmade, htime, hlives⟩
    exact ⟨⟨w, hw, hkey, hmade, htime, fun v hv => (hlater v hv).trans hlives⟩, hlives⟩

/-- A call that has no handle made leaves what lives when it is made. -/
theorem purge (h : HoldsMade s history cache) (hlater : ∀ earlier ∈ history, earlier.time ≤ c.time)
    (hnone : ∀ handle, ¬ c.Made s handle) : HoldsMade s (c :: history) (cache.purge c.time) where
  ordered := TtlCache.ordered_purge h.ordered _
  ttl := h.ttl
  get?_eq_some_iff {key entry} := by
    rw [h.get?_purge_eq_some_iff hlater]
    constructor
    · rintro ⟨w, hw, hkey, hmade, htime, hlives⟩
      exact ⟨w, List.mem_cons_of_mem c hw, hkey, hmade, htime,
        List.forall_mem_cons.2 ⟨hlives, fun v hv => (hlater v hv).trans hlives⟩⟩
    · rintro ⟨w, hw, hkey, hmade, htime, hall⟩
      rcases List.mem_cons.1 hw with rfl | hw
      · exact absurd hmade (hnone _)
      · exact ⟨w, hw, hkey, hmade, htime, hall c List.mem_cons_self⟩

/-- A call that has a handle made adds it to what lives. -/
theorem store (h : HoldsMade s history cache) (hlater : ∀ earlier ∈ history, earlier.time ≤ c.time)
    (hmiss : Table.get? (cache.purge c.time).entries (c.key s) = none) {handle : H}
    (hmade : ∀ other, c.Made s other ↔ other = handle) :
    HoldsMade s (c :: history) ((cache.purge c.time).store c.time (c.key s) handle) where
  ordered := TtlCache.ordered_store (TtlCache.ordered_purge h.ordered _) _ _ _
  ttl := h.ttl
  get?_eq_some_iff {key entry} := by
    rw [TtlCache.get?_store, TtlCache.purge_ttl, h.ttl]
    constructor
    · intro hget
      split at hget
      · next hkey =>
        obtain rfl := Option.some.inj hget
        refine ⟨c, List.mem_cons_self, hkey.symm, (hmade handle).2 rfl, rfl, ?_⟩
        exact List.forall_mem_cons.2
          ⟨Nat.le_add_right _ _, fun v hv => (hlater v hv).trans (Nat.le_add_right _ _)⟩
      · obtain ⟨w, hw, hkey, hmade, htime, hlives⟩ := (h.get?_purge_eq_some_iff hlater).1 hget
        exact ⟨w, List.mem_cons_of_mem c hw, hkey, hmade, htime,
          List.forall_mem_cons.2 ⟨hlives, fun v hv => (hlater v hv).trans hlives⟩⟩
    · rintro ⟨w, hw, rfl, hwmade, htime, hall⟩
      rcases List.mem_cons.1 hw with rfl | hw
      · rw [if_pos rfl, ← (hmade _).1 hwmade, ← htime]
      · -- what lives under the key would have been found
        have hlives := (h.get?_purge_eq_some_iff hlater).2
          ⟨w, hw, rfl, hwmade, htime, hall c List.mem_cons_self⟩
        rw [if_neg, hlives]
        rintro heq
        rw [heq, hmiss] at hlives
        exact absurd hlives nofun

/-- **Every call keeps it.** -/
theorem step (h : HoldsMade s history cache) (hlater : ∀ earlier ∈ history, earlier.time ≤ c.time)
    (hcourse : HandleCourse c.model (c.scopes s) c.time cache c.turns result cache') :
    HoldsMade s (c :: history) cache' := by
  by_cases hmade : ∃ handle, c.Made s handle
  · obtain ⟨handle, hmade⟩ := hmade
    obtain ⟨⟨-, -, rfl⟩, hmiss, rfl⟩ := hcourse.of_mem_handle hmade
    refine h.store hlater hmiss fun other => ⟨fun hother => ?_, fun heq => heq ▸ hmade⟩
    exact Except.ok.inj (hcourse.of_mem_handle hother).1.2.2
  · rw [not_exists] at hmade
    rw [hcourse.eq_purge_of_not_made hmade]
    exact h.purge hlater hmade

end HoldsMade

/-- **What the cache holds after a run** can be told from the run. -/
theorem ClientRun.holdsMade (h : ClientRun s history cache) : HoldsMade s history cache := by
  induction h with
  | start =>
    refine ⟨Table.ordered_nil, rfl, fun {key entry} => ⟨fun hget => absurd hget nofun, ?_⟩⟩
    rintro ⟨w, hw, -⟩
    exact absurd hw List.not_mem_nil
  | call hrun hcourse htime hlater ih =>
    obtain ⟨now, result, hcourse, -⟩ := course_client_iff.1 hcourse
    obtain rfl := hcourse.mem_time_iff.1 htime
    exact ih.step hlater hcourse

/-- The calls of a run ask for handles of their own model and permissions only. -/
theorem ClientRun.of_mem_handle (h : ClientRun s history cache) {w : ClientCall H}
    (hw : w ∈ history) {model : String} {scopes : TokenScopes} {answer : ClientResult H}
    (hmem : ⟨.handle model scopes, answer⟩ ∈ w.turns) :
    model = w.model ∧ scopes = w.scopes s := by
  induction h with
  | start => exact absurd hw List.not_mem_nil
  | call hrun hcourse htime hlater ih =>
    rcases List.mem_cons.1 hw with rfl | hw
    · obtain ⟨now, result, hcourse, -⟩ := course_client_iff.1 hcourse
      obtain ⟨hmodel, hscopes, -⟩ := (hcourse.of_mem_handle hmem).1
      exact ⟨hmodel, hscopes⟩
    · exact ih hw

/-! ## What a call gets -/

/-- Calls with one key have one model and one set of permissions. -/
theorem ClientCall.eq_of_key_eq (hfree : CollisionFree (history.map (·.arguments s)))
    {v w : ClientCall H} (hv : v ∈ history) (hw : w ∈ history) (hkey : v.key s = w.key s) :
    v.model = w.model ∧ v.scopes s = w.scopes s :=
  hfree.handle_eq (List.mem_map_of_mem hv) (List.mem_map_of_mem hw) hkey

/-- **What a call returns was made** for its key by a call of the run, no longer ago than
handles are used. -/
theorem ClientRun.exists_made (h : ClientRun s (c :: history) cache)
    {directory : Directory (Dialogue H)} (hdirectory : c.outcome = .ok directory) :
    ∃ handle, directory = spokenDirectory handle ∧ ∃ w ∈ c :: history,
      w.key s = c.key s ∧ w.Made s handle ∧
      w.time ≤ c.time ∧ c.time ≤ w.time + s.handleLifetime := by
  obtain ⟨before, result, hrun, hlater, hcourse, houtcome⟩ := h.exists_of_cons
  rw [hdirectory] at houtcome
  cases result with
  | error e => exact absurd houtcome nofun
  | ok handle =>
    refine ⟨handle, Except.ok.inj houtcome, ?_⟩
    rcases hcourse.made_or_lives with hmade | ⟨entry, hentry, rfl⟩
    · exact ⟨c, List.mem_cons_self, rfl, hmade, le_rfl, Nat.le_add_right _ _⟩
    · obtain ⟨w, hw, hkey, hmade, htime, hlives⟩ :=
        (hrun.holdsMade.get?_purge_eq_some_iff hlater).1 hentry
      exact ⟨w, List.mem_cons_of_mem c hw, hkey, hmade, hlater w hw, htime ▸ hlives⟩

/-- **No handle lives for a call** exactly if all that were made for its model and its
permissions are over. -/
theorem ClientRun.get?_purge_eq_none_iff (h : ClientRun s history cache)
    (hlater : ∀ earlier ∈ history, earlier.time ≤ c.time)
    (hfree : CollisionFree ((c :: history).map (·.arguments s))) :
    Table.get? (cache.purge c.time).entries (c.key s) = none ↔
      ∀ w ∈ history, ∀ handle, ⟨.handle c.model (c.scopes s), .ok handle⟩ ∈ w.turns →
        w.time + s.handleLifetime < c.time := by
  constructor
  · intro hmiss w hw handle hmem
    obtain ⟨hmodel, hscopes⟩ := h.of_mem_handle hw hmem
    have hkey : w.key s = c.key s := by
      rw [ClientCall.key, ClientCall.key, hmodel, hscopes]
    have hmade : w.Made s handle := by
      rwa [hmodel, hscopes] at hmem
    by_contra hrecent
    -- a handle that is still used would have been found
    have hlives : Table.get? (cache.purge c.time).entries (c.key s) =
        some ⟨handle, w.time + s.handleLifetime⟩ :=
      (h.holdsMade.get?_purge_eq_some_iff hlater).2
        ⟨w, hw, hkey, hmade, rfl, Nat.le_of_not_lt hrecent⟩
    exact absurd (hmiss.symm.trans hlives) nofun
  · intro hover
    rw [Option.eq_none_iff_forall_ne_some]
    intro entry hentry
    obtain ⟨w, hw, hkey, hmade, htime, hlives⟩ :=
      (h.holdsMade.get?_purge_eq_some_iff hlater).1 hentry
    -- the key is that of another pair only if two arguments collide
    obtain ⟨hmodel, hscopes⟩ :=
      ClientCall.eq_of_key_eq hfree (List.mem_cons_of_mem c hw) List.mem_cons_self hkey
    rw [ClientCall.Made, hmodel, hscopes] at hmade
    exact absurd (htime ▸ hlives) (Nat.not_le_of_lt (hover w hw entry.value hmade))

/-- Settings that rename the id and grant nothing by themselves. -/
def grantlessSettings : ConnectorSettings where
  domain := "example.org"
  clientId := "client"
  clientSecret := "secret"
  connection := "Users"
  searchEngine := .v2
  connectionQueryScope := true
  tokenLifetime := 3600
  scopes := .empty
  queryScope := none
  sources := {}
  outboundAttributes := defaultOutboundAttributes
  dateFields := defaultDateFields
  mapper := {
    connector := {
      serialize := .ofList [("id", "user_id")]
      normalize := .ofList [("user_id", "id")] }
    models := [] }
  models := []

/-- A call that has a handle made. -/
def makingCall (s : ConnectorSettings) (call : Option TokenScopes) (time : Nat) (handle : H) :
    ClientCall H where
  model := "user"
  call := call
  time := time
  turns := [⟨.time, time⟩, ⟨.handle "user" (s.tokenScopes "user" call), .ok handle⟩]
  outcome := .ok (spokenDirectory handle)

/-- A call that finds a handle. -/
def findingCall (call : Option TokenScopes) (time : Nat) (handle : H) : ClientCall H where
  model := "user"
  call := call
  time := time
  turns := [⟨.time, time⟩]
  outcome := .ok (spokenDirectory handle)

/-- The handles that a call had made are told by its turns. -/
theorem handle_of_mem_makingCall {call : Option TokenScopes} {time : Nat} {handle handle' : H}
    {model : String} {scopes : TokenScopes}
    (h : ⟨.handle model scopes, .ok handle'⟩ ∈ (makingCall s call time handle).turns) :
    scopes = s.tokenScopes "user" call ∧ handle' = handle := by
  have heq := List.mem_singleton.1 ((List.mem_cons.1 h).resolve_left nofun)
  obtain ⟨hquestion, hanswer⟩ := Turn.mk.inj heq
  obtain ⟨-, rfl⟩ := Question.handle.inj hquestion
  exact ⟨rfl, Except.ok.inj (eq_of_heq hanswer)⟩

/-- A call with a key of its own has a handle made. -/
theorem ClientRun.making (h : ClientRun s history cache) (call : Option TokenScopes) (time : Nat)
    (handle : H) (hlater : ∀ earlier ∈ history, earlier.time ≤ time)
    (hown : ∀ w ∈ history, w.key s ≠ handleKey "user" (s.tokenScopes "user" call)) :
    ∃ cache', ClientRun s (makingCall s call time handle :: history) cache' := by
  have hmiss : Table.get? (cache.purge time).entries
      (handleKey "user" (s.tokenScopes "user" call)) = none := by
    rw [Option.eq_none_iff_forall_ne_some]
    intro entry hentry
    obtain ⟨w, hw, hkey, -⟩ := (h.holdsMade.get?_purge_eq_some_iff hlater).1 hentry
    exact hown w hw hkey
  exact ⟨_, .call h (course_client_iff.2 ⟨time, .ok handle, .asked hmiss (.ok handle), rfl⟩)
    List.mem_cons_self hlater⟩

/-- A call finds the handle that a call before it had made. -/
theorem ClientRun.finding (h : ClientRun s history cache) (call : Option TokenScopes)
    {made time : Nat} {handle : H} (hlater : ∀ earlier ∈ history, earlier.time ≤ time)
    (hmade : makingCall s call made handle ∈ history) (hused : time ≤ made + s.handleLifetime) :
    ∃ cache', ClientRun s (findingCall call time handle :: history) cache' := by
  have hlives : Table.get? (cache.purge time).entries
      (handleKey "user" (s.tokenScopes "user" call)) = some ⟨handle, made + s.handleLifetime⟩ :=
    (h.holdsMade.get?_purge_eq_some_iff hlater).2
      ⟨_, hmade, rfl, List.mem_cons_of_mem _ List.mem_cons_self, rfl, hused⟩
  exact ⟨_, .call h (course_client_iff.2 ⟨time, .ok handle, .found _ hlives, rfl⟩)
    List.mem_cons_self hlater⟩

end UserDirectory.Connector
