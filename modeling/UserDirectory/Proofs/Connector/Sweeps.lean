import UserDirectory.Proofs.Connector.Courses
import UserDirectory.Proofs.Connector.Permissions

/-!
# Operations on all matches

The operations on all matches of a condition search once and then make one call for each
record that was found, in the order of the page. What they do is told by what they do to
one record: its call, or none if its id will not do, and whether the answer lets the
operation go on. From this the whole course follows. The records before the first failure
are done with, each by one accepted call; the record that fails makes its call, or none
if it has no id; and for those behind it nothing is done (`Connector.GoesThrough`).

Updates and deletions differ in the call that a record makes, and so in the ids that will
do, and in what an answer must be. Both obey the one law (`Connector.sweeps_in_order`).
-/

namespace UserDirectory

/-! ## Exchanges -/

/-- **A call of the directory with its answer.** -/
structure Exchange where
  request : DirectoryCall
  answer : request.Answer

/-- **Whether an answer lets an operation go on.** A call that fails does not, and neither
does an update that is answered with anything but an object. -/
def Exchange.verdict : Exchange → Except ConnectorError Unit
  | ⟨.getUsers _, answer⟩ => (answer.map fun (_ : UserPage) => ()).mapError .remote
  | ⟨.deleteUser _, answer⟩ => Except.mapError .remote answer
  | ⟨.updateUser _ _, answer⟩ =>
    match (answer : ClientResult Json) with
    | .ok (.obj _) => .ok ()
    | .ok other => .error (.remote (.invalidResponse ("expected a user object, got " ++ other.text)))
    | .error e => .error (.remote e)
  | ⟨.createUser _, answer⟩ | ⟨.linkUser _ _, answer⟩ | ⟨.unlinkUser _ _ _, answer⟩ =>
    (answer.map fun (_ : Json) => ()).mapError .remote

namespace Turn

variable {H : Type}

/-- The exchange with the directory, if the turn is one. -/
def exchange? : Turn H → Option Exchange
  | ⟨.call _ request, answer⟩ => some ⟨request, answer⟩
  | _ => none

/-- **The exchanges with the directory**, in order. -/
def exchanges (turns : List (Turn H)) : List Exchange := turns.filterMap exchange?

theorem exchanges_append (turns turns' : List (Turn H)) :
    exchanges (turns ++ turns') = exchanges turns ++ exchanges turns' := List.filterMap_append

/-- **Every handle that was asked for was given.** -/
def Granted (turns : List (Turn H)) : Prop :=
  ∀ model scopes answer, ⟨.handle model scopes, answer⟩ ∈ turns → ∃ handle : H, answer = .ok handle

theorem granted_append_iff {turns turns' : List (Turn H)} :
    Granted (turns ++ turns') ↔ Granted turns ∧ Granted turns' := by
  constructor
  · exact fun h => ⟨fun _ _ _ hmem => h _ _ _ (List.mem_append_left _ hmem),
      fun _ _ _ hmem => h _ _ _ (List.mem_append_right _ hmem)⟩
  · rintro ⟨h, h'⟩ model scopes answer hmem
    exact (List.mem_append.1 hmem).elim (h _ _ _) (h' _ _ _)

end Turn

/-! ## Going through records -/

/-- **A record is done with** by an exchange: its call, with an answer that lets the
operation go on. -/
def DoneWith (call? : Record → Option DirectoryCall) (r : Record) (x : Exchange) : Prop :=
  call? r = some x.request ∧ x.verdict = .ok ()

/-- **A record fails**: it has no call, and nothing is asked for it, or its call is made
and the answer is that failure. -/
def FailsWith (call? : Record → Option DirectoryCall) (r : Record) (last : List Exchange)
    (e : ConnectorError) : Prop :=
  (call? r = none ∧ last = [] ∧ e = .missingId) ∨
    ∃ x, call? r = some x.request ∧ last = [x] ∧ x.verdict = .error e

/-- **An operation goes through records in order**, with these exchanges and this outcome:
each record makes its call, and the first that fails ends the operation. -/
structure GoesThrough (call? : Record → Option DirectoryCall) (stored : List Record)
    (exchanges : List Exchange) (outcome : Except ConnectorError Nat) : Prop where
  /-- The records are counted exactly if each has a call and no answer fails. -/
  counted : ∀ n, outcome = .ok n ↔ n = stored.length ∧ (∀ r ∈ stored, (call? r).isSome) ∧
    ∀ x ∈ exchanges, x.verdict = .ok ()
  /-- Then each has made its call. -/
  done : ∀ n, outcome = .ok n → List.Forall₂ (DoneWith call?) stored exchanges
  /-- Else there is a first that fails: those before it are done with, and nothing is asked
  for those behind it. -/
  stopped : ∀ e, outcome = .error e → ∃ before failed after made last,
    stored = before ++ failed :: after ∧ exchanges = made ++ last ∧
      List.Forall₂ (DoneWith call?) before made ∧ FailsWith call? failed last e

/-- A record that fails has no call, or an answer that fails. -/
theorem FailsWith.not_done {call? : Record → Option DirectoryCall} {r : Record}
    {last : List Exchange} {e : ConnectorError} (h : FailsWith call? r last e)
    (hcall : (call? r).isSome) : ∃ x ∈ last, x.verdict ≠ .ok () := by
  rcases h with ⟨hnone, -, -⟩ | ⟨x, -, rfl, hverdict⟩
  · rw [hnone] at hcall
    exact absurd hcall nofun
  · refine ⟨x, List.mem_cons_self, ?_⟩
    rw [hverdict]
    exact nofun

namespace Connector

variable {H : Type} {s : ConnectorSettings} {model : String} {cache cache' : TtlCache H}
  {turns : List (Turn H)} {call? : Record → Option DirectoryCall}

/-- **One round**: the record is done with, or it fails. -/
def RoundOf (call? : Record → Option DirectoryCall) (r : Record) (exchanges : List Exchange)
    (outcome : Except ConnectorError Unit) : Prop :=
  (outcome = .ok () ∧ ∃ x, exchanges = [x] ∧ DoneWith call? r x) ∨
    ∃ e, outcome = .error e ∧ FailsWith call? r exchanges e

/-- A call that is made decides the round by its answer. -/
theorem roundOf_singleton {r : Record} {x : Exchange} {outcome : Except ConnectorError Unit}
    (hcall : call? r = some x.request) (hverdict : x.verdict = outcome) :
    RoundOf call? r [x] outcome := by
  subst hverdict
  cases hx : x.verdict with
  | ok u => exact .inl ⟨rfl, x, rfl, hcall, hx⟩
  | error e => exact .inr ⟨e, rfl, .inr ⟨x, hcall, rfl, hx⟩⟩

/-- **A loop over records** goes through them, if each of its rounds is one of theirs. -/
theorem course_forM {f : Record → ConnectorAction (Dialogue H) H Unit}
    (hround : ∀ {r cache turns outcome cache'}, Course (f r) cache turns outcome cache' →
      Turn.Granted turns → RoundOf call? r (Turn.exchanges turns) outcome)
    {records : List Record} {outcome : Except ConnectorError Unit}
    (h : Course (records.forM f) cache turns outcome cache') (hgranted : Turn.Granted turns) :
    (outcome = .ok () ∧ List.Forall₂ (DoneWith call?) records (Turn.exchanges turns)) ∨
      ∃ e before failed after made last, outcome = .error e ∧
        records = before ++ failed :: after ∧ Turn.exchanges turns = made ++ last ∧
        List.Forall₂ (DoneWith call?) before made ∧ FailsWith call? failed last e := by
  induction records generalizing cache turns with
  | nil =>
    obtain ⟨rfl, rfl, -⟩ := course_pure_iff.1 h
    exact .inl ⟨rfl, .nil⟩
  | cons r rest ih =>
    rcases course_bind_iff.1 h with ⟨e, rfl, hfirst⟩ | ⟨first, later, _, _, rfl, hfirst, hlater⟩
    · rcases hround hfirst hgranted with ⟨hok, -⟩ | ⟨e', he, hfails⟩
      · exact absurd hok nofun
      · obtain rfl := Except.error.inj he
        exact .inr ⟨e, [], r, rest, [], _, rfl, rfl, rfl, .nil, hfails⟩
    · obtain ⟨hgfirst, hglater⟩ := Turn.granted_append_iff.1 hgranted
      rcases hround hfirst hgfirst with ⟨-, x, hx, hdone⟩ | ⟨e, he, -⟩
      swap
      · exact absurd he nofun
      rw [Turn.exchanges_append, hx]
      rcases ih hlater hglater with
        ⟨rfl, hrest⟩ | ⟨e, before, failed, after, made, last, rfl, rfl, hsplit, hbefore, hfails⟩
      · exact .inl ⟨rfl, .cons hdone hrest⟩
      · exact .inr ⟨e, r :: before, failed, after, x :: made, last, rfl, rfl,
          congrArg (x :: ·) hsplit, .cons hdone hbefore, hfails⟩

/-- **A loop that counts its records** goes through them. -/
theorem goesThrough_of_course {f : Record → ConnectorAction (Dialogue H) H Unit}
    (hround : ∀ {r cache turns outcome cache'}, Course (f r) cache turns outcome cache' →
      Turn.Granted turns → RoundOf call? r (Turn.exchanges turns) outcome)
    {records : List Record} {outcome : Except ConnectorError Nat}
    (h : Course (do records.forM f; pure records.length) cache turns outcome cache')
    (hgranted : Turn.Granted turns) :
    GoesThrough call? records (Turn.exchanges turns) outcome := by
  obtain ⟨result, hloop, rfl⟩ := course_bind_pure_iff.1 h
  rcases course_forM hround hloop hgranted with
    ⟨rfl, hdone⟩ | ⟨e, before, failed, after, made, last, rfl, rfl, hsplit, hbefore, hfails⟩
  · refine ⟨fun n => ⟨fun hn => ?_, fun hn => hn.1 ▸ rfl⟩, fun _ _ => hdone, nofun⟩
    refine ⟨(Except.ok.inj hn).symm, fun r hr => ?_, fun x hx => ?_⟩
    · obtain ⟨x, -, hcall, -⟩ := exists_right_of_mem hdone hr
      exact Option.isSome_of_eq_some hcall
    · obtain ⟨r, -, -, hverdict⟩ := exists_left_of_mem hdone hx
      exact hverdict
  · refine ⟨fun n => ⟨nofun, ?_⟩, nofun, fun e' he => ?_⟩
    · rintro ⟨-, hcalls, hverdicts⟩
      obtain ⟨x, hx, hfailed⟩ := hfails.not_done
        (hcalls failed (List.mem_append_right before List.mem_cons_self))
      exact absurd (hverdicts x (hsplit ▸ List.mem_append_right made hx)) hfailed
    · obtain rfl := Except.error.inj he
      exact ⟨before, failed, after, made, last, rfl, hsplit, hbefore, hfails⟩

/-! ## Exchanges of the parts -/

/-- A handle that is given is got without an exchange. -/
theorem HandleCourse.of_granted {scopes : TokenScopes} {now : Nat} {result : ClientResult H}
    (h : HandleCourse model scopes now cache turns result cache') (hgranted : Turn.Granted turns) :
    Turn.exchanges turns = [] ∧ ∃ handle, result = .ok handle := by
  cases h with
  | found entry => exact ⟨rfl, _, rfl⟩
  | asked => exact ⟨rfl, hgranted _ _ _ (List.mem_cons_of_mem _ List.mem_cons_self)⟩

/-- **What is done with a handle** that is given is all that is exchanged. -/
theorem exchanges_client_bind {α : Type} {call : Option TokenScopes}
    {next : Directory (Dialogue H) → ConnectorAction (Dialogue H) H α}
    {outcome : Except ConnectorError α}
    (h : Course ((spoken s).client model call >>= next) cache turns outcome cache')
    (hgranted : Turn.Granted turns) :
    ∃ rest handle middle, Turn.exchanges turns = Turn.exchanges rest ∧ Turn.Granted rest ∧
      Course (next (spokenDirectory handle)) middle rest outcome cache' := by
  rcases course_bind_iff.1 h with ⟨e, rfl, hclient⟩ | ⟨first, rest, d, middle, rfl, hclient, hnext⟩
  · obtain ⟨now, result, hcourse, houtcome⟩ := course_client_iff.1 hclient
    obtain ⟨-, handle, rfl⟩ := hcourse.of_granted hgranted
    exact absurd houtcome nofun
  · obtain ⟨hgfirst, hgrest⟩ := Turn.granted_append_iff.1 hgranted
    obtain ⟨now, result, hcourse, houtcome⟩ := course_client_iff.1 hclient
    obtain ⟨hnone, handle, rfl⟩ := hcourse.of_granted hgfirst
    obtain rfl := Except.ok.inj houtcome
    refine ⟨rest, handle, middle, ?_, hgrest, hnext⟩
    rw [Turn.exchanges_append, hnone, List.nil_append]

/-- **A search is one exchange**, if its condition is a filter, and returns what is on the
page. -/
theorem exchanges_all {bundle : SearchBundle} {outcome : Except ConnectorError (List Record)}
    (h : Course ((spoken s).all model bundle) cache turns outcome cache')
    (hgranted : Turn.Granted turns) :
    (∃ e, s.buildQuery model bundle = .error e ∧ Turn.exchanges turns = [] ∧
      outcome = .error (.filter e)) ∨
    ∃ query, s.buildQuery model bundle = .ok query ∧ ∃ answer : ClientResult UserPage,
      Turn.exchanges turns = [⟨.getUsers query, answer⟩] ∧
      outcome = (answer.map (foundRecords s model)).mapError .remote := by
  have hsettings : (spoken (H := H) s).settings = s := rfl
  unfold all at h
  rw [hsettings] at h
  cases hquery : s.buildQuery model bundle with
  | error e =>
    rw [hquery] at h
    obtain ⟨rfl, rfl, -⟩ := course_throw_iff.1 h
    exact .inl ⟨e, rfl, rfl, rfl⟩
  | ok query =>
    rw [hquery] at h
    obtain ⟨rest, handle, _, hexchanges, hgranted, h⟩ := exchanges_client_bind h hgranted
    obtain ⟨asking, rest, answer, rfl, htakes, hanswer⟩ := course_ask_bind h
    obtain rfl := Dialogue.takes_put_iff.1 htakes
    refine .inr ⟨query, rfl, answer, ?_⟩
    rw [hexchanges, Turn.exchanges_append]
    rcases hanswer with ⟨e, rfl, rfl, rfl⟩ | ⟨page, rfl, hpure⟩
    · exact ⟨rfl, rfl⟩
    · obtain ⟨rfl, rfl, -⟩ := course_pure_iff.1 hpure
      exact ⟨rfl, rfl⟩

/-! ## Rounds -/

/-- The id of a record decides how its round begins. -/
theorem course_recordId_bind_iff {r : Record} {next : String → ConnectorAction (Dialogue H) H Unit}
    {outcome : Except ConnectorError Unit} :
    Course ((spoken s).recordId model r >>= next) cache turns outcome cache' ↔
      match Record.string? r (s.idField model) with
      | some id => Course (next id) cache turns outcome cache'
      | none => Course (throw .missingId) cache turns outcome cache' := by
  have hsettings : (spoken (H := H) s).settings = s := rfl
  unfold recordId
  rw [hsettings]
  cases Record.string? r (s.idField model) with
  | some id => exact Iff.rfl
  | none => exact Iff.rfl

/-- **An update is one exchange**, if its id is not empty, and what comes of it is told by
the answer. -/
theorem exchanges_update {id : String} {data : Record} {options : SerializeOptions}
    {outcome : Except ConnectorError Record}
    (h : Course ((spoken s).update model id data options) cache turns outcome cache')
    (hgranted : Turn.Granted turns) :
    (id.isEmpty = true ∧ Turn.exchanges turns = [] ∧ outcome = .error .missingId) ∨
      (id.isEmpty = false ∧ ∃ x : Exchange,
        x.request = .updateUser id ((spoken (H := H) s).updateBody model data options) ∧
        Turn.exchanges turns = [x] ∧ x.verdict = outcome.map fun _ => ()) := by
  unfold update at h
  split at h
  · next hempty =>
    obtain ⟨rfl, rfl, -⟩ := course_throw_iff.1 h
    exact .inl ⟨hempty, rfl, rfl⟩
  · next hid =>
    obtain ⟨rest, handle, _, hexchanges, hgranted, h⟩ := exchanges_client_bind h hgranted
    obtain ⟨asking, rest, answer, rfl, htakes, hanswer⟩ := course_ask_bind h
    obtain rfl := Dialogue.takes_put_iff.1 htakes
    refine .inr ⟨eq_false_of_ne_true hid, ⟨.updateUser id _, answer⟩, rfl, ?_⟩
    rw [hexchanges, Turn.exchanges_append]
    rcases hanswer with ⟨e, rfl, rfl, rfl⟩ | ⟨user, rfl, hread⟩
    · exact ⟨rfl, rfl⟩
    · cases user with
      | obj external =>
        obtain ⟨rfl, rfl, -⟩ := course_pure_iff.1 hread
        exact ⟨rfl, rfl⟩
      | _ =>
        obtain ⟨rfl, rfl, -⟩ := course_throw_iff.1 hread
        exact ⟨rfl, rfl⟩

end Connector

namespace ConnectorSettings

/-- **The update of a stored record**: for its own id, which must not be empty, with the
new data laid over it. -/
def updateOf? (s : ConnectorSettings) (model : String) (data : Record) (options : SerializeOptions)
    (stored : Record) : Option DirectoryCall :=
  ((Record.string? stored (s.idField model)).filter (!·.isEmpty)).map fun id =>
    .updateUser id (Table.insert
      (Table.insert
        (s.serialize model (Table.overlay stored data) { options with instanceData := some stored })
        "client_id" (.str s.clientId))
      "connection" (.str (s.connectionOf model)))

/-- **The deletion of a stored record**: for its own id. -/
def deletionOf? (s : ConnectorSettings) (model : String) (stored : Record) : Option DirectoryCall :=
  (Record.string? stored (s.idField model)).map .deleteUser

end ConnectorSettings

namespace Connector

/-- **A round of an update** of all matches. -/
theorem roundOf_updateStored {data : Record} {options : SerializeOptions} {stored : Record}
    {outcome : Except ConnectorError Unit}
    (h : Course ((spoken s).updateStored model data options stored) cache turns outcome cache')
    (hgranted : Turn.Granted turns) :
    RoundOf (s.updateOf? model data options) stored (Turn.exchanges turns) outcome := by
  unfold updateStored at h
  rw [course_recordId_bind_iff] at h
  cases hid : Record.string? stored (s.idField model) with
  | none =>
    rw [hid] at h
    obtain ⟨rfl, rfl, -⟩ := course_throw_iff.1 h
    exact .inr ⟨_, rfl, .inl ⟨by rw [ConnectorSettings.updateOf?, hid]; rfl, rfl, rfl⟩⟩
  | some id =>
    rw [hid] at h
    obtain ⟨result, hupdate, rfl⟩ := course_bind_pure_iff.1 h
    rcases exchanges_update hupdate hgranted with
      ⟨hempty, hnone, rfl⟩ | ⟨hnonempty, x, hrequest, hx, hverdict⟩
    · refine .inr ⟨_, rfl, .inl ⟨?_, hnone, rfl⟩⟩
      rw [ConnectorSettings.updateOf?, hid, Option.filter_some_neg (by rw [hempty]; decide)]
      rfl
    · rw [hx]
      refine roundOf_singleton ?_ hverdict
      rw [ConnectorSettings.updateOf?, hid, Option.filter_some_pos (by rw [hnonempty]; rfl), hrequest]
      rfl

/-- **A round of a deletion** of all matches. -/
theorem roundOf_destroyStored {handle : H} {stored : Record} {outcome : Except ConnectorError Unit}
    (h : Course ((spoken s).destroyStored model (spokenDirectory handle) stored) cache turns outcome
      cache') :
    RoundOf (s.deletionOf? model) stored (Turn.exchanges turns) outcome := by
  unfold destroyStored at h
  rw [course_recordId_bind_iff] at h
  cases hid : Record.string? stored (s.idField model) with
  | none =>
    rw [hid] at h
    obtain ⟨rfl, rfl, -⟩ := course_throw_iff.1 h
    exact .inr ⟨_, rfl, .inl ⟨by rw [ConnectorSettings.deletionOf?, hid]; rfl, rfl, rfl⟩⟩
  | some id =>
    rw [hid] at h
    obtain ⟨answer, htakes, hanswer, -⟩ := course_ask_iff.1 h
    obtain rfl := Dialogue.takes_put_iff.1 htakes
    exact roundOf_singleton (x := ⟨.deleteUser id, answer⟩)
      (by rw [ConnectorSettings.deletionOf?, hid]; rfl) hanswer

/-! ## Sweeps -/

/-- **A search, and then a call for each record that it found.** A condition that is no
filter asks nothing, and a search that fails ends the operation. -/
def Sweeps (s : ConnectorSettings) (model : String) (bundle : SearchBundle)
    (call? : Record → Option DirectoryCall) (exchanges : List Exchange)
    (outcome : Except ConnectorError Nat) : Prop :=
  match s.buildQuery model bundle with
  | .error e => exchanges = [] ∧ outcome = .error (.filter e)
  | .ok query =>
    (∃ e, exchanges = [⟨.getUsers query, .error e⟩] ∧ outcome = .error (.remote e)) ∨
      ∃ page written, exchanges = ⟨.getUsers query, .ok page⟩ :: written ∧
        GoesThrough call? (foundRecords s model page) written outcome

/-- A loop that counts what a search has found is a sweep. -/
theorem sweeps_of_course {f : Record → ConnectorAction (Dialogue H) H Unit}
    (hround : ∀ {r cache turns outcome cache'}, Course (f r) cache turns outcome cache' →
      Turn.Granted turns → RoundOf call? r (Turn.exchanges turns) outcome)
    {bundle : SearchBundle} {outcome : Except ConnectorError Nat}
    (h : Course (do
        let stored ← (spoken s).all model bundle
        stored.forM f
        pure stored.length) cache turns outcome cache')
    (hgranted : Turn.Granted turns) :
    Sweeps s model bundle call? (Turn.exchanges turns) outcome := by
  unfold Sweeps
  rcases course_bind_iff.1 h with ⟨e, rfl, hall⟩ | ⟨searching, rest, stored, _, rfl, hall, hloop⟩
  · rcases exchanges_all hall hgranted with
      ⟨e, hquery, hnone, houtcome⟩ | ⟨query, hquery, answer, hsearch, houtcome⟩
    · rw [hquery]
      exact ⟨hnone, congrArg _ (Except.error.inj houtcome)⟩
    · rw [hquery]
      cases answer with
      | error cause => exact .inl ⟨cause, hsearch, congrArg _ (Except.error.inj houtcome)⟩
      | ok page => exact absurd houtcome nofun
  · obtain ⟨hgsearch, hgrest⟩ := Turn.granted_append_iff.1 hgranted
    rcases exchanges_all hall hgsearch with
      ⟨e, -, -, houtcome⟩ | ⟨query, hquery, answer, hsearch, houtcome⟩
    · exact absurd houtcome nofun
    rw [hquery]
    cases answer with
    | error cause => exact absurd houtcome nofun
    | ok page =>
      obtain rfl := Except.ok.inj houtcome
      refine .inr ⟨page, Turn.exchanges rest, ?_, goesThrough_of_course hround hloop hgrest⟩
      rw [Turn.exchanges_append, hsearch]
      rfl

/-- **Operations on all matches go record by record.** Take any course of either of them,
whatever the directory answers, in which handles are given. It makes the search and goes
through the objects of the page in their order. Each record makes its call, an update or
a deletion for its own id, and what an update sends depends on this record, the data, the
options and the settings. The records are counted if all have an id that will do and no
answer fails. Else the first record that fails ends the operation with its error, the
records before it are done with, and nothing is asked for those behind it. -/
theorem sweeps_in_order {condition : Option Json} (data : Record) (options : SerializeOptions)
    {outcome : Except ConnectorError Nat} (hgranted : Turn.Granted turns) :
    (Course ((spoken s).updateAll model condition data options) cache turns outcome cache' →
      Sweeps s model { condition } (s.updateOf? model data options) (Turn.exchanges turns)
        outcome) ∧
    (conditionId? condition = none →
      Course ((spoken s).destroyAll model condition) cache turns outcome cache' →
      Sweeps s model { condition, fields := some [s.idField model] } (s.deletionOf? model)
        (Turn.exchanges turns) outcome) := by
  refine ⟨fun h => sweeps_of_course roundOf_updateStored h hgranted, fun hnone h => ?_⟩
  unfold destroyAll at h
  rw [hnone] at h
  obtain ⟨rest, handle, _, hexchanges, hgranted, h⟩ := exchanges_client_bind h hgranted
  rw [hexchanges]
  exact sweeps_of_course (fun h _ => roundOf_destroyStored h) h hgranted

/-! ## On a page with a record without an id -/

/-- A directory that serves a page gives every handle, so what an operation comes to there
is what it comes to in a course with handles. -/
theorem exists_course_served {α : Type} {action : ConnectorAction (Dialogue Unit) Unit α}
    {cache : TtlCache Unit} (page : UserPage) {outcome : Except ConnectorError α}
    {calls : List DirectoryCall}
    (h : (served action cache page).2.1 = outcome ∧
      Turn.calls (served action cache page).1 = calls) :
    ∃ turns cache', Course action cache turns outcome cache' ∧ Turn.Granted turns ∧
      Turn.calls turns = calls := by
  obtain ⟨rfl, hcalls⟩ := h
  exact ⟨_, _, course_served action cache page,
    fun _ _ _ hmem => ⟨(), Dialogue.answer_of_mem_play hmem⟩, hcalls⟩

/-- A page with a record without an id between two others. -/
def gappedPage : UserPage where
  users := [.obj [("user_id", .str "auth0|a")], .obj [("email", .str "ada@example.org")],
    .obj [("user_id", .str "auth0|b")]]

/-- The first user is done with, the second has no id, and the third is left alone. -/
theorem sweeps_in_order_gappedPage :
    let s := grantlessSettings
    let condition := some (singleCondition "name" (.str "Ada"))
    let query : UserQuery :=
      { q := some "name:\"Ada\" AND identities.connection:\"Users\"", searchEngine := some .v2 }
    (∃ turns cache', Course ((spoken s).updateAll "user" condition [] {})
        ((spoken s).noHandles : TtlCache Unit) turns (.error .missingId) cache' ∧
      Turn.Granted turns ∧ Turn.calls turns = [.getUsers query, .updateUser "auth0|a"
        [("client_id", .str "client"), ("connection", .str "Users")]] ∧
      Sweeps s "user" { condition } (s.updateOf? "user" [] {}) (Turn.exchanges turns)
        (.error .missingId)) ∧
    (∃ turns cache', Course ((spoken s).destroyAll "user" condition)
        ((spoken s).noHandles : TtlCache Unit) turns (.error .missingId) cache' ∧
      Turn.Granted turns ∧ Turn.calls turns =
        [.getUsers { query with fields := some "user_id" }, .deleteUser "auth0|a"] ∧
      Sweeps s "user" { condition, fields := some ["id"] } (s.deletionOf? "user")
        (Turn.exchanges turns) (.error .missingId)) := by
  intro s condition query
  constructor
  · have hrun : ∃ turns cache', Course ((spoken s).updateAll "user" condition [] {})
        (spoken s).noHandles turns (.error .missingId) cache' ∧ Turn.Granted turns ∧
        Turn.calls turns = [.getUsers query, .updateUser "auth0|a"
          [("client_id", .str "client"), ("connection", .str "Users")]] :=
      exists_course_served gappedPage (by decide +kernel)
    obtain ⟨turns, cache', hcourse, hgranted, hcalls⟩ := hrun
    exact ⟨turns, cache', hcourse, hgranted, hcalls, (sweeps_in_order [] {} hgranted).1 hcourse⟩
  · have hrun : ∃ turns cache', Course ((spoken s).destroyAll "user" condition)
        (spoken s).noHandles turns (.error .missingId) cache' ∧ Turn.Granted turns ∧
        Turn.calls turns =
          [.getUsers { query with fields := some "user_id" }, .deleteUser "auth0|a"] :=
      exists_course_served gappedPage (by decide +kernel)
    obtain ⟨turns, cache', hcourse, hgranted, hcalls⟩ := hrun
    exact ⟨turns, cache', hcourse, hgranted, hcalls, (sweeps_in_order [] {} hgranted).2 rfl hcourse⟩

end Connector

end UserDirectory
