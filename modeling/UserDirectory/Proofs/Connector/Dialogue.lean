import UserDirectory.Connector.Operations
import UserDirectory.Proofs.Results

/-!
# Connectors in dialogue

What a connector does depends on the answers that it gets: the time, a handle or a
failure to make one, and whatever the directory says to each call. Nothing is assumed
of them. So an action is taken here as what it is before any answer is given, a
dialogue that puts a question and goes on from each possible answer, and the same
connector that runs against a directory is run against questions (`Connector.spoken`).

A course of an action is one way through its dialogue: the questions in order, each
with the answer that it got, and what came of it. A course of two actions in a row is
a course of the first and then, unless it failed, one of the second
(`Connector.course_bind_iff`); all that is said of an operation follows from this.
-/

namespace UserDirectory

/-! ## Questions -/

/-- What the directory answers to a call. -/
def DirectoryCall.Answer : DirectoryCall → Type
  | .getUsers _ => ClientResult UserPage
  | .deleteUser _ => ClientResult Unit
  | .createUser _ | .updateUser _ _ | .linkUser _ _ | .unlinkUser _ _ _ => ClientResult Json

/-- **What a connector asks** its surroundings. -/
inductive Question (H : Type) where
  /-- The time in nanoseconds. -/
  | time
  /-- A handle for a model with these permissions. -/
  | handle (model : String) (scopes : TokenScopes)
  /-- A call of the directory through a handle. -/
  | call (through : H) (request : DirectoryCall)

/-- What a question is answered with. -/
def Question.Answer {H : Type} : Question H → Type
  | .time => Nat
  | .handle _ _ => ClientResult H
  | .call _ request => request.Answer

/-- **A question with its answer.** -/
structure Turn (H : Type) where
  question : Question H
  answer : question.Answer

/-- **A dialogue**: it has ended with a result, or it puts a question and goes on from each
answer. -/
inductive Dialogue (H α : Type) where
  | ended (result : α)
  | ask (question : Question H) (next : question.Answer → Dialogue H α)

namespace Dialogue

variable {H α β : Type}

/-- A dialogue and what follows on its result. -/
def bind (d : Dialogue H α) (f : α → Dialogue H β) : Dialogue H β :=
  match d with
  | .ended a => f a
  | .ask question next => .ask question fun answer => (next answer).bind f

instance : Monad (Dialogue H) where
  pure := .ended
  bind := bind

/-- Puts one question. -/
def put (question : Question H) : Dialogue H question.Answer := .ask question .ended

/-- **A way through a dialogue**: the questions with their answers, and the result. -/
inductive Takes : Dialogue H α → List (Turn H) → α → Prop where
  | ended (a : α) : Takes (.ended a) [] a
  | ask {question : Question H} {next : question.Answer → Dialogue H α} {turns : List (Turn H)}
      {a : α} (answer : question.Answer) (h : Takes (next answer) turns a) :
      Takes (.ask question next) (⟨question, answer⟩ :: turns) a

theorem takes_pure_iff {a b : α} {turns : List (Turn H)} :
    Takes (pure a) turns b ↔ turns = [] ∧ b = a := by
  constructor
  · rintro ⟨⟩
    exact ⟨rfl, rfl⟩
  · rintro ⟨rfl, rfl⟩
    exact .ended b

theorem takes_put_iff {question : Question H} {turns : List (Turn H)} {a : question.Answer} :
    Takes (put question) turns a ↔ turns = [⟨question, a⟩] := by
  constructor
  · rintro (_ | ⟨answer, h⟩)
    cases h
    rfl
  · rintro rfl
    exact .ask a (.ended a)

/-- **A way through two dialogues** is one through the first and then one through what
follows. -/
theorem takes_bind_iff {d : Dialogue H α} {f : α → Dialogue H β} {turns : List (Turn H)} {b : β} :
    Takes (d >>= f) turns b ↔
      ∃ first rest a, turns = first ++ rest ∧ Takes d first a ∧ Takes (f a) rest b := by
  constructor
  · intro h
    induction d generalizing turns with
    | ended a => exact ⟨[], turns, a, rfl, .ended a, h⟩
    | ask question next ih =>
      rcases h with _ | ⟨answer, h⟩
      obtain ⟨first, rest, a, rfl, hfirst, hrest⟩ := ih answer h
      exact ⟨_, rest, a, rfl, .ask answer hfirst, hrest⟩
  · rintro ⟨first, rest, a, rfl, hfirst, hrest⟩
    induction hfirst with
    | ended a => exact hrest
    | ask answer _ ih => exact .ask answer (ih hrest)

/-- A question comes first in its dialogue. -/
theorem takes_put_bind_iff {question : Question H} {f : question.Answer → Dialogue H β}
    {turns : List (Turn H)} {b : β} :
    Takes (put question >>= f) turns b ↔
      ∃ answer rest, turns = ⟨question, answer⟩ :: rest ∧ Takes (f answer) rest b := by
  constructor
  · rintro (_ | ⟨answer, h⟩)
    exact ⟨answer, _, rfl, h⟩
  · rintro ⟨answer, rest, rfl, h⟩
    exact .ask answer h

/-- What is only worked out of a result asks nothing. -/
theorem takes_bind_pure_iff {d : Dialogue H α} {f : α → β} {turns : List (Turn H)} {b : β} :
    Takes (d >>= fun a => pure (f a)) turns b ↔ ∃ a, Takes d turns a ∧ b = f a := by
  rw [takes_bind_iff]
  constructor
  · rintro ⟨first, rest, a, rfl, hfirst, hrest⟩
    obtain ⟨rfl, rfl⟩ := takes_pure_iff.1 hrest
    exact ⟨a, by rwa [List.append_nil], rfl⟩
  · rintro ⟨a, h, rfl⟩
    exact ⟨turns, [], a, (List.append_nil turns).symm, h, .ended (f a)⟩

/-- The way that is taken when each question gets its answer from a function. -/
def play (answer : (question : Question H) → question.Answer) : Dialogue H α → List (Turn H) × α
  | .ended a => ([], a)
  | .ask question next =>
    let (turns, a) := play answer (next (answer question))
    (⟨question, answer question⟩ :: turns, a)

theorem takes_play (answer : (question : Question H) → question.Answer) (d : Dialogue H α) :
    Takes d (d.play answer).1 (d.play answer).2 := by
  induction d with
  | ended a => exact .ended a
  | ask question next ih => exact .ask (answer question) (ih (answer question))

theorem answer_of_mem_play {answer : (question : Question H) → question.Answer}
    {d : Dialogue H α} {turn : Turn H} (h : turn ∈ (d.play answer).1) :
    turn.answer = answer turn.question := by
  induction d with
  | ended a => exact absurd h List.not_mem_nil
  | ask question next ih =>
    rcases List.mem_cons.1 h with rfl | h
    · rfl
    · exact ih _ h

/-- **A directory that answers every search with one page** and accepts every other
call. -/
def serving (page : UserPage) : (question : Question Unit) → question.Answer
  | .time => (0 : Nat)
  | .handle _ _ => (.ok () : ClientResult Unit)
  | .call _ (.getUsers _) => (.ok page : ClientResult UserPage)
  | .call _ (.deleteUser _) => (.ok () : ClientResult Unit)
  | .call _ (.createUser _) | .call _ (.updateUser _ _) | .call _ (.linkUser _ _)
  | .call _ (.unlinkUser _ _ _) => (.ok (.obj []) : ClientResult Json)

end Dialogue

/-! ## Calls of a course -/

namespace Turn

variable {H : Type}

/-- The call of the directory, if the turn is one. -/
def call? : Turn H → Option DirectoryCall
  | ⟨.call _ request, _⟩ => some request
  | _ => none

/-- **The calls of the directory**, in order. -/
def calls (turns : List (Turn H)) : List DirectoryCall := turns.filterMap call?

theorem calls_append (turns turns' : List (Turn H)) :
    calls (turns ++ turns') = calls turns ++ calls turns' := List.filterMap_append

/-- The turns of one call hold this call. -/
theorem calls_of_takes_put (handle : H) (request : DirectoryCall) (turns : List (Turn H))
    (answer : request.Answer) (h : Dialogue.Takes (.put (.call handle request)) turns answer) :
    calls turns = [request] := by
  obtain rfl := Dialogue.takes_put_iff.1 h
  rfl

/-- **A search was answered with a page.** -/
def Finds (turns : List (Turn H)) (query : UserQuery) (page : UserPage) : Prop :=
  ∃ handle, ⟨.call handle (.getUsers query), .ok page⟩ ∈ turns

theorem Finds.append_left {turns : List (Turn H)} {query : UserQuery} {page : UserPage}
    (h : Finds turns query page) (turns' : List (Turn H)) : Finds (turns ++ turns') query page :=
  h.imp fun _ hmem => List.mem_append_left turns' hmem

theorem Finds.append_right {turns' : List (Turn H)} {query : UserQuery} {page : UserPage}
    (h : Finds turns' query page) (turns : List (Turn H)) : Finds (turns ++ turns') query page :=
  h.imp fun _ hmem => List.mem_append_right turns hmem

end Turn

/-! ## Courses of actions -/

namespace Connector

variable {H α β : Type}

/-- The directory behind a handle, as far as it is asked. -/
def spokenDirectory (handle : H) : Directory (Dialogue H) where
  createUser data := .put (.call handle (.createUser data))
  getUsers query := .put (.call handle (.getUsers query))
  updateUser id data := .put (.call handle (.updateUser id data))
  deleteUser id := .put (.call handle (.deleteUser id))
  linkUser id data := .put (.call handle (.linkUser id data))
  unlinkUser id provider userId := .put (.call handle (.unlinkUser id provider userId))

/-- **The connector that asks for everything** it does not know. -/
def spoken (settings : ConnectorSettings) : Connector (Dialogue H) H where
  settings := settings
  createHandle model scopes := .put (.handle model scopes)
  directory := spokenDirectory
  clock := .put .time

/-- **A course of an action**, from one state of the cache to another. -/
def Course (action : ConnectorAction (Dialogue H) H α) (cache : TtlCache H) (turns : List (Turn H))
    (outcome : Except ConnectorError α) (cache' : TtlCache H) : Prop :=
  (action.run.run cache).Takes turns (outcome, cache')

variable {cache cache' : TtlCache H} {turns : List (Turn H)}

theorem course_pure_iff {a : α} {outcome : Except ConnectorError α} :
    Course (pure a) cache turns outcome cache' ↔
      turns = [] ∧ outcome = .ok a ∧ cache' = cache :=
  Dialogue.takes_pure_iff.trans (and_congr_right' Prod.ext_iff)

theorem course_throw_iff {e : ConnectorError} {outcome : Except ConnectorError α} :
    Course (throw e) cache turns outcome cache' ↔
      turns = [] ∧ outcome = .error e ∧ cache' = cache :=
  Dialogue.takes_pure_iff.trans (and_congr_right' Prod.ext_iff)

theorem course_ofFilter_iff {result : FilterResult α} {outcome : Except ConnectorError α} :
    Course (ofFilter result) cache turns outcome cache' ↔
      turns = [] ∧ result.mapError .filter = outcome ∧ cache' = cache := by
  rw [@eq_comm _ _ outcome]
  exact Dialogue.takes_pure_iff.trans (and_congr_right' Prod.ext_iff)

/-- **A course of two actions** ends where the first fails, and else goes on with the
second. -/
theorem course_bind_iff {action : ConnectorAction (Dialogue H) H α}
    {next : α → ConnectorAction (Dialogue H) H β} {outcome : Except ConnectorError β} :
    Course (action >>= next) cache turns outcome cache' ↔
      (∃ e, outcome = .error e ∧ Course action cache turns (.error e) cache') ∨
        ∃ first rest a middle, turns = first ++ rest ∧
          Course action cache first (.ok a) middle ∧
          Course (next a) middle rest outcome cache' := by
  have hrun : (action >>= next).run.run cache = (action.run.run cache >>= fun r =>
      match r.1 with
      | .ok a => (next a).run.run r.2
      | .error e => pure (.error e, r.2)) := by
    show (action.run.run cache >>= _) = _
    congr 1
    funext r
    obtain ⟨_ | _, _⟩ := r <;> rfl
  unfold Course
  rw [hrun, Dialogue.takes_bind_iff]
  constructor
  · rintro ⟨first, rest, ⟨result, middle⟩, rfl, hfirst, hrest⟩
    cases result with
    | ok a => exact .inr ⟨first, rest, a, middle, rfl, hfirst, hrest⟩
    | error e =>
      obtain ⟨rfl, heq⟩ := Dialogue.takes_pure_iff.1 hrest
      obtain ⟨rfl, rfl⟩ := Prod.mk.inj heq
      refine .inl ⟨e, rfl, ?_⟩
      rwa [List.append_nil]
  · rintro (⟨e, rfl, h⟩ | ⟨first, rest, a, middle, rfl, hfirst, hrest⟩)
    · exact ⟨turns, [], _, (List.append_nil turns).symm, h, Dialogue.takes_pure_iff.2 ⟨rfl, rfl⟩⟩
    · exact ⟨first, rest, _, rfl, hfirst, hrest⟩

/-- What is only worked out of a value asks nothing. -/
theorem course_bind_pure_iff {action : ConnectorAction (Dialogue H) H α} {f : α → β}
    {outcome : Except ConnectorError β} :
    Course (action >>= fun a => pure (f a)) cache turns outcome cache' ↔
      ∃ result, Course action cache turns result cache' ∧ outcome = result.map f := by
  rw [course_bind_iff]
  constructor
  · rintro (⟨e, rfl, h⟩ | ⟨first, rest, a, _, rfl, h, hpure⟩)
    · exact ⟨.error e, h, rfl⟩
    · obtain ⟨rfl, rfl, rfl⟩ := course_pure_iff.1 hpure
      exact ⟨.ok a, by rwa [List.append_nil], rfl⟩
  · rintro ⟨_ | a, h, rfl⟩
    · exact .inl ⟨_, rfl, h⟩
    · exact .inr ⟨turns, [], a, cache', (List.append_nil turns).symm, h,
        course_pure_iff.2 ⟨rfl, rfl, rfl⟩⟩

/-- A call of the directory fails as an action does. -/
theorem course_ask_iff {call : Dialogue H (ClientResult α)} {outcome : Except ConnectorError α} :
    Course (ask call) cache turns outcome cache' ↔
      ∃ answer, call.Takes turns answer ∧ answer.mapError .remote = outcome ∧ cache' = cache := by
  have hrun : (ask call : ConnectorAction (Dialogue H) H α).run.run cache =
      ((call >>= fun answer => pure (answer, cache)) >>= fun r =>
        pure (r.1.mapError .remote, r.2)) := rfl
  unfold Course
  rw [hrun, Dialogue.takes_bind_iff]
  constructor
  · rintro ⟨first, rest, r, rfl, hfirst, hrest⟩
    obtain ⟨first, rest', answer, rfl, hcall, hpair⟩ := Dialogue.takes_bind_iff.1 hfirst
    obtain ⟨rfl, rfl⟩ := Dialogue.takes_pure_iff.1 hpair
    obtain ⟨rfl, heq⟩ := Dialogue.takes_pure_iff.1 hrest
    obtain ⟨rfl, rfl⟩ := Prod.mk.inj heq
    refine ⟨answer, ?_, rfl, rfl⟩
    rwa [List.append_nil, List.append_nil]
  · rintro ⟨answer, hcall, rfl, rfl⟩
    refine ⟨turns, [], (answer, cache'), (List.append_nil turns).symm, ?_, .ended _⟩
    exact Dialogue.takes_bind_iff.2
      ⟨turns, [], answer, (List.append_nil turns).symm, hcall, .ended _⟩

/-- **A call and what follows on its answer**, if the answer is no failure. -/
theorem course_ask_bind {call : Dialogue H (ClientResult α)}
    {next : α → ConnectorAction (Dialogue H) H β} {outcome : Except ConnectorError β}
    (h : Course (ask call >>= next) cache turns outcome cache') :
    ∃ asking rest answer, turns = asking ++ rest ∧ call.Takes asking answer ∧
      ((∃ e, answer = .error e ∧ rest = [] ∧ outcome = .error (.remote e)) ∨
        ∃ a, answer = .ok a ∧ Course (next a) cache rest outcome cache') := by
  rcases course_bind_iff.1 h with ⟨e, rfl, hask⟩ | ⟨asking, rest, a, _, rfl, hask, hnext⟩
  · obtain ⟨answer, htakes, hanswer, -⟩ := course_ask_iff.1 hask
    refine ⟨turns, [], answer, (List.append_nil turns).symm, htakes, .inl ?_⟩
    cases answer with
    | ok a => exact absurd hanswer nofun
    | error cause => exact ⟨cause, rfl, rfl, congrArg _ (Except.error.inj hanswer).symm⟩
  · obtain ⟨answer, htakes, hanswer, rfl⟩ := course_ask_iff.1 hask
    exact ⟨asking, rest, answer, rfl, htakes, .inr ⟨a, mapError_eq_ok_iff.1 hanswer, hnext⟩⟩

/-- **The calls of a call and what follows**: first the call, then what the rest of the
action calls, if the answer lets it go on. -/
theorem calls_ask_bind {call : Dialogue H (ClientResult α)} {request : DirectoryCall}
    {next : α → ConnectorAction (Dialogue H) H β} {outcome : Except ConnectorError β}
    (hcall : ∀ turns answer, call.Takes turns answer → Turn.calls turns = [request])
    (h : Course (ask call >>= next) cache turns outcome cache') :
    ∃ rest, Turn.calls turns = request :: Turn.calls rest ∧
      (rest = [] ∨ ∃ answer, Course (next answer) cache rest outcome cache') := by
  obtain ⟨asking, rest, answer, rfl, htakes, hanswer⟩ := course_ask_bind h
  refine ⟨rest, ?_, ?_⟩
  · rw [Turn.calls_append, hcall asking answer htakes, List.singleton_append]
  · rcases hanswer with ⟨e, -, rfl, -⟩ | ⟨a, -, hnext⟩
    · exact .inl rfl
    · exact .inr ⟨a, hnext⟩

/-- **The course on a directory that answers every search with one page**: the turns, the
outcome and the cache. -/
def served (action : ConnectorAction (Dialogue Unit) Unit α) (cache : TtlCache Unit)
    (page : UserPage) : List (Turn Unit) × Except ConnectorError α × TtlCache Unit :=
  (action.run.run cache).play (Dialogue.serving page)

theorem course_served (action : ConnectorAction (Dialogue Unit) Unit α) (cache : TtlCache Unit)
    (page : UserPage) :
    Course action cache (served action cache page).1 (served action cache page).2.1
      (served action cache page).2.2 :=
  Dialogue.takes_play _ _

/-- No other page is found there. -/
theorem eq_of_finds_served {action : ConnectorAction (Dialogue Unit) Unit α}
    {cache : TtlCache Unit} {page found : UserPage} {query : UserQuery}
    (h : Turn.Finds (served action cache page).1 query found) : found = page := by
  obtain ⟨handle, hmem⟩ := h
  exact Except.ok.inj (Dialogue.answer_of_mem_play hmem)

/-! ## Loops -/

/-- **A call of a loop** is a call of one of its rounds. -/
theorem mem_calls_forM {items : List α} {f : α → ConnectorAction (Dialogue H) H Unit}
    {outcome : Except ConnectorError Unit} (h : Course (items.forM f) cache turns outcome cache')
    {call : DirectoryCall} (hcall : call ∈ Turn.calls turns) :
    ∃ item ∈ items, ∃ before round result after,
      Course (f item) before round result after ∧ call ∈ Turn.calls round := by
  induction items generalizing cache turns with
  | nil =>
    obtain ⟨rfl, -, -⟩ := course_pure_iff.1 h
    exact absurd hcall List.not_mem_nil
  | cons item rest ih =>
    rcases course_bind_iff.1 h with ⟨e, -, hfirst⟩ | ⟨first, later, _, _, rfl, hfirst, hrest⟩
    · exact ⟨item, List.mem_cons_self, _, _, _, _, hfirst, hcall⟩
    · rw [Turn.calls_append, List.mem_append] at hcall
      rcases hcall with hcall | hcall
      · exact ⟨item, List.mem_cons_self, _, _, _, _, hfirst, hcall⟩
      · obtain ⟨item', hmem, hround⟩ := ih hrest hcall
        exact ⟨item', List.mem_cons_of_mem item hmem, hround⟩

end Connector

end UserDirectory
