import UserDirectory.Client.Http
import UserDirectory.Proofs.Results
import UserDirectory.Proofs.Url.Segments

/-!
# Whom a request addresses

A call about one user is sent to a path that names the user, one segment behind the base
and `users`. What is sent is told by a transport that lists it (`listing`), so that to fail
without sending is to leave the list empty.

That the path names who was meant holds of names that a path can hold and of no others
(`call_addresses_iff`): an id is not looked at before it becomes a segment. The ids that a
path cannot hold are few, but a deletion by one of them is sent all the same, to another
user or to the users as a whole (`deleteUser_reaches_collection`).
-/

namespace UserDirectory

/-- The segments that a call about one user names. -/
def DirectoryCall.names? : DirectoryCall → Option (List String)
  | .createUser _ | .getUsers _ => none
  | .updateUser id _ | .deleteUser id => some ["users", id]
  | .linkUser id _ => some ["users", id, "identities"]
  | .unlinkUser id provider userId => some ["users", id, "identities", provider, userId]

/-- A call about one user names more than the users. -/
theorem DirectoryCall.names?_ne_users {call : DirectoryCall} {names : List String}
    (h : call.names? = some names) : names ≠ [] ∧ names ≠ ["users"] := by
  cases call with
  | createUser | getUsers => exact absurd h nofun
  | updateUser | deleteUser | linkUser | unlinkUser =>
    obtain rfl := Option.some.inj h
    exact ⟨List.cons_ne_nil _ _, nofun⟩

/-- Makes a call, of whose result only the failure is told. -/
def Directory.perform {m : Type → Type} [Monad m] (d : Directory m) :
    DirectoryCall → m (ClientResult Unit)
  | .createUser data => (·.map fun _ => ()) <$> d.createUser data
  | .getUsers query => (·.map fun _ => ()) <$> d.getUsers query
  | .updateUser id data => (·.map fun _ => ()) <$> d.updateUser id data
  | .deleteUser id => d.deleteUser id
  | .linkUser id data => (·.map fun _ => ()) <$> d.linkUser id data
  | .unlinkUser id provider userId => (·.map fun _ => ()) <$> d.unlinkUser id provider userId

/-- A transport that lists what is sent. -/
def listing (answer : HttpRequest → Option HttpResponse) :
    Transport (StateM (List HttpRequest)) := fun request => do
  modify (· ++ [request])
  pure (answer request)

namespace ManagementClient

/-- **What comes of a call**, and what was sent for it. -/
def exchange (c : ManagementClient) (answer : HttpRequest → Option HttpResponse)
    (call : DirectoryCall) : ClientResult Unit × List HttpRequest :=
  ((c.directory (listing answer)).perform call).run []

variable {c : ManagementClient} {answer : HttpRequest → Option HttpResponse}

theorem isPlain_of_ofBaseUrl {baseUrl token : String} (h : ofBaseUrl baseUrl token = .ok c) :
    c.baseUrl.isPlain = false := by
  unfold ofBaseUrl at h
  split at h
  · exact absurd h nofun
  · split at h
    · exact absurd h nofun
    · next url _ hplain =>
      obtain rfl := Except.ok.inj h
      simpa using hplain

theorem exists_addSegments? (h : c.baseUrl.isPlain = false) (names : List String) :
    ∃ url, c.baseUrl.addSegments? names = some url := by
  unfold Url.isPlain at h
  cases hpath : c.baseUrl.path with
  | plain text => rw [hpath] at h; exact absurd h nofun
  | segments path => exact ⟨_, Url.addSegments?_eq hpath names⟩

/-- **A call is sent once or not at all**, and in the second case it has failed. -/
theorem run_call {method : HttpMethod} {names : List String} {body : Option Json} {url : Url}
    (h : c.baseUrl.addSegments? names = some url) :
    (∃ e, (c.call (listing answer) method names body).run [] = (.error e, [])) ∨
      ∃ result, (c.call (listing answer) method names body).run [] =
        (result, [{ method, url, bearer := c.token, body }]) := by
  unfold call endpoint send listing
  rw [h]
  dsimp only
  cases HttpRequest.isSendable { method, url, bearer := c.token, body } with
  | false => exact .inl ⟨.request, rfl⟩
  | true =>
    cases answer { method, url, bearer := c.token, body } with
    | none => exact .inr ⟨.error .request, rfl⟩
    | some response => exact .inr ⟨response.result, rfl⟩

/-- What a call gives may be changed afterwards, as long as a failure stays one. -/
theorem exchange_of_run {call : DirectoryCall} {method : HttpMethod} {names : List String}
    {body : Option Json} {url : Url} (h : c.baseUrl.addSegments? names = some url)
    (f : ClientResult (Option Json) → ClientResult Unit) (hf : ∀ e, f (.error e) = .error e)
    (hcall : c.exchange answer call =
      (f <$> c.call (listing answer) method names body : StateM _ _).run []) :
    (∃ e, c.exchange answer call = (.error e, [])) ∨
      ∃ result request, c.exchange answer call = (result, [request]) ∧ request.url = url := by
  rw [hcall, StateT.run_map]
  obtain ⟨e, he⟩ | ⟨result, hresult⟩ := run_call h
  · exact .inl ⟨e, by rw [he]; exact congrArg (·, []) (hf e)⟩
  · exact .inr ⟨_, _, by rw [hresult]; rfl, rfl⟩

/-- **A call about a user goes down by its names**, if it is sent. -/
theorem exchange_of_names {call : DirectoryCall} {names : List String} {url : Url}
    (hnames : call.names? = some names) (h : c.baseUrl.addSegments? names = some url) :
    (∃ e, c.exchange answer call = (.error e, [])) ∨
      ∃ result request, c.exchange answer call = (result, [request]) ∧ request.url = url := by
  cases call with
  | createUser | getUsers => exact absurd hnames nofun
  | deleteUser =>
    obtain rfl := Option.some.inj hnames
    exact exchange_of_run h (fun r => r.map fun _ => ()) (fun _ => rfl) rfl
  | updateUser | linkUser | unlinkUser =>
    obtain rfl := Option.some.inj hnames
    exact exchange_of_run h (fun r => (directory.orNull r).map fun _ => ()) (fun _ => rfl) rfl

/-- **A request addresses the user that was meant**, exactly if all that it names can be held
by a path. For every client that an address makes:
- a call about a user fails and sends nothing, or it sends one request, and this leads to
  what the call names if and only if all of its names are addressable;
- of such calls no two that name different things are sent to one address, and none is sent
  to the address of the users as a whole. -/
theorem call_addresses_iff {baseUrl token : String} (h : ofBaseUrl baseUrl token = .ok c)
    (answer : HttpRequest → Option HttpResponse) :
    (∀ call names, call.names? = some names →
      (∃ e, c.exchange answer call = (.error e, [])) ∨
        ∃ result request, c.exchange answer call = (result, [request]) ∧
          (c.baseUrl.LeadsTo request.url names ↔ ∀ name ∈ names, Url.Addressable name)) ∧
    ∀ call names request, call.names? = some names → (∀ name ∈ names, Url.Addressable name) →
      (c.exchange answer call).2 = [request] →
      (∀ call' names' request', call'.names? = some names' →
        (∀ name ∈ names', Url.Addressable name) → (c.exchange answer call').2 = [request'] →
        request.url.target = request'.url.target → names = names') ∧
      ∃ users, c.endpoint ["users"] = .ok users ∧ request.url.target ≠ users.target := by
  have hplain := isPlain_of_ofBaseUrl h
  have hsent : ∀ {call names request}, DirectoryCall.names? call = some names →
      (c.exchange answer call).2 = [request] →
      c.baseUrl.addSegments? names = some request.url := by
    intro call names request hnames hrequest
    obtain ⟨url, hurl⟩ := exists_addSegments? hplain names
    obtain ⟨e, he⟩ | ⟨result, request', hexchange, rfl⟩ := exchange_of_names hnames hurl
    · rw [he] at hrequest
      exact absurd hrequest nofun
    · rw [hexchange] at hrequest
      rwa [List.singleton_inj.1 hrequest] at hurl
  constructor
  · intro call names hnames
    obtain ⟨url, hurl⟩ := exists_addSegments? hplain names
    obtain hfails | ⟨result, request, hexchange, rfl⟩ := exchange_of_names hnames hurl
    · exact .inl hfails
    · exact .inr ⟨result, request, hexchange, Url.leadsTo_iff hurl⟩
  · intro call names request hnames haddressable hrequest
    obtain ⟨hne, husers⟩ := DirectoryCall.names?_ne_users hnames
    constructor
    · intro call' names' request' hnames' haddressable' hrequest' htarget
      exact Url.eq_of_target_eq (hsent hnames hrequest) (hsent hnames' hrequest') hne
        (DirectoryCall.names?_ne_users hnames').1 haddressable haddressable' htarget
    · obtain ⟨users, hcollection⟩ := exists_addSegments? hplain ["users"]
      refine ⟨users, by unfold endpoint; rw [hcollection], fun htarget => husers ?_⟩
      exact Url.eq_of_target_eq (hsent hnames hrequest) hcollection hne (List.cons_ne_nil _ _)
        haddressable (by decide) htarget

/-- A client of an address with a slash at its end. -/
def exampleClient : ManagementClient where
  baseUrl :=
    { scheme := "https", host := some (.domain "example.org"), path := .segments ["api", "v2", ""] }
  token := "token"

/-- A directory that deletes whatever it is told to. -/
def deleted (_ : HttpRequest) : Option HttpResponse := some ⟨204, ""⟩

/-- An id may hold what would be syntax in a path. -/
theorem call_addresses_iff_encoded :
    ofBaseUrl "https://example.org/api/v2/" "token" = .ok exampleClient ∧
      ∃ request, (exampleClient.exchange deleted (.deleteUser "auth0|a/../%2f")).2 = [request] ∧
        request.url.target = "/api/v2/users/auth0|a%2F..%2F%252f" ∧
        exampleClient.baseUrl.LeadsTo request.url ["users", "auth0|a/../%2f"] := by
  have hclient : ofBaseUrl "https://example.org/api/v2/" "token" = .ok exampleClient := by
    decide +kernel
  have haddressable : ∀ name ∈ ["users", "auth0|a/../%2f"], Url.Addressable name := by decide
  have htargets : (exampleClient.exchange deleted (.deleteUser "auth0|a/../%2f")).2.map
      (·.url.target) = ["/api/v2/users/auth0|a%2F..%2F%252f"] := by decide +kernel
  obtain ⟨e, he⟩ | ⟨result, request, hexchange, hiff⟩ :=
    (call_addresses_iff hclient deleted).1 (.deleteUser "auth0|a/../%2f") _ rfl
  · rw [he] at htargets
    exact absurd htargets nofun
  · rw [hexchange] at htargets ⊢
    exact ⟨hclient, request, rfl, List.singleton_inj.1 htargets, hiff.2 haddressable⟩

/-- **An id that is a dot deletes at the address of all users**, and one with a tab in it
addresses the user of another id. -/
theorem deleteUser_reaches_collection :
    ofBaseUrl "https://example.org/api/v2/" "token" = .ok exampleClient ∧
      (∃ request, exampleClient.exchange deleted (.deleteUser ".") = (.ok (), [request]) ∧
        exampleClient.endpoint ["users"] = .ok request.url ∧
        request.url.target = "/api/v2/users" ∧
        ¬ exampleClient.baseUrl.LeadsTo request.url ["users", "."]) ∧
      exampleClient.exchange deleted (.deleteUser "a\tb") =
        exampleClient.exchange deleted (.deleteUser "ab") := by
  let users : Url := { exampleClient.baseUrl with path := .segments ["api", "v2", "users"] }
  refine ⟨by decide +kernel, ⟨⟨.delete, users, "token", none⟩, ?_⟩, by decide +kernel⟩
  exact ⟨by decide +kernel, by decide +kernel, by decide +kernel, by decide +kernel⟩

end ManagementClient

end UserDirectory
