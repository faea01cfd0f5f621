import SessionRelay.Integration.Family
import SessionRelay.Proofs.Integration.Breakage
import SessionRelay.Proofs.KeyTable
import SessionRelay.Worker.Basic

/-!
What a worker lets through. A request for another worker, without an address, or to an address of an
unknown kind is turned away, and nothing else happens. The first request that passes has the
worker's integration made, of the kind of its address, and that one handles every later request
that passes, each of them once.
-/

namespace SessionRelay

open Backend Integration Wire

namespace Integration

variable {α : Type}

theorem Registry.supports_iff {r : Registry α} {scheme : String} :
    r.supports scheme = true ↔ scheme ∈ r.schemes := by
  unfold supports schemes KeyTable.has
  rw [Option.isSome_iff_ne_none, ne_eq, KeyTable.value?_eq_none_iff, Decidable.not_not]

/-- A registry makes what it supports. -/
theorem Registry.exists_create? {r : Registry α} {scheme : String}
    (supported : r.supports scheme = true) (worker : String) :
    ∃ made, r.create? scheme worker = some made := by
  obtain ⟨factory, known⟩ := Option.isSome_iff_exists.mp supported
  exact ⟨factory worker, by rw [create?, known]; rfl⟩

end Integration

/-- The url of a request is a text and not empty. -/
def Wire.Request.Addresses (request : Request) (url : String) : Prop :=
  request.context.get? "url" = some (.string url) ∧ url ≠ ""

theorem Wire.Request.url?_eq_some {request : Request} {url : String} :
    request.context.url? = some url ↔ request.Addresses url := by
  unfold Addresses Context.url? Context.text?
  cases request.context.get? "url" with
  | none => simp
  | some v =>
    cases v with
    | string s =>
      by_cases same : s = url
      · simp [same]
      · simp [same]
    | null | bool _ | number _ | array _ | object _ => simp

namespace Worker

variable {α : Type}

/-- A worker turns a request away and says why: the first check that the request fails decides. -/
inductive Refuses (w : Worker α) (request : Request) : String → Prop where
  | stranger {named : String} : request.worker.getD "" = named → named ≠ w.identity →
    Refuses w request s!"got {named}, expected {w.identity}"
  | nowhere : request.worker.getD "" = w.identity → (∀ url, ¬ request.Addresses url) →
    Refuses w request "no url found in request context"
  | unsupported {url : String} : request.worker.getD "" = w.identity → request.Addresses url →
    scheme url ∉ w.registry.schemes →
    Refuses w request s!"integration for {scheme url}:// is not implemented"

/-- A worker lets a request to an address of this scheme pass. -/
def Admits (w : Worker α) (request : Request) (scheme : String) : Prop :=
  request.worker.getD "" = w.identity ∧
    ∃ url, request.Addresses url ∧ Wire.scheme url = scheme ∧ scheme ∈ w.registry.schemes

variable {w : Worker α} {request : Request} {message scheme : String} {a : α}

theorem refuses_or_admits (w : Worker α) (request : Request) :
    (∃ message, w.Refuses request message) ∨ ∃ scheme, w.Admits request scheme := by
  by_cases named : request.worker.getD "" = w.identity
  · by_cases addressed : ∃ url, request.Addresses url
    · obtain ⟨url, addresses⟩ := addressed
      by_cases known : Wire.scheme url ∈ w.registry.schemes
      · exact Or.inr ⟨_, named, url, addresses, rfl, known⟩
      · exact Or.inl ⟨_, .unsupported named addresses known⟩
    · exact Or.inl ⟨_, .nowhere named (not_exists.mp addressed)⟩
  · exact Or.inl ⟨_, .stranger rfl named⟩

theorem accept_of_refuses (refuses : w.Refuses request message) :
    w.accept request = .error message := by
  unfold accept
  cases refuses with
  | stranger same other =>
    subst same
    exact if_pos other
  | nowhere named absent =>
    have none : request.context.url? = none :=
      Option.eq_none_iff_forall_ne_some.mpr fun url found =>
        absent url (Request.url?_eq_some.mp found)
    simp [named, none]
  | unsupported named addresses unknown =>
    have unsupported := Bool.eq_false_iff.mpr (unknown ∘ Registry.supports_iff.mp)
    simp only [named, Request.url?_eq_some.mpr addresses, unsupported, ne_eq, not_true, if_false,
      Bool.not_false, if_true]
    rfl

/-- What handles a request that passes, and what is logged then. -/
inductive Employs (w : Worker α) (scheme : String) : α → List Logging.Entry → Prop where
  | kept {a : α} : w.integration = some a → Employs w scheme a []
  | created {a : α} : w.integration = none → w.registry.create? scheme w.identity = some a →
    Employs w scheme a [entry .debug "Integration created" w.identity [("scheme", scheme)]]

theorem accept_of_admits (admits : w.Admits request scheme) :
    ∃ a entries, w.Employs scheme a entries ∧ w.accept request = .ok (a, entries) := by
  obtain ⟨named, url, addresses, rfl, known⟩ := admits
  have supported := Registry.supports_iff.mpr known
  cases held : w.integration with
  | some a =>
    refine ⟨a, [], .kept held, ?_⟩
    simp [accept, named, Request.url?_eq_some.mpr addresses, supported, held]
  | none =>
    obtain ⟨a, made⟩ := Registry.exists_create? supported w.identity
    refine ⟨a, _, .created held made, ?_⟩
    simp [accept, named, Request.url?_eq_some.mpr addresses, supported, held, made]

/-- The answer to a request that is turned away. -/
def refusedWith (identity : String) (moment : Moment) (request : Request) (message : String) :
    Response :=
  { Response.failed identity message with
    requestId := reference request.requestId
    responseTime := moment.elapsed }

theorem reject_eq (w : Worker α) (moment : Moment) (request : Request) (message : String) :
    w.reject moment request message = refusedWith w.identity moment request message := by
  unfold reject finished Response.forRequest refusedWith reference
  split <;> rfl

variable [Service α]

/-- A request that is turned away reaches neither the integration nor the backend. -/
theorem handle_of_refuses (refuses : w.Refuses request message) (moment : Moment) :
    w.handle moment request = ([], .done (refusedWith w.identity moment request message, w)) := by
  unfold handle
  rw [accept_of_refuses refuses]
  dsimp only
  rw [reject_eq]

/-- A request that passes is handed to the integration, once. -/
theorem handle_of_admits (admits : w.Admits request scheme) (moment : Moment) :
    ∃ a entries, w.Employs scheme a entries ∧
      w.handle moment request = (entries, (Service.handle moment request a).map fun (response, a) =>
        (response, { w with integration := some a })) := by
  obtain ⟨a, entries, employs, accepted⟩ := accept_of_admits admits
  refine ⟨a, entries, employs, ?_⟩
  unfold handle
  rw [accepted]

/-- A request that a worker handled: what was logged, what the backend was asked and said, and the
answer. -/
structure Visit where
  moment : Moment
  request : Request
  entries : List Logging.Entry
  heard : List Exchange
  response : Response

/-- A worker handles requests one after the other, whatever the backend says. -/
inductive Serves : Worker α → List Visit → Worker α → Prop where
  | nil (w : Worker α) : Serves w [] w
  | cons {w w' w'' : Worker α} {v : Visit} {visits : List Visit} :
    (w.handle v.moment v.request).1 = v.entries →
    (w.handle v.moment v.request).2.Gives v.heard (v.response, w') →
    Serves w' visits w'' → Serves w (v :: visits) w''

/-- The request was turned away: nothing was logged, and the backend was not called. -/
def TurnedAway (w : Worker α) (v : Visit) : Prop :=
  ∃ message, w.Refuses v.request message ∧ v.entries = [] ∧ v.heard = [] ∧
    v.response = refusedWith w.identity v.moment v.request message

/-- An integration handles all requests that pass, each once, and no others. -/
inductive Handles (w : Worker α) : α → List Visit → α → Prop where
  | nil (a : α) : Handles w a [] a
  | away {a b : α} {v : Visit} {visits : List Visit} :
    w.TurnedAway v → Handles w a visits b → Handles w a (v :: visits) b
  | passes {a b c : α} {v : Visit} {visits : List Visit} {scheme : String} :
    w.Admits v.request scheme → v.entries = [] →
    (Service.handle v.moment v.request a).Gives v.heard (v.response, b) →
    Handles w b visits c → Handles w a (v :: visits) c

omit [Service α] in
theorem Refuses.of_integration {held : Option α}
    (refuses : ({ w with integration := held } : Worker α).Refuses request message) :
    w.Refuses request message := by
  cases refuses with
  | stranger named other => exact .stranger named other
  | nowhere named absent => exact .nowhere named absent
  | unsupported named addresses unknown => exact .unsupported named addresses unknown

omit [Service α] in
theorem TurnedAway.of_integration {held : Option α} {v : Visit}
    (away : ({ w with integration := held } : Worker α).TurnedAway v) : w.TurnedAway v := by
  obtain ⟨message, refuses, rest⟩ := away
  exact ⟨message, refuses.of_integration, rest⟩

theorem Handles.of_integration {held : Option α} {a b : α} {visits : List Visit}
    (handles : ({ w with integration := held } : Worker α).Handles a visits b) :
    w.Handles a visits b := by
  induction handles with
  | nil a => exact .nil a
  | away turned _ ih => exact .away turned.of_integration ih
  | passes admits quiet given _ ih => exact .passes admits quiet given ih

/-- One request: it is turned away, or the integration handles it. -/
theorem visit_cases {w' : Worker α} {v : Visit}
    (logged : (w.handle v.moment v.request).1 = v.entries)
    (given : (w.handle v.moment v.request).2.Gives v.heard (v.response, w')) :
    w.TurnedAway v ∧ w' = w ∨
      ∃ scheme a b, w.Admits v.request scheme ∧ w.Employs scheme a v.entries ∧
        (Service.handle v.moment v.request a).Gives v.heard (v.response, b) ∧
        w' = { w with integration := some b } := by
  obtain ⟨moment, request, entries, heard, response⟩ := v
  dsimp only at logged given
  rcases w.refuses_or_admits request with ⟨message, refuses⟩ | ⟨scheme, admits⟩
  · rw [handle_of_refuses refuses] at logged given
    subst logged
    cases given
    exact Or.inl ⟨⟨message, refuses, rfl, rfl, rfl⟩, rfl⟩
  · obtain ⟨a, entries', employs, handled⟩ := handle_of_admits admits moment
    rw [handled] at logged given
    subst logged
    obtain ⟨⟨response', b⟩, handed, same⟩ := given.of_map
    cases same
    exact Or.inr ⟨scheme, a, b, admits, employs, handed, rfl⟩

/-- An integration that is there handles all that passes. -/
theorem Serves.kept {w' : Worker α} {visits : List Visit} (serves : w.Serves visits w')
    (held : w.integration = some a) :
    ∃ b, w.Handles a visits b ∧ w' = { w with integration := some b } := by
  induction serves generalizing a with
  | nil w => exact ⟨a, .nil a, by rw [← held]⟩
  | @cons w w' w'' v visits logged given _ ih =>
    rcases visit_cases logged given with
      ⟨turned, rfl⟩ | ⟨scheme, a', b, admits, employs, handed, rfl⟩
    · obtain ⟨b, handles, same⟩ := ih held
      exact ⟨b, .away turned handles, same⟩
    · obtain ⟨c, handles, rfl⟩ := ih rfl
      generalize logged' : v.entries = entries at employs
      cases employs with
      | kept held' =>
        cases held.symm.trans held'
        exact ⟨c, .passes admits logged' handed handles.of_integration, rfl⟩
      | created none _ =>
        rw [held] at none
        cases none

/-- Some requests are turned away; the next one passes and has the integration made, of the kind of
its address, and that integration handles it and all later ones that pass. -/
def Founds (w : Worker α) (visits : List Visit) (w' : Worker α) : Prop :=
  ∃ early first later scheme a b c,
    visits = early ++ first :: later ∧ (∀ v ∈ early, w.TurnedAway v) ∧
    w.Admits first.request scheme ∧ w.registry.create? scheme w.identity = some a ∧
    first.entries = [entry .debug "Integration created" w.identity [("scheme", scheme)]] ∧
    (Service.handle first.moment first.request a).Gives first.heard (first.response, b) ∧
    w.Handles b later c ∧ w' = { w with integration := some c }

/-- A worker without integration has one made for the first request that passes. -/
theorem Serves.founds {w' : Worker α} {visits : List Visit} (serves : w.Serves visits w')
    (held : w.integration = none) :
    (∀ v ∈ visits, w.TurnedAway v) ∧ w' = w ∨ w.Founds visits w' := by
  induction serves with
  | nil w => exact Or.inl ⟨List.forall_mem_nil _, rfl⟩
  | @cons w w' w'' v visits logged given rest ih =>
    rcases visit_cases logged given with
      ⟨turned, rfl⟩ | ⟨scheme, a, b, admits, employs, handed, rfl⟩
    · rcases ih held with ⟨away, same⟩ | ⟨early, first, later, scheme, a, b, c, parts, away, more⟩
      · exact Or.inl ⟨List.forall_mem_cons.mpr ⟨turned, away⟩, same⟩
      · refine Or.inr ⟨v :: early, first, later, scheme, a, b, c, congrArg _ parts, ?_, more⟩
        exact List.forall_mem_cons.mpr ⟨turned, away⟩
    · obtain ⟨c, handles, rfl⟩ := rest.kept rfl
      generalize logged' : v.entries = entries at employs
      cases employs with
      | kept held' =>
        rw [held] at held'
        cases held'
      | created _ made =>
        exact Or.inr ⟨[], v, visits, scheme, a, b, c, rfl, List.forall_mem_nil _, admits, made,
          logged', handed, handles.of_integration, rfl⟩

/-- What becomes of one request: it is turned away for one reason, or it passes. What the registry
supports it also makes, so a request that passes does not fail for want of an integration. -/
structure Decides (w : Worker α) (moment : Moment) (request : Request) : Prop where
  decided : (∃ message, w.Refuses request message) ∨ ∃ scheme, w.Admits request scheme
  refused : ∀ message, w.Refuses request message →
    (∀ scheme, ¬ w.Admits request scheme) ∧
    w.handle moment request = ([], .done (refusedWith w.identity moment request message, w))
  supplied : ∀ scheme, w.registry.supports scheme = true →
    ∃ a, w.registry.create? scheme w.identity = some a
  passes : ∀ scheme, w.Admits request scheme →
    ∃ a entries, w.Employs scheme a entries ∧
      w.handle moment request = (entries, (Service.handle moment request a).map fun (response, a) =>
        (response, { w with integration := some a }))

theorem decides (w : Worker α) (moment : Moment) (request : Request) :
    w.Decides moment request where
  decided := w.refuses_or_admits request
  refused message refuses := by
    refine ⟨fun scheme admits => ?_, handle_of_refuses refuses moment⟩
    obtain ⟨a, entries, -, accepted⟩ := accept_of_admits admits
    rw [accept_of_refuses refuses] at accepted
    cases accepted
  supplied scheme supported := Registry.exists_create? supported w.identity
  passes scheme admits := handle_of_admits admits moment

end Worker

/-- The schemes of the addresses that a family serves. -/
def Integration.Family.schemes : Family → List String
  | .queueManager _ => QueueManager.schemes
  | .serviceBus _ => ServiceBus.schemes

theorem Integration.Family.handle_schemes {moment : Moment} {request : Request} {f f' : Family}
    {heard : List Exchange} {r : Response}
    (given : (Service.handle moment request f).Gives heard (r, f')) : f'.schemes = f.schemes := by
  cases f with
  | queueManager s =>
    obtain ⟨_, -, ⟨⟩⟩ := Dialog.Gives.of_map given
    rfl
  | serviceBus s =>
    obtain ⟨_, -, ⟨⟩⟩ := Dialog.Gives.of_map given
    rfl

namespace Worker

theorem Handles.schemes_eq {w : Worker Family} {f f' : Family} {visits : List Visit}
    (handles : w.Handles f visits f') : f'.schemes = f.schemes := by
  induction handles with
  | nil f => rfl
  | away _ _ ih => exact ih
  | passes _ _ given _ ih => exact ih.trans (Family.handle_schemes given)

/-- The integration of a worker is of the family of the first address that passed. -/
theorem Serves.family {limit : Nat} {identity : String} {visits : List Visit} {w : Worker Family}
    (serves : Serves (.new identity (Family.registry limit)) visits w) {f : Family}
    (held : w.integration = some f) :
    ∃ early first later scheme, visits = early ++ first :: later ∧
      (∀ v ∈ early, (Worker.new identity (Family.registry limit)).TurnedAway v) ∧
      (Worker.new identity (Family.registry limit)).Admits first.request scheme ∧
      scheme ∈ f.schemes := by
  rcases serves.founds rfl with ⟨-, rfl⟩ |
    ⟨early, first, later, scheme, a, b, c, parts, away, admits, made, -, given, handles, rfl⟩
  · cases held
  · cases held
    refine ⟨early, first, later, scheme, parts, away, admits, ?_⟩
    rw [handles.schemes_eq, Family.handle_schemes given]
    rcases Family.source_of_registry made with ⟨known, rfl⟩ | ⟨known, rfl⟩
    · exact known
    · exact known

/-- A request is turned away by the first check that it fails, which leaves the worker and the
backend as they are, or it is handed to the integration. Over all requests one integration is made,
for the first that passes and of its family, and it handles all that pass. -/
theorem requests_pass_one_gate :
    (∀ {α : Type} [Service α] (w : Worker α) (moment : Moment) (request : Request),
      w.Decides moment request) ∧
    (∀ {α : Type} [Service α] (w w' : Worker α) (visits : List Visit), w.Serves visits w' →
      (w.integration = none → (∀ v ∈ visits, w.TurnedAway v) ∧ w' = w ∨ w.Founds visits w') ∧
      ∀ a, w.integration = some a →
        ∃ b, w.Handles a visits b ∧ w' = { w with integration := some b }) ∧
    ∀ (limit : Nat) (identity : String) (visits : List Visit) (w : Worker Family) (f : Family),
      Serves (.new identity (Family.registry limit)) visits w → w.integration = some f →
      ∃ early first later scheme, visits = early ++ first :: later ∧
        (∀ v ∈ early, (Worker.new identity (Family.registry limit)).TurnedAway v) ∧
        (Worker.new identity (Family.registry limit)).Admits first.request scheme ∧
        scheme ∈ f.schemes :=
  ⟨decides, fun _ _ _ serves => ⟨serves.founds, fun _ => serves.kept⟩,
    fun _ _ _ _ _ serves => serves.family⟩

end Worker

end SessionRelay
