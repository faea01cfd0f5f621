import SessionRelay.Proofs.Backend.Dialogs
import SessionRelay.Proofs.Integration.Answers

/-!
What a session with a service bus says that it sent or received, and what that did to the queues of
its namespace. The two agree for every request, whatever others do to the backend while it is
handled.
-/

namespace SessionRelay.ServiceBus

open Integration Wire
open Backend hiding Error

/-- A message that was sent or received, by what the request and its response tell. -/
inductive Account where
  | sent (endpoint : Endpoint) (id text : String)
  | received (endpoint : Endpoint) (id text : String)
  deriving DecidableEq

/-- The name of the message that a response is about. -/
def messageId? (r : Response) : Option String :=
  match r.metadata.bind (KeyTable.value? "message_id") with
  | some (.string id) => some id
  | _ => none

def account? (request : Request) (r : Response) : Option Account :=
  if !r.success then none
  else
    match request.action, endpointOf request, messageId? r with
    | "SEND", .ok endpoint, some id =>
      request.payload.map fun v => .sent endpoint id (sentText v)
    | "RECEIVE", .ok endpoint, some id =>
      match r.payload with
      | some (.string text) => some (.received endpoint id text)
      | _ => none
    | _, _, _ => none

/-- What the last call did to the queues of a namespace is what the account tells. -/
def Tallies (space : String) (last : Option Entry) : Option Account → Prop
  | none => Quiet last
  | some (.sent endpoint id text) =>
    last.bind Entry.removed? = none ∧ ∃ destination,
      endpoint.destination .sender = .ok destination ∧ last.bind Entry.accepted? =
        some (Memory.queueKey space destination, ⟨id, Utf8.encode text⟩)
  | some (.received endpoint id text) =>
    last.bind Entry.accepted? = none ∧ ∃ destination message,
      endpoint.destination .receiver = .ok destination ∧ last.bind Entry.removed? =
        some (Memory.queueKey space destination, message) ∧
      message.id = id ∧ Utf8.lossy message.body = text

namespace Session

/-- A session's connection leads to the namespace, its links lead where their endpoints say, and
there is a queue for each link to receive from. -/
structure Bound (space : String) (m : Memory) (s : Session) : Prop where
  connection : ∀ c, s.connection = some c → m.addressOf? c = some space
  links : ∀ key link, (key, link) ∈ s.links →
    key.endpoint.destination key.direction = .ok link.destination
  queues : ∀ key link, (key, link) ∈ s.links → key.direction = .receiver →
    Memory.queueKey space link.destination ∈ m.keys

variable {space : String} {m : Memory} {s : Session}

theorem bound_new (space worker : String) (m : Memory) : Bound space m (new worker) where
  connection _ held := nomatch held
  links _ _ member := nomatch member
  queues _ _ member := nomatch member

theorem Bound.grows (bound : Bound space m s) {after : Memory} (grows : m.Grows after) :
    Bound space after s where
  connection c held := grows.addresses c space (bound.connection c held)
  links := bound.links
  queues key link member direction := grows.keys _ (bound.queues key link member direction)

theorem Bound.noting (bound : Bound space m s) (e : Backend.Error) :
    Bound space m (s.noting e) := by
  unfold Session.noting
  split
  · exact ⟨bound.connection, bound.links, bound.queues⟩
  · exact bound

end Session

/-- A request asks to receive from an endpoint. -/
def Asks (request : Request) (endpoint : Endpoint) : Prop :=
  request.action = "CONN" ∧ directionOf request = .ok .receiver ∧ endpointOf request = .ok endpoint

/-- How a request ends: the session stays bound, what was sent or received is accounted for and
agrees with the backend, and there is a queue to receive from if this was asked for. -/
structure Settled (space : String) (request : Request) (last : Option Entry) (m : Memory)
    (result : Response × Session) : Prop where
  bound : result.2.Bound space m
  accounted : result.1.success = true → request.action = "SEND" ∨ request.action = "RECEIVE" →
    (account? request result.1).isSome
  tallies : Tallies space last (account? request result.1)
  subscribed : result.1.success = true → ∀ endpoint destination, Asks request endpoint →
    endpoint.destination .receiver = .ok destination →
      Memory.queueKey space destination ∈ m.keys

section Settling

variable {space : String} {m : Memory} {s : Session} {last : Option Entry} {moment : Moment}
  {request : Request}

theorem account?_finished (r : Response) :
    account? request (finished moment request r) = account? request r := by
  obtain ⟨name, same⟩ := finished_eq moment request r
  rw [same]
  rfl

theorem account?_of_send (named : request.action = "SEND") {endpoint : Endpoint}
    (asked : endpointOf request = .ok endpoint) {r : Response} (succeeded : r.success = true)
    {id : String} (told : messageId? r = some id) :
    account? request r = request.payload.map fun v => .sent endpoint id (sentText v) := by
  rw [account?, succeeded, named, asked, told]
  rfl

theorem account?_of_receive (named : request.action = "RECEIVE") {endpoint : Endpoint}
    (asked : endpointOf request = .ok endpoint) {r : Response} (succeeded : r.success = true)
    {id text : String} (told : messageId? r = some id) (brought : r.payload = some (.string text)) :
    account? request r = some (.received endpoint id text) := by
  rw [account?, succeeded, named, asked, told, brought]
  rfl

/-- A failure tells of no message, and there was none. -/
theorem settled_failed (bound : s.Bound space m) (quiet : Quiet last) (worker message : String) :
    Settled space request last m
      (finished moment request (Response.failed worker message), s) := by
  have failed : (finished moment request (Response.failed worker message)).success = false :=
    finished_success moment request _
  have nothing : account? request (finished moment request (Response.failed worker message)) =
      none := account?_finished _
  constructor
  case bound => exact bound
  case accounted => exact fun succeeded => absurd (failed.symm.trans succeeded) Bool.noConfusion
  case tallies =>
    rw [nothing]
    exact quiet
  case subscribed => exact fun succeeded => absurd (failed.symm.trans succeeded) Bool.noConfusion

theorem settled_error (bound : s.Bound space m) (quiet : Quiet last) (worker : String)
    (e : Error) :
    Settled space request last m (finished moment request (responseOf worker (.error e)), s) :=
  settled_failed bound quiet worker e.message

/-- Neither is there a message in what a request for something else comes to. -/
theorem settled_other (bound : s.Bound space m) (quiet : Quiet last)
    (other : request.action ≠ "SEND" ∧ request.action ≠ "RECEIVE")
    (subscribed : ∀ endpoint destination, Asks request endpoint →
      endpoint.destination .receiver = .ok destination →
        Memory.queueKey space destination ∈ m.keys)
    (worker : String) (result : Except Error Outcome) :
    Settled space request last m (finished moment request (responseOf worker result), s) := by
  have nothing (r : Response) : account? request r = none := by
    unfold account?
    split
    · rfl
    · split
      · next sends _ _ => exact absurd sends other.1
      · next receives _ _ => exact absurd receives other.2
      · rfl
  constructor
  case bound => exact bound
  case accounted =>
    intro _ moves
    rcases moves with sends | receives
    · exact absurd sends other.1
    · exact absurd receives other.2
  case tallies =>
    rw [nothing]
    exact quiet
  case subscribed => exact fun _ => subscribed

end Settling

/-! ### Plans -/

section Plans

variable {request : Request} {s : Session}

theorem connectPlan_eq_ok {plan : ConnectPlan} (h : connectPlan request = .ok plan) :
    endpointOf request = .ok plan.key.endpoint ∧ directionOf request = .ok plan.key.direction ∧
      plan.key.endpoint.destination plan.key.direction = .ok plan.link.destination := by
  simp only [connectPlan, bind, Except.bind, pure, Except.pure] at h
  split at h
  · split at h
    · cases h
    · split at h
      · cases h
      · next endpoint named =>
        split at h
        · cases h
        · next direction directed =>
          split at h
          · cases h
          · next destination leads =>
            split at h <;> cases h
            exact ⟨named, directed, leads⟩
  · cases h

theorem url_of_connectPlan {plan : ConnectPlan} (h : connectPlan request = .ok plan) :
    ∃ raw, request.context.url? = some raw ∧ Url.parse raw = .ok plan.url := by
  simp only [connectPlan, bind, Except.bind, pure, Except.pure] at h
  split at h
  · next raw given =>
    split at h
    · cases h
    · next url parsed =>
      split at h
      · cases h
      · split at h
        · cases h
        · split at h
          · cases h
          · split at h <;> cases h
            exact ⟨raw, given, parsed⟩
  · cases h

theorem mem_of_link? {key : LinkKey} {link : Link} (h : s.link? key = some link) :
    (key, link) ∈ s.links := by
  have found (links : List (LinkKey × Link)) (h : links.lookup key = some link) :
      (key, link) ∈ links := by
    induction links with
    | nil => cases h
    | cons head rest ih =>
      obtain ⟨k, l⟩ := head
      rw [List.lookup_cons] at h
      split at h
      · next same =>
        cases h
        rw [eq_of_beq same]
        exact List.mem_cons_self
      · exact List.mem_cons_of_mem _ (ih h)
  exact found s.links h

theorem mem_of_link {key : LinkKey} {link : Link} (h : s.link key = .ok link) :
    (key, link) ∈ s.links := by
  unfold Session.link at h
  split at h <;> cases h
  next found => exact mem_of_link? found

theorem sendPlan_eq_ok {endpoint : Endpoint} {destination : String} {body : Bytes}
    (h : s.sendPlan request = .ok (endpoint, destination, body)) :
    endpointOf request = .ok endpoint ∧ payloadBytes request = .ok body ∧
      ∃ link, (⟨.sender, endpoint⟩, link) ∈ s.links ∧ link.destination = destination := by
  simp only [Session.sendPlan, bind, Except.bind, pure, Except.pure] at h
  split at h
  · cases h
  · next named =>
    split at h
    · cases h
    · next link found =>
      split at h <;> cases h
      next given => exact ⟨named, given, link, mem_of_link found, rfl⟩

theorem receivePlan_eq_ok {endpoint : Endpoint} {destination : String} {wait : Wait}
    (h : s.receivePlan request = .ok (endpoint, destination, wait)) :
    endpointOf request = .ok endpoint ∧
      ∃ link, (⟨.receiver, endpoint⟩, link) ∈ s.links ∧ link.destination = destination := by
  simp only [Session.receivePlan, bind, Except.bind, pure, Except.pure] at h
  split at h
  · cases h
  · split at h
    · cases h
    · next named =>
      split at h
      · cases h
      · next link found =>
        split at h <;> cases h
        exact ⟨named, link, mem_of_link found, rfl⟩

end Plans

/-! ### Actions -/

/-- An action settles its requests, whatever is done to the backend meanwhile. -/
def Settles (space : String) (request : Request) (action : Action Session) : Prop :=
  ∀ (worker : String) (moment : Moment) (s : Session) (m : Memory), s.Bound space m →
    Dialog.Holds (fun last m result => Settled space request last m
      (finished moment request (responseOf worker result.1), result.2)) none m
      (action moment request s)

/-- The request asks for a connection to no other namespace. -/
def OnSpace (space : String) (request : Request) : Prop :=
  ∀ plan, connectPlan request = .ok plan → plan.url.space = space

namespace Session

variable {space : String} {request : Request}

theorem not_asks (other : request.action ≠ "CONN") (m : Memory) (endpoint : Endpoint)
    (destination : String) (asks : Asks request endpoint)
    (_ : endpoint.destination .receiver = .ok destination) :
    Memory.queueKey space destination ∈ m.keys := absurd asks.1 other

theorem hello_settles (named : request.action = "HELLO") : Settles space request hello := by
  intro worker moment s m bound
  have other : request.action ≠ "SEND" ∧ request.action ≠ "RECEIVE" := by
    rw [named]
    decide
  have unasked : request.action ≠ "CONN" := by
    rw [named]
    decide
  exact settled_other bound quiet_none other (not_asks unasked m) worker _

/-- What a receiver asks for is the queue of its plan. -/
theorem subscribed_of_plan {plan : ConnectPlan} (planned : connectPlan request = .ok plan)
    {m : Memory} (present : plan.key.direction = .receiver →
      Memory.queueKey space plan.link.destination ∈ m.keys)
    (endpoint : Endpoint) (destination : String) (asks : Asks request endpoint)
    (leads : endpoint.destination .receiver = .ok destination) :
    Memory.queueKey space destination ∈ m.keys := by
  obtain ⟨named, directed, planLeads⟩ := connectPlan_eq_ok planned
  obtain ⟨-, asked, asksFor⟩ := asks
  have direction : plan.key.direction = .receiver := Except.ok.inj (directed.symm.trans asked)
  have target : plan.key.endpoint = endpoint := Except.ok.inj (named.symm.trans asksFor)
  rw [direction, target, leads] at planLeads
  rw [Except.ok.inj planLeads]
  exact present direction

theorem Bound.addLink {m : Memory} {s : Session} (bound : s.Bound space m) {plan : ConnectPlan}
    (planned : connectPlan request = .ok plan)
    (present : plan.key.direction = .receiver →
      Memory.queueKey space plan.link.destination ∈ m.keys) :
    (s.addLink plan).2.Bound space m where
  connection := bound.connection
  links key link member := by
    rcases List.mem_append.mp member with old | new
    · exact bound.links key link old
    · cases List.mem_singleton.mp new
      exact (connectPlan_eq_ok planned).2.2
  queues key link member direction := by
    rcases List.mem_append.mp member with old | new
    · exact bound.queues key link old direction
    · cases List.mem_singleton.mp new
      exact present direction

theorem openLink_settles (named : request.action = "CONN") {plan : ConnectPlan}
    (planned : connectPlan request = .ok plan) (worker : String) (moment : Moment) {s : Session}
    {c : Connection} {m : Memory} (bound : s.Bound space m) (held : s.connection = some c)
    {last : Option Entry} (quiet : Quiet last) :
    Dialog.Holds (fun last m result => Settled space request last m
      (finished moment request (responseOf worker result.1), result.2)) last m
      (s.openLink c plan) := by
  have other : request.action ≠ "SEND" ∧ request.action ≠ "RECEIVE" := by
    rw [named]
    decide
  unfold openLink
  split
  · next sends =>
    have noQueue : plan.key.direction = .receiver →
        Memory.queueKey space plan.link.destination ∈ m.keys := by
      rw [sends]
      exact nofun
    exact settled_other (bound.addLink planned noQueue) quiet other
      (subscribed_of_plan planned noQueue) worker _
  · next receives =>
    refine ⟨quiet, ?_⟩
    intro now answer after grows answered
    have grown := Memory.grows_of_answer answered
    have bound := bound.grows (grows.trans grown)
    cases answer with
    | ok _ =>
      obtain ⟨address, leads, -, declared⟩ := Memory.declare_eq_ok answered
      have same := bound.connection c held
      rw [grown.addresses c address leads] at same
      cases same
      have present (_ : plan.key.direction = .receiver) :
          Memory.queueKey space plan.link.destination ∈ after.keys :=
        (declared _).mpr (Or.inl rfl)
      exact settled_other (bound.addLink planned present) ⟨rfl, rfl⟩ other
        (subscribed_of_plan planned present) worker _
    | error e => exact settled_error (bound.noting e) (quiet_of_error _ _ _ e) worker _

theorem connect_settles (named : request.action = "CONN") (on : OnSpace space request) :
    Settles space request connect := by
  intro worker moment s m bound
  have other : request.action ≠ "SEND" ∧ request.action ≠ "RECEIVE" := by
    rw [named]
    decide
  unfold connect
  split
  · exact settled_error bound quiet_none worker _
  · next plan planned =>
    dsimp only
    split
    · exact settled_error bound quiet_none worker _
    · split
      · next reused =>
        obtain ⟨link, found⟩ := Option.isSome_iff_exists.mp reused
        have member := mem_of_link? found
        have leads := bound.links _ _ member
        rw [(connectPlan_eq_ok planned).2.2] at leads
        have present (direction : plan.key.direction = .receiver) :
            Memory.queueKey space plan.link.destination ∈ m.keys := by
          rw [Except.ok.inj leads]
          exact bound.queues _ _ member direction
        exact settled_other bound quiet_none other (subscribed_of_plan planned present) worker _
      · split
        · next connection held =>
          exact openLink_settles named planned worker moment bound held quiet_none
        · refine ⟨quiet_none, ?_⟩
          intro now answer after grows answered
          have grown := Memory.grows_of_answer answered
          have bound := bound.grows (grows.trans grown)
          cases answer with
          | ok connection =>
            refine openLink_settles named planned worker moment ?_ rfl ⟨rfl, rfl⟩
            refine ⟨?_, bound.links, bound.queues⟩
            intro c held
            cases held
            rw [← on plan planned]
            exact Memory.connect_eq_ok answered
          | error e => exact settled_error (bound.noting e) (quiet_of_error _ _ _ e) worker _

theorem bound_freed (space : String) (m : Memory) (s : Session) :
    Bound space m { s with links := [], space := none, connection := none } where
  connection _ held := nomatch held
  links _ _ member := nomatch member
  queues _ _ member := nomatch member

theorem disconnect_settles (named : request.action = "DISC") :
    Settles space request disconnect := by
  intro worker moment s m bound
  have other : request.action ≠ "SEND" ∧ request.action ≠ "RECEIVE" := by
    rw [named]
    decide
  have unasked : request.action ≠ "CONN" := by
    rw [named]
    decide
  unfold disconnect
  split
  · exact settled_error bound quiet_none worker _
  · split
    · exact settled_error bound quiet_none worker _
    · dsimp only
      split
      · refine settled_other ?_ quiet_none other (not_asks unasked m) worker _
        exact {
          connection := bound.connection
          links := fun key link member => bound.links key link (List.mem_filter.mp member).1
          queues := fun key link member =>
            bound.queues key link (List.mem_filter.mp member).1 }
      · split
        · exact settled_other (bound_freed space m s) quiet_none other (not_asks unasked m) worker _
        · refine ⟨quiet_none, ?_⟩
          intro now answer after grows answered
          cases answer with
          | ok _ =>
            exact settled_other (bound_freed space after s) ⟨rfl, rfl⟩ other
              (not_asks unasked after) worker _
          | error e =>
            exact settled_error ((bound_freed space after s).noting e) (quiet_of_error _ _ _ e)
              worker _

theorem messageId?_of_metadata {r : Response} {id : String} {endpoint : Endpoint}
    (told : r.metadata = some (metadata id endpoint)) : messageId? r = some id := by
  rw [messageId?, told]
  rfl

theorem send_settles (named : request.action = "SEND") : Settles space request send := by
  intro worker moment s m bound
  have unasked : request.action ≠ "CONN" := by
    rw [named]
    decide
  unfold send
  split
  · exact settled_error bound quiet_none worker _
  · exact settled_error bound quiet_none worker _
  · next endpoint destination body connection plan held =>
    obtain ⟨asked, given, link, member, rfl⟩ := sendPlan_eq_ok plan
    obtain ⟨v, payload, rfl⟩ := exists_of_payloadBytes given
    refine ⟨quiet_none, ?_⟩
    intro now answer after grows answered
    have grown := Memory.grows_of_answer answered
    have leads := grows.addresses _ _ (bound.connection connection held)
    have bound := bound.grows (grows.trans grown)
    cases answer with
    | error e => exact settled_error (bound.noting e) (quiet_of_error _ _ _ e) worker _
    | ok id =>
      have account : account? request (finished moment request (responseOf worker
          (.ok ⟨none, request.payload, some (metadata id endpoint),
            some (Utf8.encode (sentText v)).length⟩))) =
          some (.sent endpoint id (sentText v)) := by
        rw [account?_finished, account?_of_send named asked rfl (messageId?_of_metadata rfl), payload]
        rfl
      constructor
      case bound => exact bound
      case accounted =>
        intro _ _
        rw [account]
        rfl
      case tallies =>
        rw [account]
        refine ⟨rfl, link.destination, bound.links _ _ member, ?_⟩
        simp [Entry.accepted?, Memory.keyOf?, leads]
      case subscribed => exact fun _ => not_asks unasked after

theorem receive_settles (named : request.action = "RECEIVE") :
    Settles space request receive := by
  intro worker moment s m bound
  have unasked : request.action ≠ "CONN" := by
    rw [named]
    decide
  unfold receive
  split
  · exact settled_error bound quiet_none worker _
  · exact settled_error bound quiet_none worker _
  · next endpoint destination wait connection plan held =>
    obtain ⟨asked, link, member, rfl⟩ := receivePlan_eq_ok plan
    refine ⟨quiet_none, ?_⟩
    intro now answer after grows answered
    have grown := Memory.grows_of_answer answered
    have leads := grows.addresses _ _ (bound.connection connection held)
    have bound := bound.grows (grows.trans grown)
    cases answer with
    | error e => exact settled_error (bound.noting e) (quiet_of_error _ _ _ e) worker _
    | ok message? =>
      cases message? with
      | none => exact settled_error bound ⟨rfl, rfl⟩ worker _
      | some message =>
        have account : account? request (finished moment request (responseOf worker
            (received endpoint (some message)))) =
            some (.received endpoint message.id (Utf8.lossy message.body)) := by
          rw [account?_finished]
          exact account?_of_receive named asked rfl (messageId?_of_metadata rfl) rfl
        constructor
        case bound => exact bound
        case accounted =>
          intro _ _
          rw [account]
          rfl
        case tallies =>
          rw [account]
          refine ⟨rfl, link.destination, message, bound.links _ _ member, ?_, rfl, rfl⟩
          simp [Entry.removed?, Memory.keyOf?, leads]
        case subscribed => exact fun _ => not_asks unasked after

/-- Every request is settled, also one for an action that there is not. -/
theorem handle_settles (on : OnSpace space request) (moment : Moment) {s : Session} {m : Memory}
    (bound : s.Bound space m) :
    Dialog.Holds (Settled space request) none m (Service.handle moment request s) := by
  have handle : Service.handle moment request s = respond actions s.worker moment request s := rfl
  rw [handle, respond]
  split
  · exact settled_failed bound quiet_none s.worker _
  · next action found =>
    rw [Dialog.holds_map]
    have member := ActionTable.mem_of_get?_ofList found
    simp only [List.mem_cons, List.not_mem_nil, or_false, Prod.mk.injEq] at member
    rcases member with ⟨named, rfl⟩ | ⟨named, rfl⟩ | ⟨named, rfl⟩ | ⟨named, rfl⟩ | ⟨named, rfl⟩
    · exact hello_settles named s.worker moment s m bound
    · exact connect_settles named on s.worker moment s m bound
    · exact disconnect_settles named s.worker moment s m bound
    · exact send_settles named s.worker moment s m bound
    · exact receive_settles named s.worker moment s m bound

end Session

end SessionRelay.ServiceBus
