import SessionRelay.Proofs.ServiceBus.Accounts
import SessionRelay.Proofs.Text.Utf8

/-!
Topics and their subscriptions. Handlers share a backend, each for its own requests, and take turns
in any way. Once a subscription has been asked for, it gets every message that is sent to its topic,
and gives them out in that order.
-/

namespace SessionRelay.ServiceBus

open Integration Wire
open Backend hiding Error

/-- A request that has been handled, and the response to it. -/
structure Record where
  request : Request
  response : Response

/-- A handler has nothing to do, or it waits for the answer to a call. -/
inductive Handler where
  | idle (s : Session)
  | busy (c : Call) (next : c.Answer → Dialog (List Record × Session))

/-- Handlers with one backend, and the requests that they have handled, oldest first. -/
structure Sharing where
  memory : Memory
  handlers : List Handler
  log : List Record

/-- What may happen next: a handler takes a request or is told to close, a call is made, a wait that
has not ended is over, or the backend changes for the worse or the better. -/
inductive Move where
  | begin (handler : Nat) (moment : Moment) (request : Request)
  | release (handler : Nat)
  | call (handler : Nat)
  | expire (handler : Nat)
  | sever
  | restore
  | refuse (address : String)

/-- The move brings no request for another namespace. -/
def Move.OnSpace (space : String) : Move → Prop
  | .begin _ _ request => ServiceBus.OnSpace space request
  | _ => True

namespace Sharing

/-- New handlers, one for each worker, with an empty backend. -/
def start (workers : List String) : Sharing :=
  ⟨.empty, workers.map fun worker => .idle (.new worker), []⟩

/-- A handler goes on with its dialog: it ends, or it waits for an answer. -/
def goOn (σ : Sharing) (handler : Nat) (memory : Memory) :
    Dialog (List Record × Session) → Sharing
  | .done (records, s) => ⟨memory, σ.handlers.set handler (.idle s), σ.log ++ records⟩
  | .ask c next => ⟨memory, σ.handlers.set handler (.busy c next), σ.log⟩

def handling (moment : Moment) (request : Request) (s : Session) :
    Dialog (List Record × Session) :=
  (Service.handle moment request s).map fun (response, s) => ([⟨request, response⟩], s)

def releasing (s : Session) : Dialog (List Record × Session) :=
  (Service.close s).map fun s => ([], s)

/-- One move; none if it is not possible now. -/
def step? (σ : Sharing) : Move → Option Sharing
  | .begin handler moment request =>
    match σ.handlers[handler]? with
    | some (.idle s) => some (σ.goOn handler σ.memory (handling moment request s))
    | _ => none
  | .release handler =>
    match σ.handlers[handler]? with
    | some (.idle s) => some (σ.goOn handler σ.memory (releasing s))
    | _ => none
  | .call handler =>
    match σ.handlers[handler]? with
    | some (.busy c next) =>
      match σ.memory.attempt c with
      | .answered answer memory => some (σ.goOn handler memory (next answer))
      | .waiting => some σ
    | _ => none
  | .expire handler =>
    match σ.handlers[handler]? with
    | some (.busy c next) =>
      let (answer, memory) := Memory.answer c σ.memory
      some (σ.goOn handler memory (next answer))
    | _ => none
  | .sever => some { σ with memory := σ.memory.sever }
  | .restore => some { σ with memory := σ.memory.restore }
  | .refuse address => some { σ with memory := σ.memory.refuse address }

def run? : Sharing → List Move → Option Sharing
  | σ, [] => some σ
  | σ, move :: moves => (σ.step? move).bind fun σ => σ.run? moves

/-- What waits at a destination, each message by its name and text. -/
def waiting (σ : Sharing) (space destination : String) : List (String × String) :=
  (σ.memory.messages (Memory.queueKey space destination)).map fun message =>
    (message.id, Utf8.lossy message.body)

end Sharing

/-- Where messages for the subscription of a topic wait. -/
def subscriptionPath (topic subscription : String) : String :=
  s!"{topic}/subscriptions/{subscription}"

/-- Is the endpoint the topic, with or without a subscription? -/
def Endpoint.isTopic (topic : String) : Endpoint → Bool
  | .topic name _ => name == topic
  | .queue _ => false

/-- The messages that were sent, by their endpoints, names and texts. -/
def sends (records : List Record) : List (Endpoint × String × String) :=
  records.filterMap fun record =>
    match account? record.request record.response with
    | some (.sent endpoint id text) => some (endpoint, id, text)
    | _ => none

/-- Is what is received from the endpoint what waits at the destination? -/
def Endpoint.drains (destination : String) (endpoint : Endpoint) : Bool :=
  (endpoint.destination .receiver).toOption == some destination

/-- The messages that were received from certain endpoints, by their names and texts. -/
def receipts (source : Endpoint → Bool) (records : List Record) : List (String × String) :=
  records.filterMap fun record =>
    match account? record.request record.response with
    | some (.received endpoint id text) => if source endpoint then some (id, text) else none
    | _ => none

/-- What has become of a subscription between two states, by the records of what was handled between
them: all that was sent to its topic has arrived there, and what has arrived was received or waits
behind what was there before. -/
structure Carried (space topic subscription : String) (before : Sharing) (records : List Record)
    (after : Sharing) : Prop where
  accounted : ∀ record ∈ records, record.response.success = true →
    record.request.action = "SEND" ∨ record.request.action = "RECEIVE" →
      (account? record.request record.response).isSome
  arrived : ∃ arrived : List (Endpoint × String × String), arrived.Sublist (sends records) ∧
    (arrived.filter fun sent => sent.1.isTopic topic) =
      ((sends records).filter fun sent => sent.1.isTopic topic) ∧
    receipts (Endpoint.drains (subscriptionPath topic subscription)) records ++
        after.waiting space (subscriptionPath topic subscription) =
      before.waiting space (subscriptionPath topic subscription) ++ arrived.map Prod.snd

section Carrying

variable {space topic subscription : String} {first second third : Sharing}
  {earlier later : List Record}

theorem carried_nil (same : second.waiting space (subscriptionPath topic subscription) =
    first.waiting space (subscriptionPath topic subscription)) :
    Carried space topic subscription first [] second where
  accounted _ member := nomatch member
  arrived := ⟨[], List.Sublist.refl _, rfl, by simp [receipts, same]⟩

theorem Carried.append (h : Carried space topic subscription first earlier second)
    (h' : Carried space topic subscription second later third) :
    Carried space topic subscription first (earlier ++ later) third where
  accounted record member := by
    rcases List.mem_append.mp member with old | new
    · exact h.accounted record old
    · exact h'.accounted record new
  arrived := by
    obtain ⟨arrived, inside, all, balance⟩ := h.arrived
    obtain ⟨arrived', inside', all', balance'⟩ := h'.arrived
    have split : sends (earlier ++ later) = sends earlier ++ sends later := List.filterMap_append
    refine ⟨arrived ++ arrived', ?_, ?_, ?_⟩
    · rw [split]
      exact inside.append inside'
    · rw [split, List.filter_append, List.filter_append, all, all']
    · let source := Endpoint.drains (subscriptionPath topic subscription)
      calc receipts source (earlier ++ later) ++
            third.waiting space (subscriptionPath topic subscription)
          = receipts source earlier ++ (receipts source later ++
              third.waiting space (subscriptionPath topic subscription)) := by
            rw [← List.append_assoc]
            exact congrArg (· ++ _) List.filterMap_append
        _ = (receipts source earlier ++
              second.waiting space (subscriptionPath topic subscription)) ++
                arrived'.map Prod.snd := by
            rw [balance', List.append_assoc]
        _ = first.waiting space (subscriptionPath topic subscription) ++
              (arrived ++ arrived').map Prod.snd := by
            rw [balance, List.append_assoc, List.map_append]

end Carrying

/-! ### One record and the queue of a subscription -/

theorem queueKey_inj {space one other : String} :
    Memory.queueKey space one = Memory.queueKey space other ↔ one = other := by
  constructor
  · intro same
    have same := congrArg String.toList same
    simp only [Memory.queueKey, toString, String.toList_append] at same
    exact String.toList_inj.mp (List.append_cancel_left same)
  · rintro rfl
    rfl

/-- What is sent to a topic reaches each of its subscriptions. -/
theorem reaches_subscription {m : Memory} {space topic subscription : String}
    (present : Memory.queueKey space (subscriptionPath topic subscription) ∈ m.keys) :
    m.Reaches (Memory.queueKey space topic)
      (Memory.queueKey space (subscriptionPath topic subscription)) := by
  refine Or.inl ⟨present, subscription.toList, ?_⟩
  simp [Memory.subscriptionKey, Memory.queueKey, subscriptionPath, toString, List.append_assoc]

/-- The last call, if there was one, led from one backend to the other. -/
def Leads (before : Memory) (last : Option Entry) (after : Memory) : Prop :=
  match last with
  | none => after = before
  | some e => e.before = before ∧ e.after = after ∧ e.Lawful

variable {before after : Memory} {last : Option Entry}

theorem Leads.still (leads : Leads before last after) (quiet : Quiet last) (queue : String) :
    after.messages queue = before.messages queue := by
  cases last with
  | none => rw [show after = before from leads]
  | some e =>
    obtain ⟨rfl, rfl, law⟩ := leads
    exact law.still quiet.1 quiet.2 queue

theorem Leads.accepted (leads : Leads before last after) {key : String} {message : Message}
    (accepted : last.bind Entry.accepted? = some (key, message)) (queue : String) :
    after.messages queue =
      before.messages queue ++ if before.Reaches key queue then [message] else [] := by
  cases last with
  | none => cases accepted
  | some e =>
    obtain ⟨rfl, rfl, law⟩ := leads
    exact law.accepted key message accepted queue

theorem Leads.removed (leads : Leads before last after) {key : String} {message : Message}
    (removed : last.bind Entry.removed? = some (key, message)) :
    before.messages key = message :: after.messages key ∧
      ∀ queue ≠ key, after.messages queue = before.messages queue := by
  cases last with
  | none => cases removed
  | some e =>
    obtain ⟨rfl, rfl, law⟩ := leads
    exact law.removed key message removed

/-- How a dialog of a handler ends: a request is settled, or there was none. -/
def Ends (space : String) (last : Option Entry) (m : Memory) (result : List Record × Session) :
    Prop :=
  (result.1 = [] ∧ Quiet last ∧ result.2.Bound space m) ∨
    ∃ record, result.1 = [record] ∧
      Settled space record.request last m (record.response, result.2)

theorem Ends.bound {space : String} {m : Memory} {result : List Record × Session}
    (ends : Ends space last m result) : result.2.Bound space m := by
  obtain ⟨-, -, bound⟩ | ⟨record, -, settled⟩ := ends
  · exact bound
  · exact settled.bound

/-- A record tells what has happened to the queue of a subscription, whoever else uses it. -/
theorem carried_of_ends {space topic subscription : String} {σ σ' : Sharing} {s : Session}
    {records : List Record} (leads : Leads σ.memory last σ'.memory)
    (present : Memory.queueKey space (subscriptionPath topic subscription) ∈ σ.memory.keys)
    (ends : Ends space last σ'.memory (records, s)) :
    Carried space topic subscription σ records σ' := by
  obtain ⟨rfl, quiet, -⟩ | ⟨record, rfl, settled⟩ := ends
  · refine carried_nil ?_
    rw [Sharing.waiting, leads.still quiet, Sharing.waiting]
  · refine ⟨?_, ?_⟩
    · intro other member
      cases List.mem_singleton.mp member
      exact settled.accounted
    · have tallies := settled.tallies
      cases account : account? record.request record.response with
      | none =>
        rw [account] at tallies
        refine ⟨[], List.nil_sublist _, ?_, ?_⟩
        · simp [sends, account]
        · simp [receipts, account, Sharing.waiting, leads.still tallies]
      | some told =>
        rw [account] at tallies
        cases told with
        | sent endpoint id text =>
          obtain ⟨-, destination, toward, accepted⟩ := tallies
          have grown := leads.accepted accepted
            (Memory.queueKey space (subscriptionPath topic subscription))
          by_cases reaches : σ.memory.Reaches (Memory.queueKey space destination)
              (Memory.queueKey space (subscriptionPath topic subscription))
          · rw [if_pos reaches] at grown
            refine ⟨[(endpoint, id, text)], ?_, ?_, ?_⟩
            · simp [sends, account]
            · simp [sends, account]
            · simp [receipts, account, Sharing.waiting, grown, Utf8.lossy_encode]
          · rw [if_neg reaches, List.append_nil] at grown
            have elsewhere : endpoint.isTopic topic = false := by
              cases endpoint with
              | queue name => rfl
              | topic name other =>
                refine beq_eq_false_iff_ne.mpr ?_
                rintro rfl
                cases toward
                exact reaches (reaches_subscription present)
            refine ⟨[], List.nil_sublist _, ?_, ?_⟩
            · simp [sends, account, elsewhere]
            · simp [receipts, account, Sharing.waiting, grown]
        | received endpoint id text =>
          obtain ⟨-, destination, message, toward, removed, rfl, rfl⟩ := tallies
          obtain ⟨first, others⟩ := leads.removed removed
          refine ⟨[], List.nil_sublist _, by simp [sends, account], ?_⟩
          by_cases here : destination = subscriptionPath topic subscription
          · subst here
            simp [receipts, account, Endpoint.drains, toward, Except.toOption, Sharing.waiting,
              first]
          · have elsewhere := others (Memory.queueKey space (subscriptionPath topic subscription))
              fun same => here (queueKey_inj.mp same).symm
            simp [receipts, account, Endpoint.drains, toward, Except.toOption, Sharing.waiting,
              here, elsewhere]

/-! ### Steps and runs -/

/-- A handler's session is bound to the namespace, now or whenever its dialog ends. -/
def Handler.Sound (space : String) (m : Memory) : Handler → Prop
  | .idle s => s.Bound space m
  | .busy c next => Dialog.Holds (Ends space) none m (.ask c next)

/-- What holds after every run of handlers on one namespace. -/
structure Sharing.Sound (space : String) (σ : Sharing) : Prop where
  sorted : KeyTable.Ascending σ.memory.queues
  handlers : ∀ handler ∈ σ.handlers, handler.Sound space σ.memory
  subscribed : ∀ record ∈ σ.log, record.response.success = true → ∀ endpoint destination,
    Asks record.request endpoint → endpoint.destination .receiver = .ok destination →
      Memory.queueKey space destination ∈ σ.memory.keys

theorem Handler.Sound.grows {space : String} {m after : Memory} {handler : Handler}
    (sound : handler.Sound space m) (grows : m.Grows after) : handler.Sound space after := by
  cases handler with
  | idle s => exact Session.Bound.grows sound grows
  | busy c next => exact Dialog.Holds.wait sound grows

theorem holds_handling {space : String} {request : Request} (on : OnSpace space request)
    (moment : Moment) {s : Session} {m : Memory} (bound : s.Bound space m) :
    Dialog.Holds (Ends space) none m (Sharing.handling moment request s) := by
  rw [Sharing.handling, Dialog.holds_map]
  refine Dialog.Holds.imp ?_ (Session.handle_settles on moment bound)
  intro last m result settled
  exact Or.inr ⟨⟨request, result.1⟩, rfl, settled⟩

theorem holds_releasing (space : String) (s : Session) (m : Memory) :
    Dialog.Holds (Ends space) none m (Sharing.releasing s) := by
  have close : Service.close s = Session.close s := rfl
  rw [Sharing.releasing, Dialog.holds_map, close, Session.close]
  split
  · exact Or.inl ⟨rfl, quiet_none, Session.bound_freed space m s⟩
  · refine ⟨quiet_none, ?_⟩
    intro now answer after grows answered
    exact Or.inl ⟨rfl, ⟨rfl, rfl⟩, Session.bound_freed space after s⟩

namespace Sharing

variable {space topic subscription : String} {σ σ' : Sharing}

/-- What a step does: the backend grows, and the log by what the records account for. -/
structure Steps (space topic subscription : String) (σ σ' : Sharing) : Prop where
  sound : σ'.Sound space
  grows : σ.memory.Grows σ'.memory
  carried : ∃ later, σ'.log = σ.log ++ later ∧
    (Memory.queueKey space (subscriptionPath topic subscription) ∈ σ.memory.keys →
      Carried space topic subscription σ later σ')

theorem steps_goOn (sound : σ.Sound space) {handler : Nat} {last : Option Entry} {m : Memory}
    (leads : Leads σ.memory last m) (grows : σ.memory.Grows m)
    (sorted : KeyTable.Ascending m.queues) {course : Dialog (List Record × Session)}
    (holds : Dialog.Holds (Ends space) last m course) :
    Steps space topic subscription σ (σ.goOn handler m course) := by
  have others (new : Handler) (fresh : new.Sound space m) :
      ∀ other ∈ σ.handlers.set handler new, other.Sound space m := by
    intro other member
    rcases List.mem_or_eq_of_mem_set member with old | rfl
    · exact (sound.handlers other old).grows grows
    · exact fresh
  have subscribed : ∀ record ∈ σ.log, record.response.success = true → ∀ endpoint destination,
      Asks record.request endpoint → endpoint.destination .receiver = .ok destination →
        Memory.queueKey space destination ∈ m.keys := by
    intro record member succeeded endpoint destination asks toward
    exact grows.keys _ (sound.subscribed record member succeeded endpoint destination asks toward)
  cases course with
  | done result =>
    obtain ⟨records, s⟩ := result
    have ends : Ends space last m (records, s) := holds
    refine ⟨⟨sorted, others _ ends.bound, ?_⟩, grows, records, rfl, ?_⟩
    · intro record member
      rcases List.mem_append.mp member with old | new
      · exact subscribed record old
      · obtain ⟨rfl, -, -⟩ | ⟨only, rfl, settled⟩ := ends
        · cases new
        · cases List.mem_singleton.mp new
          exact settled.subscribed
    · intro present
      exact carried_of_ends leads present ends
  | ask c next =>
    refine ⟨⟨sorted, others _ (holds.wait (Memory.Grows.refl m)), subscribed⟩, grows, [],
      (List.append_nil _).symm, ?_⟩
    intro _
    refine carried_nil ?_
    rw [waiting, goOn, leads.still holds.1, waiting]

theorem steps_answered (sound : σ.Sound space) {handler : Nat} {c : Call}
    {next : c.Answer → Dialog (List Record × Session)}
    (found : σ.handlers[handler]? = some (.busy c next)) {answer : c.Answer} {m : Memory}
    (answered : Memory.answer c σ.memory = (answer, m)) :
    Steps space topic subscription σ (σ.goOn handler m (next answer)) := by
  have holds : Dialog.Holds (Ends space) none σ.memory (.ask c next) :=
    sound.handlers _ (List.mem_of_getElem? found)
  have sorted := Memory.ascending_answer sound.sorted c
  rw [answered] at sorted
  have leads : Leads σ.memory (some ⟨σ.memory, .answered c answer, m⟩) m :=
    ⟨rfl, rfl, Memory.lawful_answered sound.sorted answered⟩
  exact steps_goOn sound leads (Memory.grows_of_answer answered) sorted
    (holds.2 _ _ _ (Memory.Grows.refl _) answered)

/-- Nothing but the backend changes, and of it nothing that the handlers rely on. -/
theorem steps_changed (sound : σ.Sound space) {m : Memory} (queues : m.queues = σ.memory.queues)
    (links : m.links = σ.memory.links) :
    Steps space topic subscription σ { σ with memory := m } := by
  have grows : σ.memory.Grows m := by
    constructor
    · intro c address found
      rw [Memory.addressOf?, links]
      exact found
    · intro queue present
      rw [Memory.keys, queues]
      exact present
  refine ⟨⟨?_, ?_, ?_⟩, grows, [], (List.append_nil _).symm, ?_⟩
  · rw [show ({ σ with memory := m } : Sharing).memory.queues = _ from queues]
    exact sound.sorted
  · intro handler member
    exact (sound.handlers handler member).grows grows
  · intro record member succeeded endpoint destination asks toward
    exact grows.keys _ (sound.subscribed record member succeeded endpoint destination asks toward)
  · intro _
    refine carried_nil ?_
    rw [waiting, waiting, Memory.messages, Memory.messages,
      show ({ σ with memory := m } : Sharing).memory.queues = _ from queues]

theorem steps_step (sound : σ.Sound space) {move : Move} (on : move.OnSpace space)
    (stepped : σ.step? move = some σ') : Steps space topic subscription σ σ' := by
  have still : Leads σ.memory none σ.memory := rfl
  have same := Memory.Grows.refl σ.memory
  cases move with
  | begin handler moment request =>
    simp only [step?] at stepped
    split at stepped <;> cases stepped
    next s found =>
      have bound : s.Bound space σ.memory := sound.handlers _ (List.mem_of_getElem? found)
      exact steps_goOn sound still same sound.sorted (holds_handling on moment bound)
  | release handler =>
    simp only [step?] at stepped
    split at stepped <;> cases stepped
    next s found =>
      exact steps_goOn sound still same sound.sorted (holds_releasing space s σ.memory)
  | call handler =>
    simp only [step?] at stepped
    split at stepped
    · next c next found =>
      split at stepped <;> cases stepped
      · next answer m attempted =>
        exact steps_answered sound found (Memory.attempt_eq_answered attempted)
      · exact steps_changed sound rfl rfl
    · cases stepped
  | expire handler =>
    simp only [step?] at stepped
    split at stepped <;> cases stepped
    next c next found => exact steps_answered sound found rfl
  | sever | restore | refuse _ =>
    cases stepped
    exact steps_changed sound rfl rfl

theorem steps_run {moves : List Move} (on : ∀ move ∈ moves, move.OnSpace space)
    (sound : σ.Sound space) (ran : σ.run? moves = some σ') :
    Steps space topic subscription σ σ' := by
  induction moves generalizing σ with
  | nil =>
    cases ran
    exact ⟨sound, Memory.Grows.refl _, [], (List.append_nil _).symm, fun _ => carried_nil rfl⟩
  | cons move moves ih =>
    obtain ⟨τ, stepped, ran⟩ := Option.bind_eq_some_iff.mp ran
    have first : Steps space topic subscription σ τ :=
      steps_step sound (on move List.mem_cons_self) stepped
    have rest := ih (fun other member => on other (List.mem_cons_of_mem _ member)) first.sound ran
    obtain ⟨earlier, log, carried⟩ := first.carried
    obtain ⟨later, log', carried'⟩ := rest.carried
    refine ⟨rest.sound, first.grows.trans rest.grows, earlier ++ later, ?_, ?_⟩
    · rw [log', log, List.append_assoc]
    · intro present
      exact (carried present).append (carried' (first.grows.keys _ present))

theorem sound_start (space : String) (workers : List String) : (start workers).Sound space where
  sorted := .nil
  handlers handler member := by
    obtain ⟨worker, -, rfl⟩ := List.mem_map.mp member
    exact Session.bound_new space worker .empty
  subscribed _ member := nomatch member

end Sharing

/-- Once a receiver for a subscription has been connected, whatever is sent to the topic arrives at
the subscription, in that order and once, and whatever has arrived there is received from it, in
that order and once, or waits. -/
theorem subscription_carries {space topic subscription : String} {workers : List String}
    {before after : List Move} (on : ∀ move ∈ before ++ after, move.OnSpace space)
    {σ σ' : Sharing} (first : (Sharing.start workers).run? before = some σ)
    (ending : σ.run? after = some σ') {record : Record} (handled : record ∈ σ.log)
    (asked : Asks record.request (.topic topic (some subscription)))
    (connected : record.response.success = true) :
    ∃ later, σ'.log = σ.log ++ later ∧ Carried space topic subscription σ later σ' := by
  have start := Sharing.sound_start space workers
  have reached : Sharing.Steps space topic subscription _ σ :=
    Sharing.steps_run (fun move member => on move (List.mem_append_left _ member)) start first
  have gone : Sharing.Steps space topic subscription σ σ' :=
    Sharing.steps_run (fun move member => on move (List.mem_append_right _ member)) reached.sound
      ending
  have present := reached.sound.subscribed record handled connected _ _ asked rfl
  obtain ⟨later, log, carried⟩ := gone.carried
  exact ⟨later, log, carried present⟩

def busUrl : String := "sb://ns/;SharedAccessKeyName=k;SharedAccessKey=v"

/-- A request to the namespace `ns`. -/
def busRequest (action endpoint direction : String) (payload : Option Json.Value) : Request :=
  ⟨action, "", none, ⟨[("connection", .string direction), ("endpoint", .string endpoint),
    ("url", .string busUrl)]⟩, payload⟩

theorem busRequest_onSpace (action endpoint direction : String) (payload : Option Json.Value) :
    OnSpace "ns" (busRequest action endpoint direction payload) := by
  intro plan planned
  obtain ⟨raw, given, parsed⟩ := url_of_connectPlan planned
  have same : raw = busUrl := (Option.some.inj given).symm
  have known : Url.parse busUrl = .ok ⟨"ns", "k", "v"⟩ := rfl
  rw [same, known] at parsed
  rw [← Except.ok.inj parsed]

/-- A handler connects a receiver for the subscription `s` of the topic `t`. -/
def subscribing : List Move := [
  .begin 0 ⟨0, 0⟩ (busRequest "CONN" "topic:t, subscription:s" "receiver" none), .call 0, .call 0]

/-- Another one sends a message to the topic, and the first one receives it. -/
def publishing : List Move := [
  .begin 1 ⟨0, 0⟩ (busRequest "CONN" "topic:t" "sender" none), .call 1,
  .begin 1 ⟨0, 0⟩ (busRequest "SEND" "topic:t" "sender" (some (.string "x"))), .call 1,
  .begin 0 ⟨0, 0⟩ (busRequest "RECEIVE" "topic:t, subscription:s" "receiver" none), .call 0]

theorem subscription_carries_one :
    ∃ σ σ', (Sharing.start ["one", "two"]).run? subscribing = some σ ∧
      σ.run? publishing = some σ' ∧
      ∃ later, σ'.log = σ.log ++ later ∧ Carried "ns" "t" "s" σ later σ' := by
  have on : ∀ move ∈ subscribing ++ publishing, move.OnSpace "ns" := by
    intro move member
    simp only [subscribing, publishing, List.cons_append, List.nil_append, List.mem_cons,
      List.not_mem_nil, or_false] at member
    rcases member with rfl | rfl | rfl | rfl | rfl | rfl | rfl | rfl | rfl
    all_goals first | exact busRequest_onSpace _ _ _ _ | trivial
  have first : (Sharing.start ["one", "two"]).run? subscribing = some _ := rfl
  exact ⟨_, _, first, rfl,
    subscription_carries on first rfl List.mem_cons_self ⟨rfl, rfl, rfl⟩ rfl⟩

/-- A third handler receives from a queue that is named as the path of the subscription. -/
def diverting : List Move := [
  .begin 1 ⟨0, 0⟩ (busRequest "CONN" "topic:t" "sender" none), .call 1,
  .begin 1 ⟨0, 0⟩ (busRequest "SEND" "topic:t" "sender" (some (.string "x"))), .call 1,
  .begin 2 ⟨0, 0⟩ (busRequest "CONN" "queue:t/subscriptions/s" "receiver" none), .call 2, .call 2,
  .begin 2 ⟨0, 0⟩ (busRequest "RECEIVE" "queue:t/subscriptions/s" "receiver" none), .call 2]

/-- What waits for a subscription can be received from a queue of the same path: then it is sent to
the topic, and neither comes out of the subscription nor waits there. -/
theorem queue_of_same_path_takes_message :
    ∃ σ σ' later id, (Sharing.start ["one", "two", "three"]).run? subscribing = some σ ∧
      (∃ record ∈ σ.log, Asks record.request (.topic "t" (some "s")) ∧
        record.response.success = true) ∧
      σ.run? diverting = some σ' ∧ σ'.log = σ.log ++ later ∧
      σ.waiting "ns" (subscriptionPath "t" "s") = [] ∧
      sends later = [(.topic "t" none, id, "x")] ∧
      receipts (fun endpoint => endpoint == .topic "t" (some "s")) later = [] ∧
      σ'.waiting "ns" (subscriptionPath "t" "s") = [] := by
  refine ⟨_, _, _, _, rfl, ⟨_, List.mem_cons_self, ⟨rfl, rfl, rfl⟩, rfl⟩, rfl, rfl, rfl, rfl, rfl,
    rfl⟩

end SessionRelay.ServiceBus
