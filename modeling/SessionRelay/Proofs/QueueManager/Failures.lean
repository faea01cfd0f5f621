import SessionRelay.Proofs.Integration.Custody

/-!
What a failure leaves behind. A request that a session with a queue manager does not fulfil leaves
the session connected as it was, with the same wait, and the backend untouched. There is one way to
fail that costs something: a message whose frame cannot be read is gone from its queue when that is
found out.
-/

namespace SessionRelay.QueueManager

open Integration Wire
open Backend hiding Error

/-- What has come of a request: the response, and the session and the backend after it. -/
structure Settled where
  response : Response
  session : Session
  memory : Memory

namespace Session

/-- Handles a request. A call that waits for a message is the look at the queue that ends its
waiting; what others do meanwhile is done before it. -/
def settle (s : Session) (moment : Moment) (request : Request) (m : Memory) : Settled :=
  let (result, after) := (Service.handle moment request s).run Memory.answer m
  ⟨result.1, result.2, after⟩

/-- The course of a session over a backend in memory. In between requests others may do anything to
the backend but close the connection of the session. -/
inductive Lives (worker : String) (maxPayload : Nat) : Session → Memory → Prop where
  | new (m : Memory) : Lives worker maxPayload (.new worker maxPayload) m
  | others {s : Session} {m : Memory} (acts : List Act)
    (spares : ∀ c, s.connection = some c → ∀ act ∈ acts, act.Spares c) :
    Lives worker maxPayload s m → Lives worker maxPayload s (m.performAll acts)
  | settle {s : Session} {m : Memory} (moment : Moment) (request : Request) :
    Lives worker maxPayload s m → Lives worker maxPayload (s.settle moment request m).session
      (s.settle moment request m).memory

/-- The connection of the session, if it has one, is open. -/
def Stands (s : Session) (m : Memory) : Prop := ∀ c, s.connection = some c → m.IsOpen c

/-- A request asks for the first message of a queue, which has a frame that cannot be read. -/
structure Unreadable (s : Session) (request : Request) (m : Memory) (key : String)
    (message : Message) (e : Error) : Prop where
  asks : request.action = "GET" ∨ request.action = "RECEIVE"
  queue : ∃ c address queue wait, s.connection = some c ∧ m.addressOf? c = some address ∧
    getPlan request s.messageWait = .ok (queue, wait) ∧ key = Memory.queueKey address queue
  whole : m.severed = false
  first : ∃ rest, m.messages key = message :: rest
  framed : Rfh2.isFramed message.body = true
  unread : unframed message.body s.maxPayload = .error e

/-- An error leaves the session connected as it was, and the backend if all can be read. -/
structure Bears (s : Session) (request : Request) (m : Memory) (e : Error) (s' : Session)
    (after : Memory) : Prop where
  connection : s'.connection = s.connection
  messageWait : s'.messageWait = s.messageWait
  memory : after = m ∨ ∃ key message, s.Unreadable request m key message e

/-- What an action comes to when the connection of its session is open. -/
structure Careful (s : Session) (request : Request) (m : Memory)
    (result : (Except Error Outcome × Session) × Memory) : Prop where
  stands : result.1.2.Stands result.2
  bears : ∀ e, result.1.1 = .error e → s.Bears request m e result.1.2 result.2

variable {s : Session} {m : Memory} {request : Request} {moment : Moment}

theorem bears_self (s : Session) (request : Request) (m : Memory) (e : Error) :
    s.Bears request m e s m := ⟨rfl, rfl, Or.inl rfl⟩

theorem noting_messageWait (s : Session) (e : Backend.Error) :
    (s.noting e).messageWait = s.messageWait := by
  unfold noting
  split <;> rfl

theorem bears_noting (s : Session) (request : Request) (m : Memory) (e : Error)
    (why : Backend.Error) : s.Bears request m e (s.noting why) m :=
  ⟨noting_connection s why, noting_messageWait s why, Or.inl rfl⟩

theorem Stands.noting (stands : s.Stands m) (e : Backend.Error) : (s.noting e).Stands m := by
  intro c held
  exact stands c ((noting_connection s e).symm.trans held)

/-- An action that refuses a request does nothing. -/
theorem careful_refused (stands : s.Stands m) (e : Error) :
    Careful s request m ((.error e, s), m) :=
  ⟨stands, fun e _ => bears_self s request m e⟩

/-- A call that fails does nothing but make the session unusable. -/
theorem careful_failed (stands : s.Stands m) (e : Backend.Error) :
    Careful s request m ((.error (.backend e), s.noting e), m) :=
  ⟨stands.noting e, fun _ _ => bears_noting s request m _ e⟩

/-- An action that succeeds has only to leave the connection open. -/
theorem careful_ok {s' : Session} {after : Memory} (stands : s'.Stands after) (outcome : Outcome) :
    Careful s request m ((.ok outcome, s'), after) := by
  refine ⟨stands, ?_⟩
  rintro e ⟨⟩

theorem connect_careful (stands : s.Stands m) :
    Careful s request m ((connect moment request s).run Memory.answer m) := by
  unfold connect
  split
  · exact careful_ok stands _
  · split
    · exact careful_refused stands _
    · next target wait _ =>
      simp only [Dialog.run, Memory.answer]
      cases answered : m.connect target with
      | mk answer after =>
        cases answer with
        | error e =>
          cases Memory.connect_eq_error answered
          exact careful_failed stands e
        | ok c =>
          refine careful_ok ?_ _
          rintro _ ⟨⟩
          exact Memory.isOpen_of_connect answered

theorem put_careful (stands : s.Stands m) :
    Careful s request m ((put moment request s).run Memory.answer m) := by
  unfold put
  split
  · exact careful_refused stands _
  · next c held =>
    split
    · exact careful_refused stands _
    · next queue body _ =>
      simp only [Dialog.run]
      have isOpen : (Memory.answer (.put c queue body) m).2.IsOpen c :=
        (stands c held).answer (by rintro ⟨⟩)
      cases answered : Memory.answer (.put c queue body) m with
      | mk answer after =>
        cases answer with
        | error e =>
          cases Memory.answer_eq_error answered
          exact careful_failed stands e
        | ok id =>
          refine careful_ok ?_ _
          intro d same
          cases held.symm.trans same
          rwa [answered] at isOpen

/-- Only a framed message cannot be read. -/
theorem isFramed_of_unframed_error {body : Bytes} {limit : Nat} {e : Error}
    (unread : unframed body limit = .error e) : Rfh2.isFramed body = true := by
  cases framed : Rfh2.isFramed body with
  | true => rfl
  | false =>
    rw [unframed, framed, if_neg Bool.false_ne_true] at unread
    cases unread

/-- What a `GET` that found a message comes to. -/
theorem bears_received (asks : request.action = "GET" ∨ request.action = "RECEIVE")
    {c : Connection} (held : s.connection = some c) {queue : String} {wait : Wait}
    (plan : getPlan request s.messageWait = .ok (queue, wait)) {message : Message}
    {after : Memory} (found : m.poll c queue = (.ok (some message), after)) {e : Error}
    (failed : received queue s.maxPayload (some message) = .error e) :
    s.Bears request m e s after := by
  have unread : unframed message.body s.maxPayload = .error e := by
    unfold received at failed
    dsimp only at failed
    split at failed
    · next unread =>
      cases failed
      exact unread
    · cases failed
  obtain ⟨address, located, whole, popped⟩ := Memory.poll_eq_some found
  have first := (Memory.pop?_eq_some popped).1
  exact ⟨rfl, rfl, Or.inr ⟨_, message, asks, ⟨c, address, queue, wait, held, located, plan, rfl⟩,
    whole, ⟨_, first⟩, isFramed_of_unframed_error unread, unread⟩⟩

theorem get_careful (stands : s.Stands m)
    (asks : request.action = "GET" ∨ request.action = "RECEIVE") :
    Careful s request m ((get moment request s).run Memory.answer m) := by
  unfold get
  split
  · exact careful_refused stands _
  · next c held =>
    split
    · exact careful_refused stands _
    · next queue wait plan =>
      simp only [Dialog.run]
      have isOpen : (Memory.answer (.get c queue wait) m).2.IsOpen c :=
        (stands c held).answer (by rintro ⟨⟩)
      cases answered : Memory.answer (.get c queue wait) m with
      | mk answer after =>
        have still : s.Stands after := by
          intro d same
          cases held.symm.trans same
          rwa [answered] at isOpen
        cases answer with
        | error e =>
          cases Memory.answer_eq_error answered
          exact careful_failed stands e
        | ok message? =>
          refine ⟨still, fun e failed => ?_⟩
          cases message? with
          | none =>
            obtain ⟨-, -, -, -, rfl⟩ := Memory.poll_eq_none answered
            exact bears_self s request after e
          | some message => exact bears_received asks held plan answered failed

/-- Closing a connection that is open does not fail. -/
theorem disconnect_careful (stands : s.Stands m) :
    Careful s request m ((disconnect moment request s).run Memory.answer m) := by
  unfold disconnect
  split
  · exact careful_refused stands _
  · next c held =>
    obtain ⟨address, found⟩ := stands c held
    simp only [Dialog.run, Memory.answer, Memory.close, found, if_true]
    refine careful_ok ?_ _
    rintro c ⟨⟩

theorem actions_careful (stands : s.Stands m) (moment : Moment) {action : Action Session}
    (found : actions.get? request.action = some action) :
    Careful s request m ((action moment request s).run Memory.answer m) := by
  have member := ActionTable.mem_of_get?_ofList found
  simp only [List.mem_cons, List.not_mem_nil, or_false, Prod.mk.injEq] at member
  rcases member with ⟨-, rfl⟩ | ⟨-, rfl⟩ | ⟨-, rfl⟩ | ⟨named, rfl⟩ | ⟨named, rfl⟩ | ⟨-, rfl⟩
  · exact connect_careful stands
  · exact put_careful stands
  · exact put_careful stands
  · exact get_careful stands (Or.inl named)
  · exact get_careful stands (Or.inr named)
  · exact disconnect_careful stands

theorem settle_of_unknown (moment : Moment) (m : Memory)
    (unknown : actions.get? request.action = none) :
    s.settle moment request m =
      ⟨finished moment request (Response.failed s.worker (unknownAction request.action)),
        s, m⟩ := by
  have handle : Service.handle moment request s = respond actions s.worker moment request s := rfl
  rw [settle, handle, respond, unknown]
  rfl

theorem settle_of_action (moment : Moment) (m : Memory) {action : Action Session}
    (found : actions.get? request.action = some action) :
    s.settle moment request m =
      let result := (action moment request s).run Memory.answer m
      ⟨finished moment request (responseOf s.worker result.1.1), result.1.2, result.2⟩ := by
  have handle : Service.handle moment request s = respond actions s.worker moment request s := rfl
  rw [settle, handle, respond, found]
  dsimp only
  rw [Dialog.run_map]

/-- A `GET` on an open connection gives what the first message of its queue holds, and has taken
that message. -/
theorem settle_get (stands : s.Stands m) {c : Connection} (held : s.connection = some c)
    {address : String} (located : m.addressOf? c = some address) (whole : m.severed = false)
    (asks : request.action = "GET" ∨ request.action = "RECEIVE") {queue : String} {wait : Wait}
    (plan : getPlan request s.messageWait = .ok (queue, wait)) {message : Message}
    {rest : List Message} (first : m.messages (Memory.queueKey address queue) = message :: rest)
    (moment : Moment) :
    s.settle moment request m =
      ⟨finished moment request (responseOf s.worker
        (received queue s.maxPayload (some message))), s,
        { m with queues := KeyTable.put (Memory.queueKey address queue) rest m.queues }⟩ := by
  obtain ⟨address', found⟩ := stands c held
  have same : address' = address := by
    rw [Memory.addressOf?, found] at located
    exact Option.some.inj located
  have action : actions.get? request.action = some get := by
    rcases asks with named | named <;> rw [named] <;> rfl
  have call : m.poll c queue = (.ok (some message),
      { m with queues := KeyTable.put (Memory.queueKey address queue) rest m.queues }) := by
    rw [Memory.poll, Memory.usable_of_open (same ▸ found) whole]
    dsimp only
    rw [Memory.pop?, first]
  rw [settle_of_action moment m action, get, held]
  dsimp only
  rw [plan]
  dsimp only [Dialog.run, Memory.answer]
  rw [call]
  rfl

/-- A message is gone from its queue and nothing else has changed, and the response says why it
could not be read. -/
structure Spoils (m : Memory) (key : String) (message : Message) (e : Error) (after : Settled) :
    Prop where
  told : after.response.success = false ∧ after.response.message = some e.message
  taken : m.messages key = message :: after.memory.messages key
  others : ∀ other ≠ key, after.memory.messages other = m.messages other
  rest : after.memory = { m with queues := after.memory.queues }

theorem Unreadable.spoils {key : String} {message : Message} {e : Error}
    (unreadable : s.Unreadable request m key message e) (stands : s.Stands m) (moment : Moment) :
    Spoils m key message e (s.settle moment request m) := by
  obtain ⟨asks, ⟨c, address, queue, wait, held, located, plan, rfl⟩, whole, ⟨rest, first⟩, -,
    unread⟩ := unreadable
  have failed : received queue s.maxPayload (some message) = .error e := by
    rw [received, unread]
  obtain ⟨name, same⟩ := finished_eq moment request (responseOf s.worker (.error e))
  rw [settle_get stands held located whole asks plan first moment, failed, same]
  constructor
  case told => exact ⟨rfl, rfl⟩
  case taken => rw [first, Memory.messages_put_self]
  case others => exact fun other apart => Memory.messages_put_ne m apart rest
  case rest => rfl

/-- What a failure leaves as it was: the session connected or not, its wait, and all queues unless
a message could not be read. Then it costs that message. -/
structure Fails (s : Session) (request : Request) (m : Memory) (after : Settled) : Prop where
  connection : after.session.connection = s.connection
  messageWait : after.session.messageWait = s.messageWait
  memory : after.memory = m ∨ ∃ key message e, s.Unreadable request m key message e
  cost : ∀ key message e, s.Unreadable request m key message e → Spoils m key message e after

theorem stands_settle (stands : s.Stands m) (moment : Moment) (request : Request) :
    (s.settle moment request m).session.Stands (s.settle moment request m).memory := by
  cases found : actions.get? request.action with
  | none =>
    rw [settle_of_unknown moment m found]
    exact stands
  | some action =>
    rw [settle_of_action moment m found]
    exact (actions_careful stands moment found).stands

theorem fails_settle (stands : s.Stands m)
    (failed : (s.settle moment request m).response.success = false) :
    s.Fails request m (s.settle moment request m) := by
  have cost (key : String) (message : Message) (e : Error)
      (unreadable : s.Unreadable request m key message e) :
      Spoils m key message e (s.settle moment request m) := unreadable.spoils stands moment
  cases found : actions.get? request.action with
  | none =>
    rw [settle_of_unknown moment m found] at cost ⊢
    exact ⟨rfl, rfl, Or.inl rfl, cost⟩
  | some action =>
    rw [settle_of_action moment m found] at failed cost ⊢
    have bears := (actions_careful stands moment found).bears
    dsimp only at failed
    rw [finished_success, responseOf_success] at failed
    cases result : ((action moment request s).run Memory.answer m).1.1 with
    | ok outcome =>
      rw [result] at failed
      cases failed
    | error e =>
      obtain ⟨connection, messageWait, memory⟩ := bears e result
      exact ⟨connection, messageWait,
        memory.imp_right fun ⟨key, message, unreadable⟩ => ⟨key, message, e, unreadable⟩, cost⟩

/-- In the course of a session its connection stays open. -/
theorem Lives.stands {worker : String} {maxPayload : Nat} (lives : Lives worker maxPayload s m) :
    s.Stands m := by
  induction lives with
  | new m => rintro c ⟨⟩
  | others acts spares _ ih =>
    intro c held
    exact (ih c held).performAll (spares c held)
  | settle moment request _ ih => exact stands_settle ih moment request

/-- Whatever the course of a session, a request that it does not fulfil leaves it connected as it
was, and the backend too, unless a message could not be read. That one is gone, and no other. -/
theorem failure_costs_one_message {worker : String} {maxPayload : Nat}
    (lives : Lives worker maxPayload s m)
    (failed : (s.settle moment request m).response.success = false) :
    s.Fails request m (s.settle moment request m) :=
  fails_settle lives.stands failed

/-- A message that begins as a frame does and ends where its header should begin. -/
def stub : Message := ⟨"1", Utf8.encode "RFH \x02\x00\x00\x00"⟩

/-- What a session comes to that connects to a queue manager with such a message. -/
def onStub : Settled :=
  (Session.new "w" 8388608).settle ⟨0, 0⟩
    (.new "CONN" ⟨[("url", .string "mq://h:1/?QueueManager=QM1&Channel=C")]⟩)
    ⟨[("QM1::Q1", [stub])], [], false, [], 0⟩

def getStub : Request := .new "GET" ⟨[("endpoint", .string "queue:Q1")]⟩

theorem lives_onStub : Lives "w" 8388608 onStub.session onStub.memory := .settle _ _ (.new _)

theorem stub_unreadable :
    ∃ e, onStub.session.Unreadable getStub onStub.memory "QM1::Q1" stub e := by
  cases read : unframed stub.body onStub.session.maxPayload with
  | ok payload =>
    have refused : (unframed stub.body onStub.session.maxPayload).isOk = false := by
      decide +kernel
    rw [read] at refused
    cases refused
  | error e =>
    refine ⟨e, ?_⟩
    constructor
    case asks => exact Or.inl rfl
    case queue =>
      exact ⟨⟨0⟩, "QM1", "Q1", 0, by decide +kernel, by decide +kernel, rfl, by decide +kernel⟩
    case whole => decide +kernel
    case first => exact ⟨[], by decide +kernel⟩
    case framed => decide +kernel
    case unread => exact read

theorem get_stub_fails :
    (onStub.session.settle ⟨0, 0⟩ getStub onStub.memory).response.success = false ∧
    onStub.session.Fails getStub onStub.memory
      (onStub.session.settle ⟨0, 0⟩ getStub onStub.memory) ∧
    ∃ e, Spoils onStub.memory "QM1::Q1" stub e
      (onStub.session.settle ⟨0, 0⟩ getStub onStub.memory) := by
  have failed :
      (onStub.session.settle ⟨0, 0⟩ getStub onStub.memory).response.success = false := by
    decide +kernel
  have fails := failure_costs_one_message lives_onStub failed
  obtain ⟨e, unreadable⟩ := stub_unreadable
  exact ⟨failed, fails, e, fails.cost _ _ e unreadable⟩

/-- The queue held one message, and after the failure it is empty. -/
theorem get_stub_empties_queue :
    Lives "w" 8388608 onStub.session onStub.memory ∧
    (onStub.session.settle ⟨0, 0⟩ getStub onStub.memory).response.success = false ∧
    onStub.memory.messages "QM1::Q1" = [stub] ∧
    (onStub.session.settle ⟨0, 0⟩ getStub onStub.memory).memory.messages "QM1::Q1" = [] :=
  ⟨lives_onStub, by decide +kernel, by decide +kernel, by decide +kernel⟩

end Session

end SessionRelay.QueueManager
