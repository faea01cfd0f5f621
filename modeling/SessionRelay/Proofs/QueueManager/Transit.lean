import SessionRelay.Proofs.Backend.Queues
import SessionRelay.Proofs.Integration.Answers
import SessionRelay.Proofs.Rfh2.RoundTrip

/-!
A payload on its way through a queue. What is put through one session is got through another with
the same text, length and name. A reader goes by the bytes that it finds: a plain text that begins
as a frame does is taken for one, and a frame has to be one that can be read.
-/

namespace SessionRelay

namespace QueueManager

open Integration Wire
open Backend hiding Error

/-- A queue that holds nothing, and to which nothing subscribes. -/
structure Vacant (m : Memory) (key : String) : Prop where
  empty : m.messages key = []
  unsubscribed : ∀ other ∈ m.keys, ¬ (Memory.subscriptionKey key).toList <+: other.toList

/-- The frame of a payload that is compressed as `body`. -/
def frameOf (queue : String) (timestamp : Int) (body : Bytes) : Rfh2.Draft :=
  ⟨body, queue, Rfh2.gzipEncoding, timestamp⟩

/-- Can a reader read the frame? The name of the queue has to be of characters that a document may
hold, and the folders must not be longer than a header can tell. -/
structure Readable (d : Rfh2.Draft) : Prop where
  name : d.queue.toList.all Xml.isChar
  fits : Rfh2.headerLength + d.folders.length < 0x80000000

/-- What is put is not mistaken for something else. -/
def Distinct (queue : String) (timestamp : Int) (payload : Bytes) : Framing → Prop
  | .plain => Rfh2.isFramed payload = false
  | .rfh2 => Readable (frameOf queue timestamp (Gzip.compress payload))

/-- What lies in the queue for a payload. -/
def storedBody (queue : String) (timestamp : Int) (payload : Bytes) : Framing → Bytes
  | .plain => payload
  | .rfh2 => (frameOf queue timestamp (Gzip.compress payload)).bytes

namespace Session

theorem putPlan_eq {moment : Moment} {request : Request} {payload : Bytes} {queue : String}
    {f : Framing} (given : payloadBytes request = .ok payload)
    (named : queueName request = .ok queue) (asked : framing request = .ok f) :
    putPlan moment request = .ok (queue, storedBody queue moment.timestamp payload f) := by
  have made : Rfh2.Draft.new payload queue Rfh2.gzipEncoding moment.timestamp =
      .ok (frameOf queue moment.timestamp (Gzip.compress payload)) := rfl
  simp only [putPlan, given, named, asked, bind, Except.bind]
  cases f with
  | plain => rfl
  | rfh2 =>
    simp only [made]
    rfl

theorem unframed_frameOf {queue : String} {timestamp : Int} {body payload : Bytes}
    (readable : Readable (frameOf queue timestamp body)) (held : Gzip.Holds body payload)
    {limit : Nat} (room : payload.length ≤ limit) :
    unframed (frameOf queue timestamp body).bytes limit = .ok payload := by
  have framed : Rfh2.isFramed (frameOf queue timestamp body).bytes = true := by
    rw [Rfh2.Draft.bytes, List.append_assoc]
    exact Rfh2.Header.isFramed_bytes rfl rfl _
  have decoded := (frameOf queue timestamp body).decode_bytes ⟨readable.name, rfl⟩ readable.fits
  have content := (frameOf queue timestamp body).payload_message held limit
  rw [if_pos room] at content
  rw [unframed, if_pos framed, decoded]
  dsimp only
  rw [content]

theorem unframed_storedBody {queue : String} {timestamp : Int} {payload : Bytes} {f : Framing}
    (distinct : Distinct queue timestamp payload f) {limit : Nat}
    (room : payload.length ≤ limit) :
    unframed (storedBody queue timestamp payload f) limit = .ok payload := by
  cases f with
  | plain => rw [storedBody, unframed, distinct, if_neg Bool.false_ne_true]
  | rfh2 => exact unframed_frameOf distinct (Gzip.holds_compress payload) room

/-- The session's connection to an address is open. -/
def ConnectedTo (s : Session) (m : Memory) (address : String) : Prop :=
  ∃ c, s.connection = some c ∧ m.links[c.number]? = some ⟨address, true⟩

/-- A request handled at once, with the response and the backend after it. -/
def handled (s : Session) (moment : Moment) (request : Request) (m : Memory) : Response × Memory :=
  let (result, after) := (Service.handle moment request s).run Memory.answer m
  (result.1, after)

variable {s : Session} {m : Memory} {address : String} {request : Request}

theorem handled_put (connected : s.ConnectedTo m address) (whole : m.severed = false)
    (asks : request.action = "PUT" ∨ request.action = "SEND") {moment : Moment} {queue : String}
    {body : Bytes} (plan : putPlan moment request = .ok (queue, body)) :
    s.handled moment request m =
      (finished moment request (responseOf s.worker
        (.ok ⟨none, request.payload, some (metadata m.freshId queue), some body.length⟩)),
      (m.deliver (Memory.queueKey address queue) body).2) := by
  obtain ⟨c, held, found⟩ := connected
  have action : actions.get? request.action = some put := by
    rcases asks with named | named <;> rw [named] <;> rfl
  have call : m.put c queue body =
      (.ok m.freshId, (m.deliver (Memory.queueKey address queue) body).2) := by
    rw [Memory.put, Memory.usable_of_open found whole]
    rfl
  have handle : Service.handle moment request s = respond actions s.worker moment request s := rfl
  rw [handled, handle, respond, action]
  dsimp only
  rw [Dialog.run_map, put, held]
  dsimp only
  rw [plan]
  dsimp only [Dialog.run, Memory.answer]
  rw [call]
  rfl

theorem handled_get (connected : s.ConnectedTo m address) (whole : m.severed = false)
    (asks : request.action = "GET" ∨ request.action = "RECEIVE") {queue : String} {wait : Wait}
    (plan : getPlan request s.messageWait = .ok (queue, wait)) {message : Message}
    {rest : List Message}
    (waiting : m.messages (Memory.queueKey address queue) = message :: rest) (moment : Moment) :
    (s.handled moment request m).1 =
      finished moment request (responseOf s.worker
        (received queue s.maxPayload (some message))) := by
  obtain ⟨c, held, found⟩ := connected
  have action : actions.get? request.action = some get := by
    rcases asks with named | named <;> rw [named] <;> rfl
  have call : (m.poll c queue).1 = .ok (some message) := by
    rw [Memory.poll, Memory.usable_of_open found whole]
    dsimp only
    rw [Memory.pop?, waiting]
  have handle : Service.handle moment request s = respond actions s.worker moment request s := rfl
  rw [handled, handle, respond, action]
  dsimp only
  rw [Dialog.run_map, get, held]
  dsimp only
  rw [plan]
  dsimp only [Dialog.run, Memory.answer]
  rw [call]
  rfl

/-- A `GET` that can be made names the same queue as a `PUT` to the same endpoint. -/
theorem eq_of_getPlan {put get : Request} {queue : String} (named : queueName put = .ok queue)
    (same : get.context.text? "endpoint" = put.context.text? "endpoint") {default : Wait}
    {plan : String × Wait} (planned : getPlan get default = .ok plan) : plan.1 = queue := by
  have named : queueName get = .ok queue := by
    rw [← named, queueName, queueName, same]
  simp only [getPlan, named, bind, Except.bind, pure, Except.pure] at planned
  split at planned
  · cases planned
  · split at planned
    · cases planned
    · split at planned <;> cases planned
      rfl

end Session

/-- The responses to a `PUT` and a `GET` tell of one message, and the second brings its text. -/
structure Brings (text : String) (put get : Response) : Prop where
  putSucceeds : put.success = true
  getSucceeds : get.success = true
  payload : get.payload = some (.string text)
  length : ∃ n, put.responseLength = some n ∧ get.responseLength = some n
  name : ∃ id, put.metadata.bind (KeyTable.value? "message_id") = some (.string id) ∧
    get.metadata.bind (KeyTable.value? "message_id") = some (.string id)

open Session

section Transit

variable {m : Memory} {address queue : String} {sender receiver : Session} {put get : Request}
  {v : Json.Value} {f : Framing} {plan : String × Wait}

/-- What is delivered to a vacant queue is got from it by a session that is connected. -/
theorem get_deliver (receiving : receiver.ConnectedTo m address) (whole : m.severed = false)
    (vacant : Vacant m (Memory.queueKey address queue))
    (gets : get.action = "GET" ∨ get.action = "RECEIVE") {wait : Wait}
    (planned : getPlan get receiver.messageWait = .ok (queue, wait)) {stored : Bytes}
    {text : String} (read : unframed stored receiver.maxPayload = .ok (Utf8.encode text))
    (moment : Moment) :
    ∃ name, (receiver.handled moment get
      (m.deliver (Memory.queueKey address queue) stored).2).1 =
      { Response.succeeded receiver.worker with
        requestId := name
        responseTime := moment.elapsed
        payload := some (.string text)
        metadata := some (metadata m.freshId queue)
        responseLength := some stored.length } := by
  have alone := Memory.messages_deliver_self vacant.unsubscribed stored
  rw [vacant.empty, List.nil_append] at alone
  obtain ⟨queues, after⟩ := m.deliver_eq (Memory.queueKey address queue) stored
  rw [after] at alone ⊢
  have connected : receiver.ConnectedTo { m with queues, issued := m.issued + 1 } address :=
    receiving
  have brought : received queue receiver.maxPayload (some ⟨m.freshId, stored⟩) =
      .ok ⟨none, some (.string text), some (metadata m.freshId queue), some stored.length⟩ := by
    rw [received, read]
    dsimp only
    rw [receivedPayload, Utf8.lossy_encode]
  rw [handled_get connected whole gets planned alone, brought]
  exact finished_eq moment get _

/-- What is put through one session is got through another: whatever the payload, plain unless it
begins as a frame does, and framed unless the frame could not be read. Frames are read in this way
however their bodies are compressed. -/
theorem put_then_get (sending : sender.ConnectedTo m address)
    (receiving : receiver.ConnectedTo m address) (whole : m.severed = false)
    (vacant : Vacant m (Memory.queueKey address queue))
    (puts : put.action = "PUT" ∨ put.action = "SEND")
    (gets : get.action = "GET" ∨ get.action = "RECEIVE")
    (given : put.payload = some v) (value : v ≠ .null)
    (named : queueName put = .ok queue) (asked : framing put = .ok f)
    (same : get.context.text? "endpoint" = put.context.text? "endpoint")
    (planned : getPlan get receiver.messageWait = .ok plan)
    (room : (Utf8.encode (sentText v)).length ≤ receiver.maxPayload) (moment later : Moment)
    (distinct : Distinct queue moment.timestamp (Utf8.encode (sentText v)) f) :
    Brings (sentText v) (sender.handled moment put m).1
      (receiver.handled later get (sender.handled moment put m).2).1 ∧
    ∀ body, Gzip.Holds body (Utf8.encode (sentText v)) →
      Readable (frameOf queue moment.timestamp body) →
      let frame := (frameOf queue moment.timestamp body).bytes
      let got := (receiver.handled later get
        (m.deliver (Memory.queueKey address queue) frame).2).1
      got.success = true ∧ got.payload = some (.string (sentText v)) ∧
        got.responseLength = some frame.length := by
  obtain ⟨queue', wait⟩ := plan
  obtain rfl : queue' = queue := eq_of_getPlan named same planned
  constructor
  · have plan : putPlan moment put = .ok (queue', _) :=
      putPlan_eq (payloadBytes_eq given value) named asked
    have stored := handled_put sending whole puts plan
    obtain ⟨name, answered⟩ :=
      get_deliver receiving whole vacant gets planned (unframed_storedBody distinct room) later
    obtain ⟨name', sent⟩ := finished_eq moment put (responseOf sender.worker
      (.ok ⟨none, put.payload, some (metadata m.freshId queue'), some (storedBody queue'
        moment.timestamp (Utf8.encode (sentText v)) f).length⟩))
    rw [stored, sent, answered]
    exact {
      putSucceeds := rfl
      getSucceeds := rfl
      payload := rfl
      length := ⟨_, rfl, rfl⟩
      name := ⟨_, rfl, rfl⟩ }
  · intro body held readable
    obtain ⟨name, answered⟩ :=
      get_deliver receiving whole vacant gets planned (unframed_frameOf readable held room) later
    dsimp only
    rw [answered]
    exact ⟨rfl, rfl, rfl⟩

end Transit

/-- A backend to which two sessions are connected. -/
def sharedBackend : Memory := ⟨[], [], false, [⟨"QM1", true⟩, ⟨"QM1", true⟩], 0⟩

/-- A session by its connection. -/
def sessionOn (number : Nat) : Session := ⟨"w", some ⟨number⟩, 0, 8388608, true⟩

/-- A request about a queue. -/
def queueRequest (action queue : String) (payload : Option Json.Value)
    (settings : KeyTable Json.Value) : Request :=
  ⟨action, "", none, ⟨("endpoint", .string ("queue:" ++ queue)) :: settings⟩, payload⟩

theorem sharedBackend_vacant (key : String) : Vacant sharedBackend key :=
  ⟨rfl, fun _ present => nomatch present⟩

theorem framed_text_is_got :
    let put := queueRequest "SEND" "Q1" (some (.string "hi")) [("header_type", .string "RFH2")]
    let get := queueRequest "RECEIVE" "Q1" none []
    let (stored, after) := (sessionOn 0).handled ⟨1700000000000, 0⟩ put sharedBackend
    Brings "hi" stored ((sessionOn 1).handled ⟨0, 0⟩ get after).1 := by
  intro put get
  have sending : (sessionOn 0).ConnectedTo sharedBackend "QM1" := ⟨⟨0⟩, rfl, rfl⟩
  have receiving : (sessionOn 1).ConnectedTo sharedBackend "QM1" := ⟨⟨1⟩, rfl, rfl⟩
  have puts : put.action = "PUT" ∨ put.action = "SEND" := Or.inr rfl
  have gets : get.action = "GET" ∨ get.action = "RECEIVE" := Or.inr rfl
  have given : put.payload = some (.string "hi") := rfl
  have named : queueName put = .ok "Q1" := rfl
  have asked : framing put = .ok .rfh2 := rfl
  have same : get.context.text? "endpoint" = put.context.text? "endpoint" := rfl
  have planned : getPlan get (sessionOn 1).messageWait = .ok ("Q1", 0) := rfl
  have distinct : Distinct "Q1" (Moment.mk 1700000000000 0).timestamp
      (Utf8.encode (sentText (.string "hi"))) .rfh2 := ⟨rfl, by decide +kernel⟩
  have brings := put_then_get sending receiving rfl (sharedBackend_vacant _) puts gets given
    (by simp) named asked same planned (by decide) ⟨1700000000000, 0⟩ ⟨0, 0⟩ distinct
  exact brings.1

/-- What is put succeeds, and yet it is not got through another session, where nothing stands in the
way of either. -/
structure Lost (queue : String) (f : Framing) (put get : Request) : Prop where
  sending : (sessionOn 0).ConnectedTo sharedBackend "QM1"
  receiving : (sessionOn 1).ConnectedTo sharedBackend "QM1"
  whole : sharedBackend.severed = false
  vacant : Vacant sharedBackend (Memory.queueKey "QM1" queue)
  named : queueName put = .ok queue
  asked : framing put = .ok f
  planned : getPlan get (sessionOn 1).messageWait = .ok (queue, 0)
  putSucceeds : ((sessionOn 0).handled ⟨0, 0⟩ put sharedBackend).1.success = true
  getFails : ((sessionOn 1).handled ⟨0, 0⟩ get
    ((sessionOn 0).handled ⟨0, 0⟩ put sharedBackend).2).1.success = false

/-- A plain text that begins as a frame does is taken for one, and a frame that has a control
character in the name of its queue cannot be read. -/
theorem frame_like_text_and_odd_name_are_lost :
    Lost "Q1" .plain
        (queueRequest "PUT" "Q1" (some (.string "RFH \x02\x00\x00\x00")) [])
        (queueRequest "GET" "Q1" none []) ∧
      Lost "A\x01B" .rfh2
        (queueRequest "PUT" "A\x01B" (some (.string "hi")) [("header_type", .string "rfh2")])
        (queueRequest "GET" "A\x01B" none []) := by
  have sending : (sessionOn 0).ConnectedTo sharedBackend "QM1" := ⟨⟨0⟩, rfl, rfl⟩
  have receiving : (sessionOn 1).ConnectedTo sharedBackend "QM1" := ⟨⟨1⟩, rfl, rfl⟩
  constructor
  · exact ⟨sending, receiving, rfl, sharedBackend_vacant _, rfl, rfl, rfl, by decide +kernel,
      by decide +kernel⟩
  · exact ⟨sending, receiving, rfl, sharedBackend_vacant _, rfl, rfl, rfl, by decide +kernel,
      by decide +kernel⟩

end QueueManager

end SessionRelay
