import SessionRelay.Integration.Input
import SessionRelay.QueueManager.Url
import SessionRelay.Rfh2.Encoder
import SessionRelay.Wire.Frame

/-!
Sessions with a queue manager: at most one connection, and messages put to and got from its queues,
framed on request.
-/

namespace SessionRelay.QueueManager

open Integration Wire
open Backend hiding Error

/-- A session of a worker. `messageWait` is the wait of a `GET` that names none. -/
structure Session where
  worker : String
  connection : Option Connection
  messageWait : Wait
  maxPayload : Nat
  usable : Bool
  deriving DecidableEq, Repr

/-- Are messages put with a frame? -/
inductive Framing where
  | plain
  | rfh2
  deriving DecidableEq, Repr

def framing (request : Request) : Except Error Framing :=
  match request.context.text? "header_type" with
  | none => .ok .plain
  | some raw =>
    if raw.toList.map Char.toLower = ['r', 'f', 'h', '2'] then .ok .rfh2
    else .error (.invalidContext "header_type" s!"{raw} is not implemented")

def queueName (request : Request) : Except Error String :=
  match request.context.text? "endpoint" with
  | none => .error (.missingContext "endpoint")
  | some endpoint =>
    let invalid : Except Error String := .error (.invalidEndpoint endpoint "expected queue:<name>")
    match Text.cut? [':'] endpoint.toList with
    | some (kind, name) =>
      if String.ofList (Text.trimBlank kind) = "queue" ∧ Text.trimBlank name ≠ [] then
        .ok (String.ofList (Text.trimBlank name))
      else invalid
    | none => invalid

/-- A setting, if the context has it, as a property of the same name. -/
def optionalProperty (request : Request) (key : String) (properties : KeyTable String) :
    KeyTable String :=
  match request.context.text? key with
  | some value => KeyTable.put key value properties
  | none => properties

/-- What a secure connection needs beside the rest. -/
def secureProperties (request : Request) (properties : KeyTable String) :
    Except Error (KeyTable String) :=
  match request.context.text? "key_file" with
  | none => .error (.missingContext "key_file")
  | some file =>
    .ok <| optionalProperty request "ssl_cipher" <| optionalProperty request "cert_label" <|
      KeyTable.put "key_file" file properties

/-- Where a request wants to connect, and its wait. A user of the context goes before one of the
address. -/
def connectPlan (request : Request) : Except Error (Target × Wait) := do
  let raw ← match request.context.url? with
    | some url => .ok url
    | none => .error (.missingContext "url")
  let url ← Url.parse raw
  let _ ← framing request
  let wait ← messageWait request 0
  let located := KeyTable.ofEntries
    [("host", url.host), ("port", Integer.natText url.port), ("channel", url.channel)]
  let named :=
    match (request.context.text? "username").orElse fun _ => url.username with
    | some user => KeyTable.put "username" user located
    | none => located
  let open_ := optionalProperty request "password" named
  let properties ← if url.secure then secureProperties request open_ else .ok open_
  return (⟨url.queueManager, properties⟩, wait)

namespace Session

def new (worker : String) (maxPayload : Nat) : Session := ⟨worker, none, 0, maxPayload, true⟩

/-- The session after a failed call: a broken connection makes it unusable. -/
def noting (s : Session) (e : Backend.Error) : Session :=
  if e.isFatal then { s with usable := false } else s

def connect : Action Session := fun _ request s =>
  match s.connection with
  | some _ => .done (.ok (.saying "re-used connection"), s)
  | none =>
    match connectPlan request with
    | .error e => .done (.error e, s)
    | .ok (target, wait) =>
      .ask (.connect target) fun
        | .ok connection =>
          .done (.ok (.saying "connected"),
            { s with connection := some connection, messageWait := wait })
        | .error e => .done (.error (.backend e), s.noting e)

/-- What a message is known by in responses. -/
def metadata (id queue : String) : KeyTable Json.Value :=
  [("message_id", .string id), ("queue", .string queue)]

/-- The queue and the body of the message that a request puts. -/
def putPlan (moment : Moment) (request : Request) : Except Error (String × Bytes) := do
  let payload ← payloadBytes request
  let queue ← queueName request
  match ← framing request with
  | .plain => return (queue, payload)
  | .rfh2 =>
    match Rfh2.Draft.new payload queue Rfh2.gzipEncoding moment.timestamp with
    | .ok draft => return (queue, draft.bytes)
    | .error e => .error (.framing e)

def put : Action Session := fun moment request s =>
  match s.connection with
  | none => .done (.error .notConnected, s)
  | some connection =>
    match putPlan moment request with
    | .error e => .done (.error e, s)
    | .ok (queue, body) =>
      .ask (.put connection queue body) fun
        | .ok id =>
          .done (.ok ⟨none, request.payload, some (metadata id queue), some body.length⟩, s)
        | .error e => .done (.error (.backend e), s.noting e)

/-- The queue that a request gets from, and how long it waits. -/
def getPlan (request : Request) (default : Wait) : Except Error (String × Wait) := do
  ensureNoPayload request
  let _ ← framing request
  let queue ← queueName request
  let wait ← Integration.messageWait request default
  return (queue, wait)

/-- What a stored message holds, without any frame. -/
def unframed (body : Bytes) (limit : Nat) : Except Error Bytes :=
  if Rfh2.isFramed body then
    match Rfh2.Message.decode body with
    | .error e => .error (.framing e)
    | .ok m =>
      match m.payload limit with
      | .error e => .error (.framing e)
      | .ok payload => .ok payload
  else .ok body

/-- The outcome of a `GET` with what the queue gave. -/
def received (queue : String) (limit : Nat) : Option Message → Except Error Outcome
  | none => .error (.noMessage s!"queue:{queue}")
  | some message =>
    match unframed message.body limit with
    | .error e => .error e
    | .ok payload =>
      .ok ⟨none, some (receivedPayload payload), some (metadata message.id queue),
        some message.body.length⟩

def get : Action Session := fun _ request s =>
  match s.connection with
  | none => .done (.error .notConnected, s)
  | some connection =>
    match getPlan request s.messageWait with
    | .error e => .done (.error e, s)
    | .ok (queue, wait) =>
      .ask (.get connection queue wait) fun
        | .ok message? => .done (received queue s.maxPayload message?, s)
        | .error e => .done (.error (.backend e), s.noting e)

/-- Gives up the connection, whether or not closing it succeeds. -/
def disconnect : Action Session := fun _ _ s =>
  match s.connection with
  | none => .done (.error .notConnected, s)
  | some connection =>
    let s := { s with connection := none }
    .ask (.close connection) fun
      | .ok () => .done (.ok (.saying "disconnected"), s)
      | .error e => .done (.error (.backend e), s.noting e)

def actions : ActionTable Session := .ofList [
  ("CONN", connect), ("PUT", put), ("SEND", put), ("GET", get), ("RECEIVE", get),
  ("DISC", disconnect)]

/-- Releases the connection when the worker stops. -/
def close (s : Session) : Dialog Session :=
  match s.connection with
  | none => .done s
  | some connection => .ask (.close connection) fun _ => .done { s with connection := none }

instance : Service Session where
  handle moment request s := respond actions s.worker moment request s
  close := close
  isUsable := usable

end Session

end SessionRelay.QueueManager
