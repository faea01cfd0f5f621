import SessionRelay.Integration.Input
import SessionRelay.ServiceBus.Endpoint
import SessionRelay.ServiceBus.Url

/-!
Sessions with a service bus: a connection to one namespace, shared by the links that the session has
opened, each for sending to or receiving from one endpoint. The last link that closes takes the
connection with it.
-/

namespace SessionRelay.ServiceBus

open Integration Wire
open Backend hiding Error

/-- What a link is known by. -/
structure LinkKey where
  direction : Direction
  endpoint : Endpoint
  deriving DecidableEq, Repr

/-- An open link: where it leads, and the wait of a `RECEIVE` that names none. -/
structure Link where
  destination : String
  messageWait : Wait
  deriving DecidableEq, Repr

structure Session where
  worker : String
  space : Option String
  connection : Option Connection
  links : List (LinkKey × Link)
  usable : Bool
  deriving DecidableEq, Repr

def endpointOf (request : Request) : Except Error Endpoint :=
  match request.context.text? "endpoint" with
  | none => .error (.missingContext "endpoint")
  | some raw => Endpoint.parse raw

def directionOf (request : Request) : Except Error Direction :=
  match request.context.text? "connection" with
  | none => .error (.missingContext "connection")
  | some "sender" => .ok .sender
  | some "receiver" => .ok .receiver
  | some other => .error (.invalidContext "connection" s!"{other} is neither sender nor receiver")

/-- What a `CONN` asks for. -/
structure ConnectPlan where
  raw : String
  url : Url
  key : LinkKey
  link : Link
  deriving DecidableEq, Repr

def connectPlan (request : Request) : Except Error ConnectPlan := do
  let raw ← match request.context.url? with
    | some url => .ok url
    | none => .error (.missingContext "url")
  let url ← Url.parse raw
  let endpoint ← endpointOf request
  let direction ← directionOf request
  let destination ← endpoint.destination direction
  let wait ← messageWait request 0
  return ⟨raw, url, ⟨direction, endpoint⟩, ⟨destination, wait⟩⟩

/-- The target of a connection to a namespace. -/
def Url.target (u : Url) : Target :=
  ⟨u.space, KeyTable.ofEntries [("key_name", u.keyName), ("key", u.key)]⟩

namespace Session

def new (worker : String) : Session := ⟨worker, none, none, [], true⟩

/-- The session after a failed call: a broken connection makes it unusable. -/
def noting (s : Session) (e : Backend.Error) : Session :=
  if e.isFatal then { s with usable := false } else s

def link? (s : Session) (key : LinkKey) : Option Link := s.links.lookup key

/-- The link of a key, which must be open. -/
def link (s : Session) (key : LinkKey) : Except Error Link :=
  match s.link? key with
  | some link => .ok link
  | none => .error (.linkNotConnected key.direction.text key.endpoint.text)

def hello : Action Session := fun _ _ s => .done (.ok (.saying "ready"), s)

/-- Enters a link. -/
def addLink (s : Session) (plan : ConnectPlan) : Except Error Outcome × Session :=
  (.ok (.saying s!"connected {plan.key.direction.text} to {plan.key.endpoint.text}"),
    { s with links := s.links ++ [(plan.key, plan.link)] })

/-- Opens a link on an open connection. What a receiver reads from must exist, so that it keeps what
is sent from now on. -/
def openLink (s : Session) (connection : Connection) (plan : ConnectPlan) :
    Dialog (Except Error Outcome × Session) :=
  match plan.key.direction with
  | .sender => .done (s.addLink plan)
  | .receiver =>
    .ask (.declare connection plan.link.destination) fun
      | .ok () => .done (s.addLink plan)
      | .error e => .done (.error (.backend e), s.noting e)

def connect : Action Session := fun _ request s =>
  match connectPlan request with
  | .error e => .done (.error e, s)
  | .ok plan =>
    let elsewhere := s.space.filter (· != plan.url.space)
    match elsewhere with
    | some bound => .done (.error (.invalidUrl plan.raw s!"already connected to {bound}"), s)
    | none =>
      if (s.link? plan.key).isSome then
        .done (.ok (.saying s!"re-used {plan.key.direction.text} link"), s)
      else
        match s.connection with
        | some connection => s.openLink connection plan
        | none =>
          .ask (.connect plan.url.target) fun
            | .ok connection =>
              openLink
                { s with connection := some connection, space := some plan.url.space }
                connection plan
            | .error e => .done (.error (.backend e), s.noting e)

/-- The link that a request names by endpoint and direction. -/
def keyOf (request : Request) : Except Error LinkKey := do
  let endpoint ← endpointOf request
  let direction ← directionOf request
  return ⟨direction, endpoint⟩

/-- Closes a link. Closing the last one gives up the connection, whether or not that succeeds. -/
def disconnect : Action Session := fun _ request s =>
  match keyOf request with
  | .error e => .done (.error e, s)
  | .ok key =>
    match s.link key with
    | .error e => .done (.error e, s)
    | .ok _ =>
      let outcome := Outcome.saying s!"disconnected {key.direction.text} from {key.endpoint.text}"
      let links := s.links.filter fun (k, _) => k != key
      if !links.isEmpty then .done (.ok outcome, { s with links := links })
      else
        let freed := { s with links := [], space := none, connection := none }
        match s.connection with
        | none => .done (.ok outcome, freed)
        | some connection =>
          .ask (.close connection) fun
            | .ok () => .done (.ok outcome, freed)
            | .error e => .done (.error (.backend e), freed.noting e)

/-- What a message is known by in responses. -/
def metadata (id : String) (endpoint : Endpoint) : KeyTable Json.Value :=
  [("endpoint", .string endpoint.text), ("message_id", .string id)]

/-- The endpoint, destination and body of what a request sends. -/
def sendPlan (s : Session) (request : Request) : Except Error (Endpoint × String × Bytes) := do
  let endpoint ← endpointOf request
  let link ← s.link ⟨.sender, endpoint⟩
  let body ← payloadBytes request
  return (endpoint, link.destination, body)

def send : Action Session := fun _ request s =>
  match s.sendPlan request, s.connection with
  | .error e, _ => .done (.error e, s)
  | .ok _, none => .done (.error .notConnected, s)
  | .ok (endpoint, destination, body), some connection =>
    .ask (.put connection destination body) fun
      | .ok id =>
        .done (.ok ⟨none, request.payload, some (metadata id endpoint), some body.length⟩, s)
      | .error e => .done (.error (.backend e), s.noting e)

/-- The endpoint and destination that a request receives from, and how long it waits. -/
def receivePlan (s : Session) (request : Request) : Except Error (Endpoint × String × Wait) := do
  ensureNoPayload request
  let endpoint ← endpointOf request
  let link ← s.link ⟨.receiver, endpoint⟩
  let wait ← messageWait request link.messageWait
  return (endpoint, link.destination, wait)

/-- The outcome of a `RECEIVE` with what the destination gave. -/
def received (endpoint : Endpoint) : Option Message → Except Error Outcome
  | none => .error (.noMessage endpoint.text)
  | some message =>
    .ok ⟨none, some (receivedPayload message.body), some (metadata message.id endpoint),
      some message.body.length⟩

def receive : Action Session := fun _ request s =>
  match s.receivePlan request, s.connection with
  | .error e, _ => .done (.error e, s)
  | .ok _, none => .done (.error .notConnected, s)
  | .ok (endpoint, destination, wait), some connection =>
    .ask (.get connection destination wait) fun
      | .ok message? => .done (received endpoint message?, s)
      | .error e => .done (.error (.backend e), s.noting e)

def actions : ActionTable Session := .ofList [
  ("HELLO", hello), ("CONN", connect), ("DISC", disconnect), ("SEND", send), ("RECEIVE", receive)]

/-- Releases the links and the connection when the worker stops. -/
def close (s : Session) : Dialog Session :=
  let freed := { s with links := [], space := none, connection := none }
  match s.connection with
  | none => .done freed
  | some connection => .ask (.close connection) fun _ => .done freed

instance : Service Session where
  handle moment request s := respond actions s.worker moment request s
  close := close
  isUsable := usable

end Session

end SessionRelay.ServiceBus
