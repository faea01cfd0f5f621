import SessionRelay.Broker.Reader
import SessionRelay.Worker.Thread

/-!
The broker's tables: which worker serves which session, which jobs are not answered yet, and which
clients are connected. A request that names a worker goes to that worker; one that names none gets
a new worker. Every request that comes in is answered once: by its worker, or by the broker in its
place.
-/

namespace SessionRelay.Broker

open Wire Worker

/-- What the broker works by. `recruit n` is the identity of the worker that is hired after `n`
others, or why it cannot be had. Times are in milliseconds. -/
structure Setup (α : Type) where
  address : String
  codec : Codec
  registry : Integration.Registry α
  recruit : Nat → Except String String
  pollInterval : Nat
  drainTimeout : Nat

/-- What the broker does that others can see. `answered` is the decision on an answer, and `sent`
the frame that leaves for the client. -/
inductive Effect where
  | log (entry : Logging.Entry)
  | answered (client : Nat) (response : Response)
  | sent (client : Nat) (frame : Bytes)
  | closed (client : Nat)
  | joined (worker : String)
  deriving Repr, BEq

/-- A job that a worker was given and has not answered yet. -/
structure PendingJob where
  client : Nat
  requestId : String
  deriving DecidableEq, Repr

/-- A connected client, and why writing to it fails if it does. -/
structure Connection where
  client : Nat
  fault : Option String
  deriving DecidableEq, Repr

/-- The tables. Retired workers finish what they have and are then joined; the journal holds what
was done, newest first. -/
structure Router (α : Type) where
  setup : Setup α
  sessions : KeyTable (Thread α)
  retired : List (Thread α)
  pending : KeyTable (List PendingJob)
  draining : Bool
  recruited : Nat
  connections : List Connection
  journal : List Effect

/-- An entry of the broker, with details in the order of their names. -/
def entry (level : Logging.Level) (message : String) (details : List (String × Json.Value)) :
    Logging.Entry where
  level := level
  context := "broker"
  message := message
  payload := if details.isEmpty then none else some (.object details)

/-- What takes the place of a response that cannot be written. -/
def substitute (response : Response) (e : CodecError) : Response :=
  let reason :=
    match e with
    | .payloadTooLarge _ _ => s!"response too large: {e.message}"
    | _ => s!"failed to encode response: {e.message}"
  { Response.failed response.worker reason with
    requestId := response.requestId
    responseTime := response.responseTime }

namespace Router

variable {α : Type}

def new (setup : Setup α) : Router α := ⟨setup, [], [], [], false, 0, [], []⟩

/-- How many jobs are not answered yet. -/
def inFlight (r : Router α) : Nat := (r.pending.flatMap (·.2)).length

def note (r : Router α) (e : Effect) : Router α := { r with journal := e :: r.journal }

def log (r : Router α) (level : Logging.Level) (message : String)
    (details : List (String × Json.Value)) : Router α :=
  r.note (.log (entry level message details))

/-! ### Clients -/

def connection? (r : Router α) (client : Nat) : Option Connection :=
  r.connections.find? fun c => c.client == client

/-- Shuts the connection to a client, if there is one. -/
def disconnect (r : Router α) (client : Nat) : Router α :=
  if (r.connection? client).isSome then
    { r with connections := r.connections.filter fun c => c.client != client }.note (.closed client)
  else r

/-- Gives up a client that cannot be written to. -/
def giveUp (r : Router α) (client : Nat) (reason : String) : Router α :=
  (r.log .warn "Failed to write response"
    [("client_id", .nat client), ("error", .string reason)]).disconnect client

def send (r : Router α) (c : Connection) (frame : Bytes) : Router α :=
  match c.fault with
  | none => r.note (.sent c.client frame)
  | some reason => r.giveUp c.client reason

/-- Answers a client. A response that cannot be written is replaced by a failure, and if that cannot
be written either the client is given up. -/
def reply (r : Router α) (client : Nat) (response : Response) : Router α :=
  let r := r.note (.answered client response)
  match r.connection? client with
  | none =>
    r.log .debug "Dropping response for closed client"
      [("client_id", .nat client), ("worker", .string response.worker)]
  | some c =>
    match r.setup.codec.encode response.toValue with
    | .ok frame => r.send c frame
    | .error e =>
      let r := r.log .warn "Response could not be encoded, answering with failure"
        [("client_id", .nat client), ("error", .string e.message)]
      match r.setup.codec.encode (substitute response e).toValue with
      | .ok frame => r.send c frame
      | .error e => r.giveUp client e.message

/-! ### Sessions -/

/-- Ends a session: its worker gets no more jobs. -/
def retire (r : Router α) (identity : String) : Router α :=
  match KeyTable.value? identity r.sessions with
  | none => r
  | some thread =>
    { r with
      sessions := KeyTable.without identity r.sessions
      retired := r.retired ++ [thread.retire] }

/-- Hands a job to the worker of a session, if there is one that takes it. -/
def handOver? (r : Router α) (identity : String) (job : Job) : Option (Router α) :=
  match (KeyTable.value? identity r.sessions).bind (·.dispatch? job) with
  | none => none
  | some thread =>
    let waiting := (KeyTable.value? identity r.pending).getD []
    some { r with
      sessions := KeyTable.put identity thread r.sessions
      pending :=
        KeyTable.put identity (waiting ++ [⟨job.client, job.request.requestId⟩]) r.pending }

/-- Hands a job to a worker, or answers that the worker is not there. -/
def dispatch (r : Router α) (identity : String) (job : Job) : Router α :=
  match r.handOver? identity job with
  | some r => r
  | none =>
    let unavailable := Response.failed identity s!"worker {identity} is no longer available"
    (r.retire identity).reply job.client (unavailable.forRequest job.request.requestId)

/-- Hires a worker for a session that a client begins. -/
def hire (r : Router α) (client : Nat) (identity : String) : Router α :=
  let r := r.log .debug "Spawned worker for new session"
    [("client_id", .nat client), ("worker", .string identity)]
  let thread := Thread.spawn (Worker.new identity r.setup.registry)
  { r with sessions := KeyTable.put identity thread r.sessions }

/-- Finds the worker for a request. While the broker drains, no new worker is hired. -/
def route (r : Router α) (client : Nat) (request : Request) : Router α :=
  let refuse (r : Router α) (message : String) : Router α :=
    r.reply client ((Response.failed "" message).forRequest request.requestId)
  match request.worker with
  | some identity => r.dispatch identity ⟨client, request⟩
  | none =>
    if r.draining then refuse r "daemon is shutting down"
    else
      let recruit := r.setup.recruit r.recruited
      let r := { r with recruited := r.recruited + 1 }
      match recruit with
      | .error reason => refuse r s!"failed to spawn worker: {reason}"
      | .ok identity =>
        (r.hire client identity).dispatch identity ⟨client, request.withWorker identity⟩

/-! ### Events -/

def onArrival (r : Router α) : Arrival → Router α
  | .frame client payload =>
    match Codec.decodePayload Request.take payload with
    | .ok request => r.route client request
    | .error e => r.reply client (Response.failed "" s!"invalid request: {e.message}")
  | .malformed client reason =>
    (r.reply client (Response.failed "" s!"invalid request: {reason}")).disconnect client
  | .disconnected client =>
    (r.log .debug "Client disconnected" [("client_id", .nat client)]).disconnect client

/-- Strikes off the oldest job that a worker has not answered. -/
def strikeOff (r : Router α) (worker : String) : Router α :=
  match KeyTable.value? worker r.pending with
  | none => r
  | some (_ :: later :: rest) =>
    { r with pending := KeyTable.put worker (later :: rest) r.pending }
  | some _ => { r with pending := KeyTable.without worker r.pending }

def onReport (r : Router α) : Event → Router α
  | .reply worker client response => (r.strikeOff worker).reply client response
  | .stopped worker =>
    (r.log .info "Worker stopped, session removed" [("worker", .string worker)]).retire worker

/-- Answers every job that a worker will not answer any more. -/
def abandon (r : Router α) (identity : String) : Router α :=
  match KeyTable.value? identity r.pending with
  | none => r
  | some jobs =>
    let lost := Response.failed identity s!"worker {identity} stopped before answering"
    jobs.foldl (fun r job => r.reply job.client (lost.forRequest job.requestId))
      { r with pending := KeyTable.without identity r.pending }

/-- Ends the sessions whose workers have ended by themselves. -/
def retireFinished (r : Router α) : Router α :=
  ((r.sessions.filter fun s => s.2.isFinished).map Prod.fst).foldl retire r

def retireAll (r : Router α) : Router α := (KeyTable.names r.sessions).foldl retire r

/-- Takes leave of a worker that has ended. -/
def join (r : Router α) (thread : Thread α) : Router α :=
  let r := r.note (.joined thread.identity)
  if thread.crashed then
    r.log .error "Worker thread panicked" [("worker", .string thread.identity)]
  else r

/-- Takes leave of workers that have ended, and answers for each what it left behind. -/
def dismiss (r : Router α) (threads : List (Thread α)) : Router α :=
  threads.foldl (fun r thread => (r.join thread).abandon thread.identity) r

/-- Answers for all workers what they left behind. -/
def abandonAll (r : Router α) : Router α := (KeyTable.names r.pending).foldl abandon r

/-- Changes the worker of an identity, in a session or retired. -/
def adjust (r : Router α) (identity : String) (f : Thread α → Thread α) : Router α :=
  { r with
    sessions := KeyTable.adjust identity f r.sessions
    retired := r.retired.map fun t => if t.identity = identity then f t else t }

/-- The worker of an identity, in a session or retired. -/
def thread? (r : Router α) (identity : String) : Option (Thread α) :=
  (KeyTable.value? identity r.sessions).orElse fun _ =>
    r.retired.find? fun t => t.identity == identity

/-- All workers that have not been joined. -/
def threads (r : Router α) : List (Thread α) := r.sessions.map Prod.snd ++ r.retired

end Router

end SessionRelay.Broker
