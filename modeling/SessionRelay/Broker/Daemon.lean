import SessionRelay.Broker.Router

/-!
The broker at work among its clients and workers. `step?` makes one move of one of them; any order
of moves is a run. The broker takes what it hears one piece at a time and after each looks whether
it should end and whether workers have.
-/

namespace SessionRelay.Broker

open Backend Worker

/-- Where the broker stands. While it collects, workers that have ended wait to be dismissed until
all reports so far are taken; to end, it waits for all workers, takes the last reports and answers
what is left. `count` is the number of sessions at the end, and `joined` are the workers that it has
waited for. -/
inductive Stage (α : Type) where
  | selecting
  | checking
  | reaping
  | collecting (finished : List (Thread α))
  | joining (count : Nat)
  | emptying (count : Nat) (joined : List (Thread α))
  | ended

/-- The broker with all that it works with. Arrivals and reports are the queues of what was heard of
clients and workers. Time is in nanoseconds, and `epoch` is the time in milliseconds that messages
are stamped with at its beginning. -/
structure Daemon (α : Type) where
  router : Router α
  stage : Stage α
  arrivals : List Arrival
  reports : List Event
  readers : List Reader
  accepted : Nat
  backend : Rehearsal
  epoch : Int
  now : Nat
  shutdownRequested : Bool
  deadline : Option Nat

/-- A move. `connect`, `read`, `lose`, `requestShutdown`, `pass`, `crash` and `change` come from
outside: a client connects, a read from it ends, writing to it begins to fail, the broker is asked
to end, time passes, a worker crashes, or the backend is changed. `work` is a step of a worker, and
all others are steps of the broker. -/
inductive Move where
  | connect (peer : String)
  | read (client : Nat) (chunk : Chunk)
  | lose (client : Nat) (reason : String)
  | requestShutdown
  | pass (now : Nat)
  | crash (worker : String)
  | change (f : Rehearsal → Rehearsal)
  | work (worker : String)
  | takeArrival
  | takeReport
  | idle
  | proceed

namespace Daemon

variable {α : Type}

/-- Nanoseconds in a millisecond. -/
def nanosPerMilli : Nat := 1000000

/-- The broker at its beginning. -/
def start (setup : Setup α) (backend : Rehearsal) (epoch : Int) : Daemon α where
  router := (Router.new setup).log .info "Broker listening"
    [("address", .string setup.address), ("poll_interval_ms", .nat setup.pollInterval)]
  stage := .selecting
  arrivals := []
  reports := []
  readers := []
  accepted := 0
  backend := backend
  epoch := epoch
  now := 0
  shutdownRequested := false
  deadline := none

def isClosing (d : Daemon α) : Bool :=
  match d.stage with
  | .joining _ => true
  | .emptying _ _ => true
  | .ended => true
  | _ => false

def hasEnded (d : Daemon α) : Bool :=
  match d.stage with
  | .ended => true
  | _ => false

def moment (d : Daemon α) : Integration.Moment :=
  ⟨d.epoch + (d.now / nanosPerMilli : Nat), 0⟩

/-- Takes a new client, the next in number. -/
def welcome (d : Daemon α) (peer : String) : Daemon α :=
  let client := d.accepted + 1
  let router := d.router.log .debug "Accepted client connection"
    [("client_id", .nat client), ("peer_addr", .string peer)]
  { d with
    router := { router with connections := router.connections ++ [⟨client, none⟩] }
    readers := d.readers ++ [.new client]
    accepted := client }

/-- Hears what a read from a client gives. -/
def hear (d : Daemon α) (client : Nat) (chunk : Chunk) : Daemon α :=
  let take (r : Reader) : Reader × List Arrival :=
    if r.client = client then r.take d.router.setup.codec chunk else (r, [])
  let heard := d.readers.map take
  { d with readers := heard.map Prod.fst, arrivals := d.arrivals ++ heard.flatMap Prod.snd }

/-- From now on writing to a client fails. -/
def lose (d : Daemon α) (client : Nat) (reason : String) : Daemon α :=
  let cut (c : Connection) : Connection :=
    if c.client = client then { c with fault := some reason } else c
  { d with router := { d.router with connections := d.router.connections.map cut } }

variable [Integration.Service α]

def surroundings (d : Daemon α) : Surroundings := ⟨d.backend, d.now, d.moment, !d.hasEnded⟩

/-- A step of a worker, if there is one for it. -/
def work? (d : Daemon α) (worker : String) : Option (Daemon α) :=
  match (d.router.thread? worker).bind (·.step? d.surroundings) with
  | none => none
  | some step =>
    let router := d.router.adjust worker fun _ => step.thread
    some { d with
      router := step.entries.foldl (fun r e => r.note (.log e)) router
      backend := step.backend
      reports := d.reports ++ step.events }

/-- Ends all sessions and begins to wait for their workers. -/
def beginEnd (d : Daemon α) : Daemon α :=
  { d with router := d.router.retireAll, stage := .joining d.router.sessions.length }

/-- Begins to drain if the broker has been asked to end. The time to drain runs from the moment at
which it notices. -/
def notice (d : Daemon α) : Daemon α :=
  if d.deadline.isNone && d.shutdownRequested then
    { d with
      router := { d.router with draining := true }.log .info
        "Shutdown requested, draining in-flight requests"
        [("in_flight", .nat d.router.inFlight), ("sessions", .nat d.router.sessions.length)]
      deadline := some (d.now + d.router.setup.drainTimeout * nanosPerMilli) }
  else d

/-- After each event: has the broker been asked to end, and if so, is it time to? -/
def check (d : Daemon α) : Daemon α :=
  let d := d.notice
  match d.deadline with
  | none => { d with stage := .reaping }
  | some deadline =>
    if d.router.inFlight = 0 then d.beginEnd
    else if deadline ≤ d.now then
      { d with
        router := d.router.log .warn "Drain timeout reached, abandoning in-flight requests"
          [("in_flight", .nat d.router.inFlight)] }.beginEnd
    else { d with stage := .reaping }

/-- Sets apart the workers that have ended. -/
def reap (d : Daemon α) : Daemon α :=
  let router := d.router.retireFinished
  let (finished, running) := router.retired.partition Thread.isFinished
  { d with
    router := { router with retired := running }
    stage := if finished.isEmpty then .selecting else .collecting finished }

/-- The end: what is left is answered, and all connections are shut. -/
def conclude (d : Daemon α) (count : Nat) : Daemon α :=
  let router := d.router.abandonAll.log .debug "Workers stopped" [("sessions", .nat count)]
  let router := (router.connections.map Connection.client).foldl Router.disconnect router
  { d with router := router.log .info "Broker stopped" [], stage := .ended }

/-- The next step of the broker where it does not choose what to take. -/
def proceed? (d : Daemon α) : Option (Daemon α) :=
  match d.stage with
  | .checking => some d.check
  | .reaping => some d.reap
  | .collecting finished =>
    match d.reports with
    | report :: reports => some { d with router := d.router.onReport report, reports := reports }
    | [] => some { d with router := d.router.dismiss finished, stage := .selecting }
  | .joining count =>
    if d.router.retired.all Thread.isFinished then
      some { d with
        router := d.router.retired.foldl Router.join { d.router with retired := [] }
        stage := .emptying count d.router.retired }
    else none
  | .emptying count _ =>
    match d.reports with
    | report :: reports => some { d with router := d.router.onReport report, reports := reports }
    | [] => some (d.conclude count)
  | _ => none

/-- One move; none where it cannot be made. -/
def step? (d : Daemon α) : Move → Option (Daemon α)
  | .connect peer => if d.isClosing then none else some (d.welcome peer)
  | .read client chunk => if d.isClosing then none else some (d.hear client chunk)
  | .lose client reason => some (d.lose client reason)
  | .requestShutdown => some { d with shutdownRequested := true }
  | .pass now => if d.now ≤ now then some { d with now := now } else none
  | .crash worker =>
    match d.router.thread? worker with
    | none => none
    | some thread =>
      if thread.isFinished then none
      else some { d with router := d.router.adjust worker (·.endWith false) }
  | .change f => some { d with backend := f d.backend }
  | .work worker => d.work? worker
  | .takeArrival =>
    match d.stage, d.arrivals with
    | .selecting, arrival :: arrivals =>
      some { d with router := d.router.onArrival arrival, arrivals := arrivals, stage := .checking }
    | _, _ => none
  | .takeReport =>
    match d.stage, d.reports with
    | .selecting, report :: reports =>
      some { d with router := d.router.onReport report, reports := reports, stage := .checking }
    | _, _ => none
  | .idle =>
    match d.stage, d.arrivals, d.reports with
    | .selecting, [], [] => some { d with stage := .checking }
    | _, _, _ => none
  | .proceed => d.proceed?

/-- A run: moves one after the other, each of which can be made. -/
def run? : List Move → Daemon α → Option (Daemon α)
  | [], d => some d
  | m :: rest, d => (d.step? m).bind (run? rest)

end Daemon

end SessionRelay.Broker
