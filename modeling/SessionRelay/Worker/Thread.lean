import SessionRelay.Backend.Rehearsal
import SessionRelay.Worker.Basic

/-!
A worker at work. It takes jobs from its inbox one after the other, reports each answer, and stops
when its integration can no longer be used; from then on it answers everything that it has stopped,
until its inbox is closed. `step?` is one step between two moments at which others may act.
-/

namespace SessionRelay.Worker

open Backend Integration Wire

/-- A request and the client that it came from. -/
structure Job where
  client : Nat
  request : Request
  deriving Repr, BEq

/-- What a worker reports. -/
inductive Event where
  | reply (worker : String) (client : Nat) (response : Response)
  | stopped (worker : String)
  deriving Repr, BEq

/-- A call to the backend that waits: the call, how to go on, and when the wait ends. -/
structure Pause (β : Type) where
  call : Call
  next : call.Answer → Dialog β
  deadline : Nat

/-- What a worker is about. `stopped` answers without the integration, and `closing` lets it go. An
end that is not clean is a crash; either way the jobs that it was given and did not answer are
lost. -/
inductive Phase (α : Type) where
  | starting (w : Worker α)
  | ready (w : Worker α)
  | busy (job : Job) (dialog : Dialog (Response × Worker α))
  | paused (job : Job) (pause : Pause (Response × Worker α))
  | stopped (w : Worker α)
  | closing (dialog : Dialog (Worker α))
  | ended (clean : Bool) (lost : List Job)

/-- A worker with its inbox, which may be closed to further jobs. -/
structure Thread (α : Type) where
  identity : String
  phase : Phase α
  inbox : List Job
  inboxOpen : Bool

/-- What the surroundings of a worker are at a step: the backend, the clock, and whether anybody
takes its reports. -/
structure Surroundings where
  backend : Rehearsal
  now : Nat
  moment : Moment
  listened : Bool

/-- What a step does. -/
structure Step (α : Type) where
  thread : Thread α
  backend : Rehearsal
  entries : List Logging.Entry
  events : List Event

namespace Thread

variable {α : Type}

def spawn (w : Worker α) : Thread α := ⟨w.identity, .starting w, [], true⟩

def isFinished (t : Thread α) : Bool :=
  match t.phase with
  | .ended _ _ => true
  | _ => false

def crashed (t : Thread α) : Bool :=
  match t.phase with
  | .ended clean _ => !clean
  | _ => false

/-- The jobs that the worker was given and has not answered, oldest first. -/
def unanswered (t : Thread α) : List Job :=
  match t.phase with
  | .busy job _ => job :: t.inbox
  | .paused job _ => job :: t.inbox
  | .ended _ lost => lost
  | _ => t.inbox

/-- Hands a job over; none if the worker has gone. -/
def dispatch? (t : Thread α) (job : Job) : Option (Thread α) :=
  if t.isFinished || !t.inboxOpen then none else some { t with inbox := t.inbox ++ [job] }

/-- Closes the inbox. The worker finishes what is in it. -/
def retire (t : Thread α) : Thread α := { t with inboxOpen := false }

/-- The end of the current wait, if the worker waits for a message. -/
def deadline? (t : Thread α) : Option Nat :=
  match t.phase with
  | .paused _ pause => some pause.deadline
  | _ => none

/-- The answer of a worker that has stopped. -/
def stoppedReply (identity : String) (job : Job) : Event :=
  .reply identity job.client
    ((Response.failed identity s!"worker {identity} has stopped").forRequest job.request.requestId)

def endWith (t : Thread α) (clean : Bool) : Thread α :=
  { t with phase := .ended clean t.unanswered, inbox := [] }

variable [Service α]

def leave (w : Worker α) : Phase α := .closing w.close

/-- The next call of a dialog under way, and how the worker goes on after it. -/
def callBackend (t : Thread α) (s : Surroundings) (job : Job) (c : Call)
    (next : c.Answer → Dialog (Response × Worker α)) : Step α :=
  match s.backend.begin c with
  | .answered answer backend => ⟨{ t with phase := .busy job (next answer) }, backend, [], []⟩
  | .waiting backend =>
    let wait :=
      match c with
      | .get _ _ wait => wait
      | _ => 0
    ⟨{ t with phase := .paused job ⟨c, next, s.now + wait⟩ }, backend, [], []⟩
  | .crashed backend => ⟨t.endWith false, backend, [], []⟩

/-- Reports an answer. If nobody listens, or the integration can no longer be used, the worker does
not take another job. -/
def report (t : Thread α) (s : Surroundings) (job : Job) (response : Response) (w : Worker α) :
    Step α :=
  if !s.listened then ⟨{ t with phase := leave w }, s.backend, [], []⟩
  else
    let reply := Event.reply t.identity job.client response
    if w.isUsable then ⟨{ t with phase := .ready w }, s.backend, [], [reply]⟩
    else
      ⟨{ t with phase := .stopped w }, s.backend,
        [entry .warn "Backend connection is no longer usable, stopping worker" t.identity []],
        [reply, .stopped t.identity]⟩

/-- One step; none while there is nothing to do. -/
def step? (t : Thread α) (s : Surroundings) : Option (Step α) :=
  match t.phase with
  | .starting w =>
    some ⟨{ t with phase := .ready w }, s.backend,
      [entry .debug "Worker started" t.identity []], []⟩
  | .ready w =>
    match t.inbox with
    | job :: inbox =>
      let received := entry .verbose "Handling request" t.identity
        [("action", job.request.action), ("request_id", job.request.requestId)]
      let (entries, dialog) := w.handle s.moment job.request
      some ⟨{ t with phase := .busy job dialog, inbox := inbox }, s.backend, received :: entries,
        []⟩
    | [] => if t.inboxOpen then none else some ⟨{ t with phase := leave w }, s.backend, [], []⟩
  | .busy job (.done (response, w)) => some (t.report s job response w)
  | .busy job (.ask c next) => some (t.callBackend s job c next)
  | .paused job pause =>
    match s.backend.resume? pause.call with
    | some (answer, backend) =>
      some ⟨{ t with phase := .busy job (pause.next answer) }, backend, [], []⟩
    | none =>
      if pause.deadline ≤ s.now then
        let (answer, backend) := s.backend.expire pause.call
        some ⟨{ t with phase := .busy job (pause.next answer) }, backend, [], []⟩
      else none
  | .stopped w =>
    match t.inbox with
    | job :: inbox =>
      if s.listened then
        some ⟨{ t with inbox := inbox }, s.backend, [], [stoppedReply t.identity job]⟩
      else some ⟨{ t with phase := leave w, inbox := inbox }, s.backend, [], []⟩
    | [] => if t.inboxOpen then none else some ⟨{ t with phase := leave w }, s.backend, [], []⟩
  | .closing (.done _) =>
    some ⟨t.endWith true, s.backend, [entry .debug "Worker stopped" t.identity []], []⟩
  | .closing (.ask c next) =>
    match s.backend.begin c with
    | .answered answer backend =>
      some ⟨{ t with phase := .closing (next answer) }, backend, [], []⟩
    | .waiting backend =>
      let (answer, backend) := backend.expire c
      some ⟨{ t with phase := .closing (next answer) }, backend, [], []⟩
    | .crashed backend => some ⟨t.endWith false, backend, [], []⟩
  | .ended _ _ => none

end Thread

end SessionRelay.Worker
