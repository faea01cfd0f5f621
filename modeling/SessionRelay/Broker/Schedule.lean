import SessionRelay.Broker.Daemon

/-!
A schedule for the broker: one fixed choice among the moves that can be made. Workers go first, then
reports before arrivals, and time passes only where nothing else can happen.
-/

namespace SessionRelay.Broker.Daemon

open Worker

variable {α : Type}

/-- Is a reader left whose connection is shut? -/
def orphan? (d : Daemon α) : Option Nat :=
  (d.readers.find? fun r => !r.isDone && (d.router.connection? r.client).isNone).map Reader.client

/-- Would a look around show the broker something new? -/
def hasNews (d : Daemon α) : Bool :=
  d.router.threads.any Thread.isFinished ||
  match d.deadline with
  | none => d.shutdownRequested
  | some deadline => d.router.inFlight == 0 || deadline ≤ d.now

section Running

variable [Integration.Service α]

/-- The next move that needs no time and nobody outside. -/
def next? (d : Daemon α) : Option Move :=
  match d.router.threads.find? fun t => (t.step? d.surroundings).isSome with
  | some t => some (.work t.identity)
  | none =>
    match d.stage with
    | .selecting =>
      match d.orphan?, d.reports, d.arrivals with
      | some client, _, _ => some (.read client .finished)
      | none, _ :: _, _ => some .takeReport
      | none, [], _ :: _ => some .takeArrival
      | none, [], [] => if d.hasNews then some .idle else none
    | .ended => none
    | _ => some .proceed

/-- Makes moves until none is left that needs no time, at most `fuel` of them. -/
def settle : Nat → Daemon α → Daemon α
  | 0, d => d
  | fuel + 1, d =>
    match d.next?.bind d.step? with
    | some d => settle fuel d
    | none => d

/-- The next time at which something happens by itself. -/
def wake? (d : Daemon α) : Option Nat :=
  let times := d.router.threads.filterMap Thread.deadline? ++ d.deadline.toList
  (times.filter fun time => d.now < time).min?

/-- Lets things and time go on until a condition holds or nothing more happens; `fuel` bounds the
moves and the waits. -/
def advance (goal : Daemon α → Bool) : Nat → Daemon α → Daemon α
  | 0, d => d
  | fuel + 1, d =>
    let d := d.settle (fuel + 1)
    if goal d then d
    else
      match d.wake? with
      | some time => advance goal fuel { d with now := time }
      | none => d

end Running

/-- The frames that were sent to a client, in order. -/
def sentTo (d : Daemon α) (client : Nat) : List Bytes :=
  d.router.journal.reverse.filterMap fun
    | .sent c frame => if c = client then some frame else none
    | _ => none

def isConnected (d : Daemon α) (client : Nat) : Bool := (d.router.connection? client).isSome

/-- What was logged, in order. -/
def entries (d : Daemon α) : List Logging.Entry :=
  d.router.journal.reverse.filterMap fun
    | .log e => some e
    | _ => none

end SessionRelay.Broker.Daemon
