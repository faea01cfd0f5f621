import SessionRelay.Worker.Thread

/-!
A worker by itself: what it reports stays until somebody takes it, and time passes only while the
worker waits for a message.
-/

namespace SessionRelay.Worker

open Backend Integration

/-- A worker with its backend and clock, the events that nobody has taken, whether anybody takes
them, and what it has logged. Messages are stamped with one time throughout. -/
structure Solo (α : Type) where
  thread : Thread α
  backend : Rehearsal
  moment : Moment
  now : Nat
  events : List Event
  listened : Bool
  entries : List Logging.Entry

namespace Solo

variable {α : Type}

def new (w : Worker α) (backend : Rehearsal) (moment : Moment) : Solo α :=
  ⟨.spawn w, backend, moment, 0, [], true, []⟩

/-- Nobody takes what the worker reports any more. -/
def deafen (s : Solo α) : Solo α := { s with listened := false, events := [] }

variable [Service α]

/-- Lets the worker go on as long as it can without waiting, for at most `fuel` steps. -/
def settle : Nat → Solo α → Solo α
  | 0, s => s
  | fuel + 1, s =>
    match s.thread.step? ⟨s.backend, s.now, s.moment, s.listened⟩ with
    | none => s
    | some step =>
      settle fuel { s with
        thread := step.thread
        backend := step.backend
        events := s.events ++ step.events
        entries := s.entries ++ step.entries }

/-- Lets the worker go on and time pass until a condition holds or nothing more happens. -/
def advance (goal : Solo α → Bool) : Nat → Solo α → Solo α
  | 0, s => s
  | fuel + 1, s =>
    let s := s.settle (fuel + 1)
    if goal s then s
    else
      match s.thread.deadline? with
      | some time => if s.now < time then advance goal fuel { s with now := time } else s
      | none => s

end Solo

end SessionRelay.Worker
