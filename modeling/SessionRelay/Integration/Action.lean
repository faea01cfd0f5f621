import SessionRelay.Backend.Dialog
import SessionRelay.Integration.Error
import SessionRelay.Wire.Envelope

/-!
Actions and how a request becomes a response. A session of any kind brings a table of actions by
name; `respond` looks the action up, runs it and wraps up what comes out.
-/

namespace SessionRelay.Integration

open Backend Wire

/-- What the clock shows while a request is handled: the time in milliseconds that a message is
stamped with, and the milliseconds that the handling takes. -/
structure Moment where
  timestamp : Int
  elapsed : Nat
  deriving DecidableEq, Repr, Inhabited

/-- What an action gives if it succeeds. -/
structure Outcome where
  message : Option String
  payload : Option Json.Value
  metadata : Option (KeyTable Json.Value)
  responseLength : Option Nat
  deriving Repr, BEq, Inhabited

namespace Outcome

def empty : Outcome := ⟨none, none, none, none⟩

/-- A message and nothing else. -/
def saying (message : String) : Outcome := { empty with message := some message }

end Outcome

/-- An action on a session: it may call the backend, and gives an outcome and the session after
it. -/
abbrev Action (σ : Type) := Moment → Request → σ → Dialog (Except Error Outcome × σ)

/-- Actions by name. -/
structure ActionTable (σ : Type) where
  actions : KeyTable (Action σ)

namespace ActionTable

variable {σ : Type}

def empty : ActionTable σ := ⟨[]⟩

/-- Adds an action. A name that is taken keeps its action, and the answer is false. -/
def register (t : ActionTable σ) (name : String) (action : Action σ) : Bool × ActionTable σ :=
  if KeyTable.has name t.actions then (false, t) else (true, ⟨KeyTable.put name action t.actions⟩)

def get? (t : ActionTable σ) (name : String) : Option (Action σ) := KeyTable.value? name t.actions

def names (t : ActionTable σ) : List String := KeyTable.names t.actions

/-- A table of actions; of two for a name the first counts. -/
def ofList (actions : List (String × Action σ)) : ActionTable σ :=
  actions.foldl (fun t (name, action) => (t.register name action).2) empty

end ActionTable

/-- What a worker says of an action that its integration does not have. -/
def unknownAction (action : String) : String :=
  s!"{action}: AsyncMessageError=\"{(Error.noImplementation action).message}\""

def responseOf (worker : String) : Except Error Outcome → Response
  | .ok outcome =>
    { Response.succeeded worker with
      message := outcome.message
      payload := outcome.payload
      metadata := outcome.metadata
      responseLength := outcome.responseLength }
  | .error e => Response.failed worker e.message

/-- Names the request that a response answers and the time that it took. -/
def finished (moment : Moment) (request : Request) (r : Response) : Response :=
  (r.forRequest request.requestId).withTime moment.elapsed

/-- Handles a request with the actions of a table. -/
def respond {σ : Type} (table : ActionTable σ) (worker : String) (moment : Moment)
    (request : Request) (s : σ) : Dialog (Response × σ) :=
  match table.get? request.action with
  | none =>
    .done (finished moment request (Response.failed worker (unknownAction request.action)), s)
  | some action =>
    (action moment request s).map fun (result, s) =>
      (finished moment request (responseOf worker result), s)

/-- What a worker can do with an integration that it owns. -/
class Service (α : Type) where
  handle : Moment → Request → α → Dialog (Response × α)
  close : α → Dialog α
  isUsable : α → Bool

end SessionRelay.Integration
