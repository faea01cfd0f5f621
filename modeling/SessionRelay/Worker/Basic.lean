import SessionRelay.Integration.Registry
import SessionRelay.Logging

/-!
A worker: the owner of one integration, which it makes for the first request that passes its checks
and keeps for all later ones.
-/

namespace SessionRelay

open Backend Integration Wire

/-- A worker, with the registry from which it makes its integration. -/
structure Worker (α : Type) where
  identity : String
  registry : Registry α
  integration : Option α

namespace Worker

variable {α : Type}

def new (identity : String) (registry : Registry α) : Worker α := ⟨identity, registry, none⟩

/-- The part of the program that workers' log lines name. -/
def logContext : String := "worker"

/-- An entry about a worker, with further details by name. -/
def entry (level : Logging.Level) (message identity : String)
    (details : List (String × String)) : Logging.Entry where
  level := level
  context := logContext
  message := message
  payload :=
    let members := ("worker", identity) :: details
    some (.object (KeyTable.ofEntries (members.map fun (k, v) => (k, Json.Value.string v))))

/-- What a worker says of addresses that it has no integration for. -/
def unsupported (scheme : String) : String := s!"integration for {scheme}:// is not implemented"

/-- Checks a request and finds the integration that handles it: the request must be for this worker
and name an address whose scheme is known. A new integration is logged. -/
def accept (w : Worker α) (request : Request) : Except String (α × List Logging.Entry) :=
  let named := request.worker.getD ""
  if named ≠ w.identity then .error s!"got {named}, expected {w.identity}"
  else
    match request.context.url? with
    | none => .error "no url found in request context"
    | some url =>
      let scheme := Wire.scheme url
      if !w.registry.supports scheme then .error (unsupported scheme)
      else
        match w.integration with
        | some integration => .ok (integration, [])
        | none =>
          match w.registry.create? scheme w.identity with
          | some integration =>
            .ok (integration,
              [entry .debug "Integration created" w.identity [("scheme", scheme)]])
          | none => .error (unsupported scheme)

/-- The answer to a request that does not pass the checks. -/
def reject (w : Worker α) (moment : Moment) (request : Request) (message : String) : Response :=
  finished moment request (Response.failed w.identity message)

variable [Service α]

/-- Handles a request. The log entries come before all calls to the backend. -/
def handle (w : Worker α) (moment : Moment) (request : Request) :
    List Logging.Entry × Dialog (Response × Worker α) :=
  match w.accept request with
  | .error message => ([], .done (w.reject moment request message, w))
  | .ok (integration, entries) =>
    (entries, (Service.handle moment request integration).map fun (response, integration) =>
      (response, { w with integration := some integration }))

/-- May the worker go on? A worker without integration may. -/
def isUsable (w : Worker α) : Bool :=
  match w.integration with
  | some integration => Service.isUsable integration
  | none => true

/-- Closes the integration, if there is one, and lets it go. -/
def close (w : Worker α) : Dialog (Worker α) :=
  match w.integration with
  | some integration => (Service.close integration).map fun _ => { w with integration := none }
  | none => .done w

end Worker

end SessionRelay
