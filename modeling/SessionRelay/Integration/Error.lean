import SessionRelay.Backend.Error
import SessionRelay.Rfh2.Error

/-!
Why an action of an integration fails.
-/

namespace SessionRelay.Integration

inductive Error where
  | noImplementation (action : String)
  | missingContext (key : String)
  | invalidContext (key reason : String)
  | invalidUrl (url reason : String)
  | invalidEndpoint (endpoint reason : String)
  | notConnected
  | linkNotConnected (link endpoint : String)
  | payloadRequired
  | payloadNotAllowed
  | noMessage (endpoint : String)
  | backend (e : Backend.Error)
  | framing (e : Rfh2.Error)
  deriving DecidableEq, Repr

namespace Error

/-- Must the session end? Only if its connection is broken. -/
def isFatal : Error → Bool
  | .backend e => e.isFatal
  | _ => false

def message : Error → String
  | .noImplementation action => s!"no implementation for {action}"
  | .missingContext key => s!"no {key} found in request context"
  | .invalidContext key reason => s!"invalid {key}: {reason}"
  | .invalidUrl url reason => s!"invalid url {url}: {reason}"
  | .invalidEndpoint endpoint reason => s!"invalid endpoint {endpoint}: {reason}"
  | .notConnected => "not connected"
  | .linkNotConnected link endpoint => s!"no {link} connected to {endpoint}"
  | .payloadRequired => "no payload"
  | .payloadNotAllowed => "payload not allowed"
  | .noMessage endpoint => s!"no message on {endpoint}"
  | .backend e => e.message
  | .framing e => e.message

end Error

end SessionRelay.Integration
