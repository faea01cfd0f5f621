import SessionRelay.Wire.Envelope
import SessionRelay.Wire.Frame

/-!
What a call of a client ends with when it does not end well, and how a response is classified.
-/

namespace SessionRelay.Client

open Wire

/-- Why a call failed. `rejected` is the word of the backend, or of the daemon on its behalf;
`stopped` means that the caller gave up, so a scenario should stop and not fail. -/
inductive Error where
  | connect (address reason : String)
  | transport (reason : String)
  | codec (e : CodecError)
  | rejected (message : String)
  | stopped
  | noResponse
  deriving DecidableEq, Repr

def Error.message : Error → String
  | .connect address reason => s!"failed to connect to async-messaged at {address}: {reason}"
  | .transport reason => s!"transport error: {reason}"
  | .codec e => e.message
  | .rejected message => message
  | .stopped => "scenario stopped"
  | .noResponse => "no response from async-messaged"

def classify (r : Response) : Except Error Response :=
  if r.success then .ok r
  else if r.isAbort then .error .stopped
  else .error (.rejected (r.message.getD ""))

end SessionRelay.Client
