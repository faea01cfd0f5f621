/-!
Why the broker cannot serve, and how reading from a client can fail.
-/

namespace SessionRelay.Broker

/-- Why the endpoint for clients cannot be had. -/
inductive EndpointError where
  | bind (address reason : String)
  | setNonBlocking (reason : String)
  | accept (reason : String)
  | configureStream (reason : String)
  | cloneStream (reason : String)
  deriving DecidableEq, Repr

def EndpointError.message : EndpointError → String
  | .bind address reason => s!"failed to bind client endpoint on {address}: {reason}"
  | .setNonBlocking reason => s!"failed to set client endpoint to non-blocking mode: {reason}"
  | .accept reason => s!"failed to accept client connection: {reason}"
  | .configureStream reason => s!"failed to configure accepted client stream: {reason}"
  | .cloneStream reason => s!"failed to clone client stream for full duplex IO: {reason}"

inductive Error where
  | endpoint (e : EndpointError)
  | localAddress (reason : String)
  | spawn (reason : String)
  | crashed
  deriving DecidableEq, Repr

def Error.message : Error → String
  | .endpoint e => e.message
  | .localAddress reason => s!"failed to read client endpoint address: {reason}"
  | .spawn reason => s!"failed to spawn broker thread: {reason}"
  | .crashed => "broker thread panicked"

/-- Why a read gives nothing. -/
inductive ReadFault where
  | wouldBlock
  | timedOut
  | interrupted
  | lost
  deriving DecidableEq, Repr

/-- Is there only nothing to read so far? -/
def ReadFault.isTimeout : ReadFault → Bool
  | .lost => false
  | _ => true

end SessionRelay.Broker
