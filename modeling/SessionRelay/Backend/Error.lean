/-!
How a backend refuses. Only a broken connection cannot serve further requests.
-/

namespace SessionRelay.Backend

inductive Error where
  | refused (address reason : String)
  | broken (address : String)
  | closed
  | unknownDestination (destination : String)
  deriving DecidableEq, Repr

def Error.isFatal : Error → Bool
  | .broken _ => true
  | _ => false

def Error.message : Error → String
  | .refused address reason => s!"connection to {address} refused: {reason}"
  | .broken address => s!"connection to {address} is broken"
  | .closed => "connection is closed"
  | .unknownDestination destination => s!"destination {destination} does not exist"

end SessionRelay.Backend
