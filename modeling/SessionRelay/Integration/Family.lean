import SessionRelay.Integration.Registry
import SessionRelay.QueueManager.Session
import SessionRelay.ServiceBus.Session

/-!
The two families of integrations as one type, and the registry that makes them.
-/

namespace SessionRelay.Integration

open Backend

/-- A session of either family. -/
inductive Family where
  | queueManager (s : QueueManager.Session)
  | serviceBus (s : ServiceBus.Session)
  deriving DecidableEq, Repr

namespace Family

instance : Service Family where
  handle moment request
    | .queueManager s =>
      (Service.handle moment request s).map fun (r, s) => (r, .queueManager s)
    | .serviceBus s => (Service.handle moment request s).map fun (r, s) => (r, .serviceBus s)
  close
    | .queueManager s => (Service.close s).map .queueManager
    | .serviceBus s => (Service.close s).map .serviceBus
  isUsable
    | .queueManager s => Service.isUsable s
    | .serviceBus s => Service.isUsable s

/-- The factories of both families, by scheme. Bodies that queue managers hand out are held to
`maxPayload` bytes. -/
def factories (maxPayload : Nat) : List (String × (String → Family)) :=
  (QueueManager.schemes.map fun scheme =>
    (scheme, fun worker => .queueManager (.new worker maxPayload))) ++
  (ServiceBus.schemes.map fun scheme => (scheme, fun worker => .serviceBus (.new worker)))

def registry (maxPayload : Nat) : Registry Family :=
  (factories maxPayload).foldl (fun r (scheme, factory) => (r.register scheme factory).2) .empty

end Family

end SessionRelay.Integration
