import SessionRelay.Broker.Router
import SessionRelay.Integration.Family

/-!
The broker for both families of integrations.
-/

namespace SessionRelay.Broker

/-- A broker whose limit holds for frames and for the bodies that queue managers hand out. -/
def Setup.relay (address : String) (limit : Nat) (recruit : Nat → Except String String)
    (pollInterval drainTimeout : Nat) : Setup Integration.Family where
  address := address
  codec := ⟨limit⟩
  registry := Integration.Family.registry limit
  recruit := recruit
  pollInterval := pollInterval
  drainTimeout := drainTimeout

end SessionRelay.Broker
