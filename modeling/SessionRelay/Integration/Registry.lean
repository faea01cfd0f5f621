import SessionRelay.Integration.Action

/-!
Kinds of integrations by the scheme of the addresses that they serve.
-/

namespace SessionRelay.Integration

/-- For each scheme, how to make an integration for a worker. -/
structure Registry (α : Type) where
  factories : KeyTable (String → α)

namespace Registry

variable {α : Type}

def empty : Registry α := ⟨[]⟩

/-- Adds a scheme. One that is taken keeps its factory, and the answer is false. -/
def register (r : Registry α) (scheme : String) (factory : String → α) : Bool × Registry α :=
  if KeyTable.has scheme r.factories then (false, r)
  else (true, ⟨KeyTable.put scheme factory r.factories⟩)

def supports (r : Registry α) (scheme : String) : Bool := KeyTable.has scheme r.factories

/-- Makes the integration of a scheme for a worker. -/
def create? (r : Registry α) (scheme worker : String) : Option α :=
  (KeyTable.value? scheme r.factories).map fun factory => factory worker

def schemes (r : Registry α) : List String := KeyTable.names r.factories

end Registry

end SessionRelay.Integration
