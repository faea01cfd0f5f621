import SessionRelay.Backend.Memory

/-!
The kinds of backends that a configuration can name.
-/

namespace SessionRelay.Backend

inductive Engine where
  | memory
  deriving DecidableEq, Repr

namespace Engine

/-- Reads the name of an engine, to the letter. -/
def read? (raw : String) : Option Engine :=
  if raw = "memory" then some .memory else none

def name : Engine → String
  | .memory => "memory"

/-- The backend of an engine at its start. Both families of integrations share it. -/
def start : Engine → Memory
  | .memory => .empty

end Engine

end SessionRelay.Backend
