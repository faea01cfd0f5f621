import SessionRelay.Broker.Error
import SessionRelay.Wire.Frame

/-!
What the broker hears of a client: the payloads of its frames one by one, a refused length if there
is one, and at last that it has gone. It depends on the bytes of the stream alone, not on how they
were cut into chunks.
-/

namespace SessionRelay.Broker

open Wire

/-- What the broker hears of a client. -/
inductive Arrival where
  | frame (client : Nat) (payload : Bytes)
  | malformed (client : Nat) (reason : String)
  | disconnected (client : Nat)
  deriving DecidableEq, Repr

/-- What a read gives. -/
inductive Chunk where
  | bytes (bytes : Bytes)
  | finished
  | failed (fault : ReadFault)
  deriving DecidableEq, Repr

/-- The reader of a client's stream; it is done after the end of the stream or a bad length. -/
structure Reader where
  client : Nat
  buffer : FrameBuffer
  isDone : Bool
  deriving DecidableEq, Repr

namespace Reader

def new (client : Nat) : Reader := ⟨client, .empty, false⟩

def finish (r : Reader) : Reader × List Arrival :=
  ({ r with isDone := true }, [.disconnected r.client])

def take (r : Reader) (codec : Codec) (chunk : Chunk) : Reader × List Arrival :=
  if r.isDone then (r, [])
  else
    match chunk with
    | .bytes [] => r.finish
    | .bytes bytes =>
      let drained := (r.buffer.push bytes).drain codec
      let frames := drained.payloads.map (Arrival.frame r.client)
      let r := { r with buffer := drained.left }
      match drained.refusal with
      | none => (r, frames)
      | some e =>
        let (r, last) := r.finish
        (r, frames ++ .malformed r.client e.message :: last)
    | .finished => r.finish
    | .failed fault => if fault.isTimeout then (r, []) else r.finish

end Reader

end SessionRelay.Broker
