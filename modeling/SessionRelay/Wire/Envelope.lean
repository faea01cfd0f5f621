import SessionRelay.Json.Decode
import SessionRelay.Wire.Context

/-!
The two messages of the protocol: a request from a client and the response to it, with their JSON
forms.
-/

namespace SessionRelay.Wire

open Json

/-- What a client asks for. An empty `requestId` counts as none. -/
structure Request where
  action : String
  requestId : String
  worker : Option String
  context : Context
  payload : Option Value
  deriving Repr, BEq, Inhabited

/-- The answer to a request. -/
structure Response where
  success : Bool
  worker : String
  requestId : Option String
  message : Option String
  responseTime : Nat
  responseLength : Option Nat
  payload : Option Value
  metadata : Option (KeyTable Value)
  deriving Repr, BEq, Inhabited

/-- How many levels a value within an envelope may have. -/
def innerDepth : Nat := Value.maxDepth - 1

namespace Request

def new (action : String) (context : Context) : Request :=
  ⟨action, "", none, context, none⟩

def withWorker (r : Request) (worker : String) : Request := { r with worker := some worker }

def withPayload (r : Request) (payload : Value) : Request := { r with payload := some payload }

/-- Absent parts are left out, all others stand in a fixed order. -/
def toValue (r : Request) : Value :=
  .object <|
    [("action", .string r.action), ("request_id", .string r.requestId)] ++
    (r.worker.toList.map fun w => ("worker", .string w)) ++
    [("context", r.context.toValue)] ++
    (r.payload.toList.map fun p => ("payload", p))

def record : Record Request where
  title := "struct AsyncMessageRequest"
  blank := new "" .empty
  fields := [
    .ofTaking "action" true Taking.text fun r v => { r with action := v },
    .ofTaking "request_id" false Taking.text fun r v => { r with requestId := v },
    .ofTaking "worker" false (Taking.optional Taking.text) fun r v => { r with worker := v },
    .ofTaking "context" false (Taking.map innerDepth) fun r v => { r with context := ⟨v⟩ },
    .ofTaking "payload" false (Taking.optional (Taking.value innerDepth)) fun r v =>
      { r with payload := v }]

def take : Taking Request := record.take

end Request

/-- The message that says that the caller gave up. No backend produces it. -/
def abortMessage : String := "abort"

namespace Response

def succeeded (worker : String) : Response :=
  ⟨true, worker, none, none, 0, none, none, none⟩

def failed (worker message : String) : Response :=
  { succeeded worker with success := false, message := some message }

def aborted (worker : String) : Response := failed worker abortMessage

/-- Names the request that is answered, unless it has no name. -/
def forRequest (r : Response) (requestId : String) : Response :=
  if requestId.isEmpty then r else { r with requestId := some requestId }

def withTime (r : Response) (time : Nat) : Response := { r with responseTime := time }

def isAbort (r : Response) : Bool := !r.success && r.message == some abortMessage

def toValue (r : Response) : Value :=
  .object <|
    [("success", .bool r.success), ("worker", .string r.worker)] ++
    (r.requestId.toList.map fun id => ("request_id", .string id)) ++
    [("message", .ofOption (r.message.map .string)),
      ("response_time", .nat r.responseTime),
      ("response_length", .ofOption (r.responseLength.map .nat)),
      ("payload", .ofOption r.payload),
      ("metadata", .ofOption (r.metadata.map .object))]

def record : Record Response where
  title := "struct AsyncMessageResponse"
  blank := { succeeded "" with success := false }
  fields := [
    .ofTaking "success" true Taking.bool fun r v => { r with success := v },
    .ofTaking "worker" true Taking.text fun r v => { r with worker := v },
    .ofTaking "request_id" false (Taking.optional Taking.text) fun r v =>
      { r with requestId := v },
    .ofTaking "message" false (Taking.optional Taking.text) fun r v => { r with message := v },
    .ofTaking "response_time" false Taking.unsigned fun r v => { r with responseTime := v },
    .ofTaking "response_length" false (Taking.optional Taking.unsigned) fun r v =>
      { r with responseLength := v },
    .ofTaking "payload" false (Taking.optional (Taking.value innerDepth)) fun r v =>
      { r with payload := v },
    .ofTaking "metadata" false (Taking.optional (Taking.map innerDepth)) fun r v =>
      { r with metadata := v }]

def take : Taking Response := record.take

end Response

end SessionRelay.Wire
