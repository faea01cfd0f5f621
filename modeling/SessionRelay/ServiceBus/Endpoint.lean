import SessionRelay.Integration.Error
import SessionRelay.Text.Blank
import SessionRelay.Text.Split

/-!
Endpoints of a service bus: queues, and topics with or without a subscription. `text` writes an
endpoint in its normal form.
-/

namespace SessionRelay.ServiceBus

open Integration

/-- Which way messages go on a link. -/
inductive Direction where
  | sender
  | receiver
  deriving DecidableEq, Repr

def Direction.text : Direction → String
  | .sender => "sender"
  | .receiver => "receiver"

inductive Endpoint where
  | queue (name : String)
  | topic (name : String) (subscription : Option String)
  deriving DecidableEq, Repr

namespace Endpoint

def text : Endpoint → String
  | .queue name => s!"queue:{name}"
  | .topic name (some subscription) => s!"topic:{name}, subscription:{subscription}"
  | .topic name none => s!"topic:{name}"

/-- The names that the parts of an endpoint have given so far. -/
structure Parts where
  queue : Option String
  topic : Option String
  subscription : Option String
  deriving DecidableEq, Repr

/-- Takes one part; a kind that comes again replaces the name. -/
def Parts.take (p : Parts) (part : List Char) : Except String Parts :=
  match Text.cut? [':'] part with
  | none => .error "expected <kind>:<name>"
  | some (kind, name) =>
    let name := String.ofList (Text.trimBlank name)
    if name.isEmpty then .error "empty name"
    else
      match String.ofList (Text.trimBlank kind) with
      | "queue" => .ok { p with queue := some name }
      | "topic" => .ok { p with topic := some name }
      | "subscription" => .ok { p with subscription := some name }
      | other => .error s!"unknown kind {other}"

def Parts.takeAll : Parts → List (List Char) → Except String Parts
  | p, [] => .ok p
  | p, part :: rest =>
    match p.take part with
    | .ok p => p.takeAll rest
    | .error reason => .error reason

/-- The endpoint that the parts name: a queue alone, or a topic and no queue. -/
def Parts.endpoint : Parts → Except String Endpoint
  | ⟨some queue, none, none⟩ => .ok (.queue queue)
  | ⟨none, some topic, subscription⟩ => .ok (.topic topic subscription)
  | _ => .error "expected queue:<name> or topic:<name>, subscription:<name>"

def check (raw : List Char) : Except String Endpoint :=
  match Parts.takeAll ⟨none, none, none⟩ (Text.pieces ',' raw) with
  | .ok p => p.endpoint
  | .error reason => .error reason

def parse (raw : String) : Except Error Endpoint :=
  match check raw.toList with
  | .ok e => .ok e
  | .error reason => .error (.invalidEndpoint raw reason)

/-- Where a link to the endpoint leads. A topic is received from through a subscription only. -/
def destination (e : Endpoint) (direction : Direction) : Except Error String :=
  match e, direction with
  | .queue name, _ => .ok name
  | .topic name _, .sender => .ok name
  | .topic name (some subscription), .receiver => .ok s!"{name}/subscriptions/{subscription}"
  | .topic name none, .receiver =>
    .error (.invalidEndpoint (text (.topic name none))
      "receiving from a topic needs a subscription")

end Endpoint

end SessionRelay.ServiceBus
