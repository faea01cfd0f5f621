import SessionRelay.Client.Error

/-!
A client's side of a connection. It names each request afresh, passes over answers to requests that
it gave up on, and keeps to the worker that its first answer named. Time and the network come in as
a list of what each wait brings.
-/

namespace SessionRelay.Client

open Wire

/-- What a wait for bytes brings: bytes, the end of the stream, or the caller giving up. -/
inductive Arrival where
  | bytes (chunk : Bytes)
  | ended
  | cancelled
  deriving DecidableEq, Repr

/-- How a connection fails a call: the request cannot be written, or nothing more can be read once
what arrived is used. -/
inductive Breach where
  | writing (reason : String)
  | reading (reason : String)
  deriving DecidableEq, Repr

/-- A client: its codec, the bytes that it has not used, and the worker that it keeps to. -/
structure Session where
  codec : Codec
  frames : FrameBuffer
  worker : Option String
  deriving DecidableEq, Repr

/-- What a look at the buffered frames gives. -/
inductive Look where
  | answer (r : Response) (frames : FrameBuffer)
  | failed (e : CodecError) (frames : FrameBuffer)
  | waiting (frames : FrameBuffer)
  deriving Repr

/-- Does a response answer the request of this name? One without a name answers any. -/
def answers (requestId : String) (r : Response) : Bool :=
  match r.requestId with
  | some id => id == requestId
  | none => true

/-- Takes frames from the buffer up to the first that answers or cannot be read, and no more than
`count`. A frame that cannot be read is used up; a length that is refused stays. -/
def look (codec : Codec) (requestId : String) : Nat → FrameBuffer → Look
  | 0, frames => .waiting frames
  | count + 1, frames =>
    match frames.next codec with
    | .error e => .failed e frames
    | .ok none => .waiting frames
    | .ok (some (payload, frames)) =>
      match Codec.decodePayload Response.take payload with
      | .error e => .failed e frames
      | .ok r => if answers requestId r then .answer r frames else look codec requestId count frames

namespace Session

def new (codec : Codec) : Session := ⟨codec, .empty, none⟩

/-- The request as it is sent: named, and addressed to the session's worker unless it names one. -/
def address (s : Session) (request : Request) (requestId : String) : Request :=
  { request with
    requestId := requestId
    worker := request.worker.orElse fun _ => s.worker }

/-- Looks at the frames at hand. `none` means that bytes are needed. -/
def poll (s : Session) (requestId : String) : Option (Except Error Response) × Session :=
  match look s.codec requestId (s.frames.size + 1) s.frames with
  | .answer r frames => (some (.ok r), { s with frames := frames })
  | .failed e frames => (some (.error (.codec e)), { s with frames := frames })
  | .waiting frames => (none, { s with frames := frames })

/-- Waits for the answer, looking at the frames at hand before each wait. `none` means that it still
waits. What was not waited for is handed back; the end of the stream stays where it is. -/
def await (s : Session) (requestId : String) (arrivals : List Arrival) :
    Option (Except Error Response) × Session × List Arrival :=
  match s.poll requestId with
  | (some result, s) => (some result, s, arrivals)
  | (none, s) =>
    match arrivals with
    | [] => (none, s, [])
    | .bytes chunk :: rest => await { s with frames := s.frames.push chunk } requestId rest
    | .ended :: rest => (some (.error .noResponse), s, .ended :: rest)
    | .cancelled :: rest => (some (.ok (Response.aborted (s.worker.getD ""))), s, rest)
termination_by structural arrivals

/-- Keeps to the worker of the first answer that names one and does not say that the caller gave
up. -/
def settle (s : Session) (r : Response) : Session :=
  if s.worker.isNone && !r.worker.isEmpty && !r.isAbort then { s with worker := some r.worker }
  else s

/-- A whole call: sends the request under a fresh name, waits and classifies the answer. -/
def call (s : Session) (request : Request) (requestId : String) (arrivals : List Arrival) :
    Option (Except Error Response) × Session × List Arrival :=
  match s.codec.encode (s.address request requestId).toValue with
  | .error e => (some (.error (.codec e)), s, arrivals)
  | .ok _ =>
    match s.await requestId arrivals with
    | (some (.ok r), s, rest) => (some (classify r), s.settle r, rest)
    | other => other

/-- A call over a connection that may fail it. -/
def attempt (s : Session) (request : Request) (requestId : String) (arrivals : List Arrival) :
    Option Breach → Option (Except Error Response) × Session × List Arrival
  | none => s.call request requestId arrivals
  | some (.writing reason) =>
    match s.codec.encode (s.address request requestId).toValue with
    | .error e => (some (.error (.codec e)), s, arrivals)
    | .ok _ => (some (.error (.transport reason)), s, arrivals)
  | some (.reading reason) =>
    match s.call request requestId arrivals with
    | (none, s, rest) => (some (.error (.transport reason)), s, rest)
    | ended => ended

end Session

end SessionRelay.Client
