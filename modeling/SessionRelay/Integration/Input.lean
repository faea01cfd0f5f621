import SessionRelay.Integration.Action

/-!
What actions take from a request: how long to wait for a message, and the payload as bytes.
-/

namespace SessionRelay.Integration

open Backend Wire

def second : Wait := 1000000000

/-- The longest wait, exclusive: `2 ^ 64` seconds. -/
def waitBound : Wait := second <<< 64

/-- Seconds as a wait, to the nearest nanosecond and a half to the even one. None below zero, from
the bound on, and for what is no number. -/
def waitOfSeconds? (seconds : Binary64) : Option Wait :=
  if !seconds.isFinite ∨ (seconds.isNegative ∧ !seconds.isZero) then none
  else
    let (num, den) := seconds.ratio
    let wait := Binary64.roundDiv (num * second) den
    if wait < waitBound then some wait else none

/-- The context's `message_wait` in seconds, or the default if there is none. -/
def messageWait (request : Request) (default : Wait) : Except Error Wait :=
  match request.context.get? "message_wait" with
  | none => .ok default
  | some .null => .ok default
  | some _ =>
    match request.context.number? "message_wait" with
    | none => .error (.invalidContext "message_wait" "must be a non-negative number of seconds")
    | some seconds =>
      match waitOfSeconds? seconds with
      | some wait => .ok wait
      | none =>
        .error (.invalidContext "message_wait"
          s!"{seconds.text} is not a non-negative number of seconds in range")

/-- A payload as it is sent: a string as it is, any other value as its compact text. -/
def payloadBytes (request : Request) : Except Error Bytes :=
  match request.payload with
  | none => .error .payloadRequired
  | some .null => .error .payloadRequired
  | some (.string s) => .ok (Utf8.encode s)
  | some v => .ok v.bytes

def ensureNoPayload (request : Request) : Except Error Unit :=
  match request.payload with
  | none => .ok ()
  | some .null => .ok ()
  | some _ => .error .payloadNotAllowed

def receivedPayload (body : Bytes) : Json.Value := .string (Utf8.lossy body)

end SessionRelay.Integration
