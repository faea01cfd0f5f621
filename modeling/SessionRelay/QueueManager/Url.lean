import SessionRelay.Integration.Error
import SessionRelay.Number.Integer
import SessionRelay.Text.Split

/-!
The address of a queue manager:
`mq[s]://[user@]host[:port]/...?QueueManager=...&Channel=...`.
-/

namespace SessionRelay.QueueManager

open Integration

structure Url where
  secure : Bool
  username : Option String
  host : String
  port : Nat
  queueManager : String
  channel : String
  deriving DecidableEq, Repr

def schemes : List String := ["mq", "mqs"]

def defaultPort : Nat := 1414

namespace Url

/-- Splits a user off an authority, at its last `@`; an empty user is none. -/
def splitUser (authority : List Char) : Option String × List Char :=
  match Text.cutLast? '@' authority with
  | some ([], rest) => (none, rest)
  | some (user, rest) => (some (String.ofList user), rest)
  | none => (none, authority)

/-- Splits a port off a host, at its last colon. None if what follows is no port. -/
def splitPort? (cs : List Char) : Option (List Char × Nat) :=
  match Text.cutLast? ':' cs with
  | some (host, port) =>
    match Integer.readNat? port with
    | some n => if n < 65536 then some (host, n) else none
    | none => none
  | none => some (cs, defaultPort)

/-- The text before the first `mark`, and what follows it; all and nothing if there is none. -/
def splitOrAll (mark : Char) (cs : List Char) : List Char × List Char :=
  (Text.cut? [mark] cs).getD (cs, [])

/-- What is wrong with an address. -/
def check (url : List Char) : Except String Url :=
  match Text.cut? [':', '/', '/'] url with
  | none => .error "missing scheme"
  | some (scheme, rest) =>
    if !schemes.contains (String.ofList scheme) then .error "scheme must be mq or mqs"
    else
      let (authority, tail) := splitOrAll '/' rest
      let (username, address) := splitUser authority
      match splitPort? address with
      | none => .error "port is not a number"
      | some (host, port) =>
        if host.isEmpty then .error "no host"
        else
          let pairs := Text.pieces '&' (splitOrAll '?' tail).2
          match Text.lastValue? "QueueManager" pairs, Text.lastValue? "Channel" pairs with
          | none, _ => .error "QueueManager must be in the query string"
          | _, none => .error "Channel must be in the query string"
          | some queueManager, some channel =>
            .ok ⟨String.ofList scheme = "mqs", username, String.ofList host, port, queueManager,
              channel⟩

def parse (url : String) : Except Error Url :=
  match check url.toList with
  | .ok u => .ok u
  | .error reason => .error (.invalidUrl url reason)

end Url

end SessionRelay.QueueManager
