import SessionRelay.Backend.Dialog
import SessionRelay.Text.Hex

/-!
A backend in memory: named queues, first in first out. A destination under which there are
subscriptions keeps nothing itself; what is put there goes to each of them.
-/

namespace SessionRelay.Backend

/-- A connection that was opened: where to, and whether it still is open. -/
structure Link where
  address : String
  isOpen : Bool
  deriving DecidableEq, Repr

/-- The queues by their keys, the addresses that refuse connections, whether the backend is cut off,
the connections in the order in which they were opened, and the count of messages so far. -/
structure Memory where
  queues : KeyTable (List Message)
  refused : List String
  severed : Bool
  links : List Link
  issued : Nat
  deriving DecidableEq, Repr

/-- How a backend takes a call: it answers, or the call waits for a message. -/
inductive Attempt (c : Call) (σ : Type) where
  | answered (answer : c.Answer) (backend : σ)
  | waiting

namespace Memory

def empty : Memory := ⟨[], [], false, [], 0⟩

def opened (m : Memory) : Nat := m.links.length

def queueKey (address destination : String) : String := s!"{address}::{destination}"

/-- What the key of a queue begins with if it holds a subscription to `key`. -/
def subscriptionKey (key : String) : String := s!"{key}/subscriptions/"

def beginsWith (lead s : String) : Bool := lead.toList.isPrefixOf s.toList

/-- The keys of the queues to which a message for `key` goes. -/
def recipients (m : Memory) (key : String) : List String :=
  match (KeyTable.names m.queues).filter (beginsWith (subscriptionKey key)) with
  | [] => [key]
  | keys => keys

def messages (m : Memory) (key : String) : List Message :=
  (KeyTable.value? key m.queues).getD []

def append (message : Message) (m : Memory) (key : String) : Memory :=
  { m with queues := KeyTable.put key (m.messages key ++ [message]) m.queues }

/-- The name of the next message: thirty-two digits. -/
def freshId (m : Memory) : String := String.ofList (Hex.fixed 32 (m.issued + 1))

/-- Delivers a body as a new message; gives its name. -/
def deliver (m : Memory) (key : String) (body : Bytes) : String × Memory :=
  let message : Message := ⟨m.freshId, body⟩
  (message.id, (m.recipients key).foldl (append message) { m with issued := m.issued + 1 })

def pop? (m : Memory) (key : String) : Option (Message × Memory) :=
  match m.messages key with
  | [] => none
  | message :: rest => some (message, { m with queues := KeyTable.put key rest m.queues })

/-- Puts a message into a queue from outside any connection. -/
def enqueue (m : Memory) (address destination : String) (body : Bytes) : String × Memory :=
  m.deliver (queueKey address destination) body

/-- Takes a message from outside any connection. -/
def take? (m : Memory) (address destination : String) : Option (Message × Memory) :=
  m.pop? (queueKey address destination)

def depth (m : Memory) (address destination : String) : Nat :=
  (m.messages (queueKey address destination)).length

/-- From now on every connection fails as broken. -/
def sever (m : Memory) : Memory := { m with severed := true }

def restore (m : Memory) : Memory := { m with severed := false }

/-- From now on no connection to the address is opened. -/
def refuse (m : Memory) (address : String) : Memory :=
  { m with refused := if address ∈ m.refused then m.refused else m.refused ++ [address] }

def connect (m : Memory) (target : Target) : Except Error Connection × Memory :=
  if target.address ∈ m.refused then
    (.error (.refused target.address "address refused by backend"), m)
  else if m.severed then (.error (.broken target.address), m)
  else (.ok ⟨m.links.length⟩, { m with links := m.links ++ [⟨target.address, true⟩] })

/-- The address of a connection that is open and not cut off. -/
def usable (m : Memory) (c : Connection) : Except Error String :=
  match m.links[c.number]? with
  | none => .error .closed
  | some link =>
    if !link.isOpen then .error .closed
    else if m.severed then .error (.broken link.address)
    else .ok link.address

def declare (m : Memory) (c : Connection) (destination : String) : Except Error Unit × Memory :=
  match m.usable c with
  | .error e => (.error e, m)
  | .ok address =>
    let key := queueKey address destination
    (.ok (), { m with queues := KeyTable.put key (m.messages key) m.queues })

def put (m : Memory) (c : Connection) (destination : String) (body : Bytes) :
    Except Error String × Memory :=
  match m.usable c with
  | .error e => (.error e, m)
  | .ok address =>
    let (id, m) := m.deliver (queueKey address destination) body
    (.ok id, m)

/-- The first message of a destination, if there is one now. -/
def poll (m : Memory) (c : Connection) (destination : String) :
    Except Error (Option Message) × Memory :=
  match m.usable c with
  | .error e => (.error e, m)
  | .ok address =>
    match m.pop? (queueKey address destination) with
    | some (message, m) => (.ok (some message), m)
    | none => (.ok none, m)

/-- Closes a connection, which works once and whether or not the backend is cut off. -/
def close (m : Memory) (c : Connection) : Except Error Unit × Memory :=
  match m.links[c.number]? with
  | none => (.error .closed, m)
  | some link =>
    if link.isOpen then
      (.ok (), { m with links := m.links.set c.number { link with isOpen := false } })
    else (.error .closed, m)

/-- The answer to a call if no call waits: a `get` finds what is there. -/
def answer : (c : Call) → Memory → c.Answer × Memory
  | .connect target, m => m.connect target
  | .declare c destination, m => m.declare c destination
  | .put c destination body, m => m.put c destination body
  | .get c destination _, m => m.poll c destination
  | .close c, m => m.close c

/-- Takes a call as it stands: a `get` that finds nothing waits, unless it has no time to. -/
def attempt (m : Memory) : (c : Call) → Attempt c Memory
  | .get c destination wait =>
    match m.poll c destination with
    | (.ok none, m) => if wait = 0 then .answered (.ok none) m else .waiting
    | (answer, m) => .answered answer m
  | c => let (answer, m) := Memory.answer c m; .answered answer m

end Memory

end SessionRelay.Backend
