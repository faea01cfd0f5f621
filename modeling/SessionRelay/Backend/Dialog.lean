import SessionRelay.Backend.Error
import SessionRelay.KeyTable
import SessionRelay.Text.Utf8

/-!
What a session asks of a backend, and the course of an action as a dialog with one. A dialog does
not say which backend answers: the same action runs against any answers whatever, at once or with
waits between them.
-/

namespace SessionRelay.Backend

/-- Where to connect: the name of a queue manager or namespace, and all else that is known of it. -/
structure Target where
  address : String
  properties : KeyTable String
  deriving DecidableEq, Repr

/-- A message as a backend holds it. -/
structure Message where
  id : String
  body : Bytes
  deriving DecidableEq, Repr

/-- A connection, by the number under which the backend opened it. -/
structure Connection where
  number : Nat
  deriving DecidableEq, Repr

/-- A time to wait, in nanoseconds. -/
abbrev Wait := Nat

/-- A call to a backend. `declare` makes sure that a destination exists, so that it keeps what is
put there later; `get` waits for a message for at most the given time. -/
inductive Call where
  | connect (target : Target)
  | declare (connection : Connection) (destination : String)
  | put (connection : Connection) (destination : String) (body : Bytes)
  | get (connection : Connection) (destination : String) (wait : Wait)
  | close (connection : Connection)
  deriving DecidableEq, Repr

/-- What a call gives if it succeeds. -/
def Call.Value : Call → Type
  | .connect _ => Connection
  | .declare _ _ => Unit
  | .put _ _ _ => String
  | .get _ _ _ => Option Message
  | .close _ => Unit

abbrev Call.Answer (c : Call) : Type := Except Error c.Value

/-- The kinds of calls. -/
inductive Operation where
  | connect
  | declare
  | put
  | get
  | close
  deriving DecidableEq, Repr

def Operation.read? (raw : String) : Option Operation :=
  match raw with
  | "connect" => some .connect
  | "declare" => some .declare
  | "put" => some .put
  | "get" => some .get
  | "close" => some .close
  | _ => none

def Call.operation : Call → Operation
  | .connect _ => .connect
  | .declare _ _ => .declare
  | .put _ _ _ => .put
  | .get _ _ _ => .get
  | .close _ => .close

/-- A call in a record of calls: its kind, where it goes and how long it waits. -/
def Call.text : Call → String
  | .connect _ => "connect"
  | .declare _ destination => s!"declare {destination}"
  | .put _ destination _ => s!"put {destination}"
  | .get _ destination wait => s!"get {destination} {wait}ns"
  | .close _ => "close"

/-- The course of an action: it is done, or it calls the backend and goes on with the answer. -/
inductive Dialog (α : Type) where
  | done (a : α)
  | ask (call : Call) (next : call.Answer → Dialog α)

namespace Dialog

variable {α β σ : Type}

def call (c : Call) : Dialog c.Answer := .ask c .done

/-- Goes on with what a dialog gives. -/
def bind : Dialog α → (α → Dialog β) → Dialog β
  | .done a, f => f a
  | .ask c next, f => .ask c fun answer => (next answer).bind f

def map (f : α → β) : Dialog α → Dialog β
  | .done a => .done (f a)
  | .ask c next => .ask c fun answer => (next answer).map f

instance : Monad Dialog where
  pure := .done
  bind := Dialog.bind

/-- Runs a dialog with a backend that answers every call at once. -/
def run (answer : (c : Call) → σ → c.Answer × σ) : Dialog α → σ → α × σ
  | .done a, s => (a, s)
  | .ask c next, s =>
    let (a, s) := answer c s
    (next a).run answer s

@[simp] theorem bind_done (a : α) (f : α → Dialog β) : (Dialog.done a).bind f = f a := rfl

theorem run_bind (answer : (c : Call) → σ → c.Answer × σ) (d : Dialog α) (f : α → Dialog β)
    (s : σ) : (d.bind f).run answer s = (f (d.run answer s).1).run answer (d.run answer s).2 := by
  induction d generalizing s with
  | done a => rfl
  | ask c next ih => simp [bind, run, ih]

end Dialog

end SessionRelay.Backend
