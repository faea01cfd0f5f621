import SessionRelay.Backend.Memory

/-!
A backend for rehearsals: one in memory for which failures can be planned and which keeps a record
of the calls that were made and of the messages that they stored.
-/

namespace SessionRelay.Backend

/-- A planned failure: the call fails, or whoever made it crashes. -/
inductive Mishap where
  | failure (e : Error)
  | crash
  deriving DecidableEq, Repr

/-- The backend, the planned failures by kind of call, and the calls and the messages stored so far,
newest first. -/
structure Rehearsal where
  memory : Memory
  planned : List (Operation × Mishap)
  calls : List Call
  stored : List Message
  deriving DecidableEq, Repr

/-- How a rehearsal takes a call. -/
inductive Outcome (c : Call) where
  | answered (answer : c.Answer) (backend : Rehearsal)
  | waiting (backend : Rehearsal)
  | crashed (backend : Rehearsal)

namespace Rehearsal

def ofMemory (m : Memory) : Rehearsal := ⟨m, [], [], []⟩

def empty : Rehearsal := ofMemory .empty

/-- Plans a failure for the next call of a kind, in place of one planned before. -/
def plan (r : Rehearsal) (operation : Operation) (mishap : Mishap) : Rehearsal :=
  { r with planned := (operation, mishap) :: r.planned.filter fun p => p.1 != operation }

/-- The failure planned for a kind of call, which occurs once. -/
def takePlanned (r : Rehearsal) (operation : Operation) : Option Mishap × Rehearsal :=
  (r.planned.lookup operation, { r with planned := r.planned.filter fun p => p.1 != operation })

/-- Records the message that a call stored. -/
def noteStored (r : Rehearsal) : (c : Call) → c.Answer → Rehearsal
  | .put _ _ body, .ok id => { r with stored := ⟨id, body⟩ :: r.stored }
  | _, _ => r

/-- A call for the first time: it is recorded, and a planned failure keeps it from the backend. -/
def begin (r : Rehearsal) (c : Call) : Outcome c :=
  let r := { r with calls := c :: r.calls }
  let (mishap?, r) := r.takePlanned c.operation
  match mishap? with
  | some (.failure e) => .answered (.error e) r
  | some .crash => .crashed r
  | none =>
    match r.memory.attempt c with
    | .answered answer m => .answered answer ({ r with memory := m }.noteStored c answer)
    | .waiting => .waiting r

/-- A call that has been waiting; none while it still has to. -/
def resume? (r : Rehearsal) (c : Call) : Option (c.Answer × Rehearsal) :=
  match r.memory.attempt c with
  | .answered answer m => some (answer, { r with memory := m })
  | .waiting => none

/-- Ends the wait of a call: it takes what is there. -/
def expire (r : Rehearsal) (c : Call) : c.Answer × Rehearsal :=
  let (answer, m) := Memory.answer c r.memory
  (answer, { r with memory := m })

/-- Runs a dialog at once, with all the time that its waits take. None if it crashes. -/
def run {α : Type} : Dialog α → Rehearsal → Option α × Rehearsal
  | .done a, r => (some a, r)
  | .ask c next, r =>
    match r.begin c with
    | .answered answer r => run (next answer) r
    | .waiting r =>
      let (answer, r) := r.expire c
      run (next answer) r
    | .crashed r => (none, r)

/-- Begins the record of calls anew. -/
def forget (r : Rehearsal) : Rehearsal := { r with calls := [] }

end Rehearsal

end SessionRelay.Backend
