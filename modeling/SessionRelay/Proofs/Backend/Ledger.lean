import SessionRelay.Proofs.Backend.Queues

/-!
The books of a backend in memory. Whatever is done to it, by whichever connections and in whichever
order, each queue gives out what was put into it, in that order and each message once, and holds
the rest.
-/

namespace SessionRelay.Backend

open KeyTable

/-- What can be done to a backend, each as one step. A call is one look at the queues: a `get` that
waits is called again whenever it is woken, and `expire` is its last look, when its time is over. -/
inductive Act where
  | enqueue (address destination : String) (body : Bytes)
  | take (address destination : String)
  | call (c : Call)
  | expire (c : Call)
  | sever
  | restore
  | refuse (address : String)

/-- What has come of an act. -/
inductive Deed where
  | enqueued (address destination : String) (message : Message)
  | taken (address destination : String) (message? : Option Message)
  | answered (c : Call) (answer : c.Answer)
  | waiting (c : Call)
  | arranged

/-- A deed, with the backend before and after it. -/
structure Entry where
  before : Memory
  deed : Deed
  after : Memory

namespace Memory

def perform (m : Memory) : Act → Deed × Memory
  | .enqueue address destination body =>
    let (id, after) := m.enqueue address destination body
    (.enqueued address destination ⟨id, body⟩, after)
  | .take address destination =>
    match m.take? address destination with
    | some (message, after) => (.taken address destination (some message), after)
    | none => (.taken address destination none, m)
  | .call c =>
    match m.attempt c with
    | .answered answer after => (.answered c answer, after)
    | .waiting => (.waiting c, m)
  | .expire c =>
    let (answer, after) := Memory.answer c m
    (.answered c answer, after)
  | .sever => (.arranged, m.sever)
  | .restore => (.arranged, m.restore)
  | .refuse address => (.arranged, m.refuse address)

def entry (m : Memory) (act : Act) : Entry := ⟨m, (m.perform act).1, (m.perform act).2⟩

/-- The acts one after the other, with what has come of each. -/
def history (m : Memory) : List Act → List Entry
  | [] => []
  | act :: acts => m.entry act :: (m.entry act).after.history acts

/-- The backend after all the acts. -/
def performAll (m : Memory) (acts : List Act) : Memory :=
  acts.foldl (fun m act => (m.entry act).after) m

/-- The key of the queue that a connection means by a destination. -/
def keyOf? (m : Memory) (c : Connection) (destination : String) : Option String :=
  (m.addressOf? c).map fun address => queueKey address destination

end Memory

namespace Entry

/-- The message that was accepted, and the key that it was put under. -/
def accepted? (e : Entry) : Option (String × Message) :=
  match e.deed with
  | .enqueued address destination message => some (Memory.queueKey address destination, message)
  | .answered (.put c destination body) (.ok id) =>
    (e.before.keyOf? c destination).map fun key => (key, ⟨id, body⟩)
  | _ => none

/-- The message that was given out, and the queue that it came from. -/
def removed? (e : Entry) : Option (String × Message) :=
  match e.deed with
  | .taken address destination (some message) =>
    some (Memory.queueKey address destination, message)
  | .answered (.get c destination _) (.ok (some message)) =>
    (e.before.keyOf? c destination).map fun key => (key, message)
  | _ => none

/-- What the entry says was stored in a queue. -/
def stored (queue : String) (e : Entry) : List Message :=
  match e.accepted? with
  | some (key, message) => if e.before.Reaches key queue then [message] else []
  | none => []

/-- What the entry says was popped from a queue. -/
def popped (queue : String) (e : Entry) : List Message :=
  match e.removed? with
  | some (key, message) => if queue = key then [message] else []
  | none => []

/-- What an act does to the queues, by what has come of it. -/
structure Lawful (e : Entry) : Prop where
  put_accepted : ∀ c destination body id,
    e.deed = .answered (.put c destination body) (.ok id) →
      ∃ key, e.before.keyOf? c destination = some key ∧ e.accepted? = some (key, ⟨id, body⟩)
  get_removed : ∀ c destination wait message,
    e.deed = .answered (.get c destination wait) (.ok (some message)) →
      ∃ key, e.before.keyOf? c destination = some key ∧ e.removed? = some (key, message)
  lands : ∀ key message, e.accepted? = some (key, message) → ∃ queue, e.before.Reaches key queue
  accepted : ∀ key message, e.accepted? = some (key, message) → ∀ queue,
    e.after.messages queue =
      e.before.messages queue ++ if e.before.Reaches key queue then [message] else []
  created : ∀ key message, e.accepted? = some (key, message) → ∀ queue,
    queue ∈ e.after.keys ↔ e.before.Reaches key queue ∨ queue ∈ e.before.keys
  removed : ∀ key message, e.removed? = some (key, message) →
    e.before.messages key = message :: e.after.messages key ∧
      ∀ queue ≠ key, e.after.messages queue = e.before.messages queue
  still : e.accepted? = none → e.removed? = none → ∀ queue,
    e.after.messages queue = e.before.messages queue
  declared : ∀ c destination answer, e.deed = .answered (.declare c destination) answer →
    ∀ queue, e.after.messages queue = e.before.messages queue
  failed : ∀ c error, e.deed = .answered c (.error error) → e.after = e.before
  nothing : ∀ c destination wait, e.deed = .answered (.get c destination wait) (.ok none) →
    ∃ key, e.before.keyOf? c destination = some key ∧ e.before.messages key = []
  severed : e.before.severed = true → ∀ c answer, e.deed = .answered c answer →
    c.operation = .put ∨ c.operation = .get → e.after.queues = e.before.queues

end Entry

namespace Memory

variable {m : Memory} {act : Act}

theorem keyOf?_eq_some {c : Connection} {destination address : String}
    (h : m.addressOf? c = some address) :
    m.keyOf? c destination = some (queueKey address destination) := by
  rw [keyOf?, h, Option.map_some]

/-- What an act comes to: a delivery or a removal from outside, the answer to a call, or nothing
that the queues would show. -/
theorem entry_cases (m : Memory) (act : Act) :
    (∃ address destination body, m.entry act = ⟨m,
      .enqueued address destination ⟨m.freshId, body⟩,
      (m.deliver (queueKey address destination) body).2⟩) ∨
    (∃ address destination message after,
      m.pop? (queueKey address destination) = some (message, after) ∧
        m.entry act = ⟨m, .taken address destination (some message), after⟩) ∨
    (∃ c answer after, Memory.answer c m = (answer, after) ∧
      m.entry act = ⟨m, .answered c answer, after⟩) ∨
    ((m.entry act).accepted? = none ∧ (m.entry act).removed? = none ∧
      (m.entry act).after.queues = m.queues ∧
      ∀ c answer, (m.entry act).deed ≠ .answered c answer) := by
  cases act with
  | enqueue address destination body => exact Or.inl ⟨address, destination, body, rfl⟩
  | take address destination =>
    cases found : m.take? address destination with
    | some popped =>
      obtain ⟨message, after⟩ := popped
      refine Or.inr (Or.inl ⟨address, destination, message, after, found, ?_⟩)
      simp only [entry, perform, found]
    | none =>
      refine Or.inr (Or.inr (Or.inr ?_))
      simp [entry, perform, found, Entry.accepted?, Entry.removed?]
  | call c =>
    cases found : m.attempt c with
    | answered answer after =>
      refine Or.inr (Or.inr (Or.inl ⟨c, answer, after, attempt_eq_answered found, ?_⟩))
      simp only [entry, perform, found]
    | waiting =>
      refine Or.inr (Or.inr (Or.inr ?_))
      simp [entry, perform, found, Entry.accepted?, Entry.removed?]
  | expire c => exact Or.inr (Or.inr (Or.inl ⟨c, _, _, rfl, rfl⟩))
  | sever | restore | refuse _ =>
    refine Or.inr (Or.inr (Or.inr ⟨rfl, rfl, rfl, ?_⟩))
    rintro c answer ⟨⟩

/-- What comes of a call is the answer to it, when it is made or when its time is over. -/
theorem entry_answered {c : Call} {answer : c.Answer} (h : (m.entry act).deed = .answered c answer) :
    Memory.answer c m = (answer, (m.entry act).after) := by
  obtain ⟨address, destination, body, same⟩ | ⟨address, destination, message, after, -, same⟩ |
    ⟨call, reply, after, answered, same⟩ | ⟨-, -, -, other⟩ := m.entry_cases act
  · rw [same] at h
    cases h
  · rw [same] at h
    cases h
  · rw [same] at h ⊢
    cases h
    exact answered
  · exact absurd h (other c answer)

/-- What is accepted is delivered as a new message. -/
theorem entry_accepted {key : String} {message : Message}
    (h : (m.entry act).accepted? = some (key, message)) :
    ∃ body, message = ⟨m.freshId, body⟩ ∧ (m.entry act).after = (m.deliver key body).2 := by
  obtain ⟨address, destination, body, same⟩ | ⟨address, destination, message, after, -, same⟩ |
    ⟨call, reply, after, answered, same⟩ | ⟨nothing, -, -, -⟩ := m.entry_cases act
  · rw [same] at h ⊢
    obtain ⟨rfl, rfl⟩ := Prod.mk.inj (Option.some.inj h)
    exact ⟨body, rfl, rfl⟩
  · rw [same] at h
    cases h
  · rw [same] at h ⊢
    unfold Entry.accepted? at h
    split at h
    · next deed => cases deed
    · next c destination body id deed =>
      cases deed
      obtain ⟨address, opened, -, delivered⟩ := put_eq_ok answered
      obtain ⟨rfl, rfl⟩ := Prod.mk.inj delivered
      rw [keyOf?_eq_some opened] at h
      obtain ⟨rfl, rfl⟩ := Prod.mk.inj (Option.some.inj h)
      exact ⟨body, rfl, rfl⟩
    · cases h
  · rw [nothing] at h
    cases h

/-- What is given out was the first of its queue. -/
theorem entry_removed {key : String} {message : Message}
    (h : (m.entry act).removed? = some (key, message)) :
    m.pop? key = some (message, (m.entry act).after) := by
  obtain ⟨address, destination, body, same⟩ | ⟨address, destination, message, after, popped, same⟩ |
    ⟨call, reply, after, answered, same⟩ | ⟨-, nothing, -, -⟩ := m.entry_cases act
  · rw [same] at h
    cases h
  · rw [same] at h ⊢
    obtain ⟨rfl, rfl⟩ := Prod.mk.inj (Option.some.inj h)
    exact popped
  · rw [same] at h ⊢
    unfold Entry.removed? at h
    split at h
    · next deed => cases deed
    · next c destination wait message deed =>
      cases deed
      obtain ⟨address, opened, -, popped⟩ := poll_eq_some answered
      rw [keyOf?_eq_some opened] at h
      obtain ⟨rfl, rfl⟩ := Prod.mk.inj (Option.some.inj h)
      exact popped
    · cases h
  · rw [nothing] at h
    cases h

/-- A call changes the contents of queues only as a `put` that is accepted or a `get` that gives out
a message. -/
theorem messages_answered {c : Call} {answer : c.Answer} {after : Memory}
    (h : Memory.answer c m = (answer, after))
    (kept : Entry.accepted? ⟨m, .answered c answer, after⟩ = none)
    (held : Entry.removed? ⟨m, .answered c answer, after⟩ = none) (queue : String) :
    after.messages queue = m.messages queue := by
  cases answer with
  | error e => rw [answer_eq_error h]
  | ok value =>
    cases c with
    | connect target =>
      have same : after.queues = m.queues :=
        (congrArg (·.2.queues) h.symm).trans (queues_connect m target)
      rw [messages, same, messages]
    | declare c destination =>
      exact (congrArg (·.2.messages queue) h.symm).trans (messages_declare m c destination queue)
    | put c destination body =>
      obtain ⟨address, opened, -, -⟩ := put_eq_ok h
      simp [Entry.accepted?, keyOf?_eq_some opened] at kept
    | get c destination wait =>
      cases value with
      | none =>
        obtain ⟨-, -, -, -, same⟩ := poll_eq_none h
        rw [same]
      | some message =>
        obtain ⟨address, opened, -, -⟩ := poll_eq_some h
        simp [Entry.removed?, keyOf?_eq_some opened] at held
    | close c =>
      have same : after.queues = m.queues :=
        (congrArg (·.2.queues) h.symm).trans (queues_close m c)
      rw [messages, same, messages]

theorem entry_still (kept : (m.entry act).accepted? = none) (held : (m.entry act).removed? = none)
    (queue : String) : (m.entry act).after.messages queue = m.messages queue := by
  obtain ⟨address, destination, body, same⟩ | ⟨address, destination, message, after, -, same⟩ |
    ⟨call, reply, after, answered, same⟩ | ⟨-, -, same, -⟩ := m.entry_cases act
  · rw [same] at kept
    cases kept
  · rw [same] at held
    cases held
  · rw [same] at kept held ⊢
    exact messages_answered answered kept held queue
  · rw [messages, same, messages]

/-- While the backend is cut off, a connection neither puts nor gets anything. -/
theorem queues_severed {c : Call} {answer : c.Answer} {after : Memory} (off : m.severed = true)
    (h : Memory.answer c m = (answer, after)) (moves : c.operation = .put ∨ c.operation = .get) :
    after.queues = m.queues := by
  have whole (absurdly : m.severed = false) : after.queues = m.queues :=
    absurd (off.symm.trans absurdly) Bool.noConfusion
  cases answer with
  | error e => rw [answer_eq_error h]
  | ok value =>
    cases c with
    | put c destination body =>
      obtain ⟨-, -, on, -⟩ := put_eq_ok h
      exact whole on
    | get c destination wait =>
      cases value with
      | none =>
        obtain ⟨-, -, on, -⟩ := poll_eq_none h
        exact whole on
      | some message =>
        obtain ⟨-, -, on, -⟩ := poll_eq_some h
        exact whole on
    | connect _ | declare _ _ | close _ => rcases moves with ⟨⟨⟩⟩ | ⟨⟨⟩⟩

/-- Every act keeps the law, in whatever state it finds the backend. -/
theorem lawful_entry (sorted : Ascending m.queues) (act : Act) : (m.entry act).Lawful where
  put_accepted c destination body id deed := by
    obtain ⟨address, opened, -, -⟩ := put_eq_ok (entry_answered deed)
    have known : (m.entry act).before.keyOf? c destination = _ := keyOf?_eq_some opened
    refine ⟨_, known, ?_⟩
    simp only [Entry.accepted?, deed, known, Option.map_some]
  get_removed c destination wait message deed := by
    obtain ⟨address, opened, -, -⟩ := poll_eq_some (entry_answered deed)
    have known : (m.entry act).before.keyOf? c destination = _ := keyOf?_eq_some opened
    refine ⟨_, known, ?_⟩
    simp only [Entry.removed?, deed, known, Option.map_some]
  lands key _ _ := m.exists_reaches key
  accepted key message h queue := by
    obtain ⟨body, rfl, after⟩ := entry_accepted h
    rw [after]
    exact messages_deliver sorted key body queue
  created key message h queue := by
    obtain ⟨body, rfl, after⟩ := entry_accepted h
    rw [after]
    exact keys_deliver m key body
  removed key message h := by
    obtain ⟨first, others, -⟩ := pop?_eq_some (entry_removed h)
    exact ⟨first, others⟩
  still := entry_still
  declared c destination answer deed queue := by
    have after := entry_answered deed
    exact (congrArg (·.2.messages queue) after.symm).trans (messages_declare m c destination queue)
  failed c error deed := answer_eq_error (entry_answered deed)
  nothing c destination wait deed := by
    obtain ⟨address, opened, -, empty, -⟩ := poll_eq_none (entry_answered deed)
    exact ⟨_, keyOf?_eq_some opened, empty⟩
  severed off c answer deed moves := queues_severed off (entry_answered deed) moves

theorem lawful_answered (sorted : Ascending m.queues) {c : Call} {answer : c.Answer}
    {after : Memory} (answered : Memory.answer c m = (answer, after)) :
    Entry.Lawful ⟨m, .answered c answer, after⟩ := by
  have law := lawful_entry sorted (.expire c)
  have same : m.entry (.expire c) =
      ⟨m, .answered c (Memory.answer c m).1, (Memory.answer c m).2⟩ := rfl
  rw [same, answered] at law
  exact law

theorem ascending_entry (sorted : Ascending m.queues) (act : Act) :
    Ascending (m.entry act).after.queues := by
  obtain ⟨address, destination, body, same⟩ | ⟨address, destination, message, after, popped, same⟩ |
    ⟨call, reply, after, answered, same⟩ | ⟨-, -, same, -⟩ := m.entry_cases act
  · rw [same]
    exact ascending_deliver sorted _ body
  · rw [same]
    exact ascending_pop? sorted popped
  · rw [same]
    have kept := ascending_answer sorted call
    rw [answered] at kept
    exact kept
  · rw [same]
    exact sorted

end Memory

/-- What a queue held and what was stored is what was popped and what it holds. -/
theorem Entry.Lawful.balanced {e : Entry} (law : e.Lawful) (queue : String) :
    e.before.messages queue ++ e.stored queue = e.popped queue ++ e.after.messages queue := by
  unfold Entry.stored Entry.popped
  cases accepted : e.accepted? with
  | some put =>
    obtain ⟨key, message⟩ := put
    have nothing : e.removed? = none := by
      unfold Entry.accepted? at accepted
      split at accepted <;> simp_all [Entry.removed?]
    simp only [nothing, List.nil_append]
    exact (law.accepted key message accepted queue).symm
  | none =>
    cases removed : e.removed? with
    | none =>
      rw [law.still accepted removed queue, List.append_nil, List.nil_append]
    | some taken =>
      obtain ⟨key, message⟩ := taken
      obtain ⟨first, others⟩ := law.removed key message removed
      by_cases same : queue = key
      · subst same
        simp [first]
      · simp [same, others queue same]

namespace Memory

/-- What the history says was stored in a queue, oldest first. -/
def storedIn (queue : String) (entries : List Entry) : List Message :=
  entries.flatMap (Entry.stored queue)

/-- What the history says was popped from a queue, oldest first; each entry is of one caller. -/
def poppedFrom (queue : String) (entries : List Entry) : List Message :=
  entries.flatMap (Entry.popped queue)

theorem history_lawful {m : Memory} (sorted : Ascending m.queues) (acts : List Act) :
    ∀ e ∈ m.history acts, e.Lawful := by
  induction acts generalizing m with
  | nil => intro e member; cases member
  | cons act acts ih =>
    intro e member
    rcases List.mem_cons.mp member with rfl | later
    · exact lawful_entry sorted act
    · exact ih (ascending_entry sorted act) e later

theorem history_balanced {m : Memory} (sorted : Ascending m.queues) (acts : List Act)
    (queue : String) :
    m.messages queue ++ storedIn queue (m.history acts) =
      poppedFrom queue (m.history acts) ++ (m.performAll acts).messages queue := by
  induction acts generalizing m with
  | nil => simp [storedIn, poppedFrom, history, performAll]
  | cons act acts ih =>
    have now : m.messages queue ++ (m.entry act).stored queue =
        (m.entry act).popped queue ++ (m.entry act).after.messages queue :=
      (lawful_entry sorted act).balanced queue
    have later := ih (ascending_entry sorted act)
    calc m.messages queue ++ storedIn queue (m.history (act :: acts))
        = (m.messages queue ++ (m.entry act).stored queue) ++
            storedIn queue ((m.entry act).after.history acts) := by
          rw [List.append_assoc]
          rfl
      _ = (m.entry act).popped queue ++ ((m.entry act).after.messages queue ++
            storedIn queue ((m.entry act).after.history acts)) := by
          rw [now, List.append_assoc]
      _ = poppedFrom queue (m.history (act :: acts)) ++
            (m.performAll (act :: acts)).messages queue := by
          rw [later, ← List.append_assoc]
          rfl

/-- Nothing is lost, doubled or moved: after any acts, the messages that were stored in a queue are
those that were popped from it and then those that it holds, and every act keeps the law. -/
theorem stored_eq_popped_append_messages (acts : List Act) :
    (∀ queue, storedIn queue (empty.history acts) =
      poppedFrom queue (empty.history acts) ++ (empty.performAll acts).messages queue) ∧
    ∀ e ∈ empty.history acts, e.Lawful := by
  constructor
  · intro queue
    exact history_balanced (m := empty) .nil acts queue
  · exact history_lawful (m := empty) .nil acts

end Memory

end SessionRelay.Backend
