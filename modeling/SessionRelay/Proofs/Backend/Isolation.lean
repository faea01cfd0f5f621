import Mathlib.Data.List.Infix
import SessionRelay.Proofs.Backend.Ledger

/-!
Queues apart. What is done with one queue does not show at another one, at once or later, if their
keys differ and neither holds a subscription to the other; otherwise it can show. A key joins an
address and a destination in one text, so queues of two addresses can have the same key. They cannot
if neither address runs into the text that joins them.
-/

namespace SessionRelay.Backend

open KeyTable

namespace Memory

/-- The name is that of a subscription to `top`. -/
abbrev Under (top name : String) : Prop := (subscriptionKey top).toList <+: name.toList

/-- The name is `top` itself or that of a subscription to it. -/
def Within (top name : String) : Prop := name = top ∨ Under top name

/-- Neither name is within the other. -/
structure Apart (name other : String) : Prop where
  below : ¬ Within name other
  above : ¬ Within other name

theorem toList_subscriptionKey (key : String) :
    (subscriptionKey key).toList = key.toList ++ "/subscriptions/".toList := by
  simp only [subscriptionKey, toString, String.toList_append]

theorem Under.ne {top name : String} (under : Under top name) : name ≠ top := by
  rintro rfl
  have shorter := under.length_le
  rw [toList_subscriptionKey, List.length_append] at shorter
  have positive : 0 < "/subscriptions/".toList.length := by decide
  omega

theorem Under.trans {top middle name : String} (upper : Under top middle)
    (lower : Under middle name) : Under top name := by
  have middleLeads : middle.toList <+: (subscriptionKey middle).toList := by
    rw [toList_subscriptionKey]
    exact List.prefix_append _ _
  exact List.IsPrefix.trans upper (middleLeads.trans lower)

theorem Within.under {top middle name : String} (upper : Within top middle)
    (lower : Under middle name) : Within top name := by
  rcases upper with rfl | upper
  · exact Or.inr lower
  · exact Or.inr (upper.trans lower)

theorem Reaches.within {m : Memory} {key queue : String} (reaches : m.Reaches key queue) :
    Within key queue := by
  rcases reaches with ⟨-, under⟩ | ⟨-, same⟩
  · exact Or.inr under
  · exact Or.inl same

/-! ### Changes at one key -/

/-- The two have the same connections and refuse the same. -/
structure SameLinks (m m' : Memory) : Prop where
  links : m'.links = m.links
  severed : m'.severed = m.severed
  refused : m'.refused = m.refused

theorem SameLinks.congr {m m' after after' : Memory} (same : SameLinks m m')
    (left : SameLinks m after) (right : SameLinks m' after') : SameLinks after after' where
  links := right.links.trans (same.links.trans left.links.symm)
  severed := right.severed.trans (same.severed.trans left.severed.symm)
  refused := right.refused.trans (same.refused.trans left.refused.symm)

theorem sameLinks_deliver (m : Memory) (key : String) (body : Bytes) :
    SameLinks m (m.deliver key body).2 := by
  obtain ⟨queues, after⟩ := m.deliver_eq key body
  rw [after]
  exact ⟨rfl, rfl, rfl⟩

/-- A change that concerns queues within a key only, and adds at most the queue of that key. -/
structure Confined (key : String) (m after : Memory) : Prop extends SameLinks m after where
  messages : ∀ queue, ¬ Within key queue → after.messages queue = m.messages queue
  keys : ∀ queue ≠ key, queue ∈ after.keys ↔ queue ∈ m.keys

theorem Confined.refl (key : String) (m : Memory) : Confined key m m :=
  ⟨⟨rfl, rfl, rfl⟩, fun _ _ => rfl, fun _ _ => Iff.rfl⟩

theorem confined_deliver {m : Memory} (sorted : Ascending m.queues) (key : String) (body : Bytes) :
    Confined key m (m.deliver key body).2 := by
  constructor
  case toSameLinks => exact m.sameLinks_deliver key body
  case messages =>
    intro queue outside
    rw [messages_deliver sorted, if_neg fun reaches => outside reaches.within, List.append_nil]
  case keys =>
    intro queue other
    rw [keys_deliver]
    refine ⟨?_, Or.inr⟩
    rintro ((⟨present, -⟩ | ⟨-, same⟩) | present)
    · exact present
    · exact absurd same other
    · exact present

/-- The queue of a key is there from now on. -/
def declared (m : Memory) (key : String) : Memory :=
  { m with queues := KeyTable.put key (m.messages key) m.queues }

theorem messages_declared (m : Memory) (key queue : String) :
    (m.declared key).messages queue = m.messages queue := by
  by_cases same : queue = key
  · subst same
    exact messages_put_self m _ _
  · exact messages_put_ne m same _

theorem keys_declared {m : Memory} {key queue : String} :
    queue ∈ (m.declared key).keys ↔ queue = key ∨ queue ∈ m.keys := mem_names_put

theorem confined_declared (m : Memory) (key : String) : Confined key m (m.declared key) where
  toSameLinks := ⟨rfl, rfl, rfl⟩
  messages queue _ := m.messages_declared key queue
  keys _ other := keys_declared.trans (or_iff_right other)

/-- The backend without the first message of a key, if there is one. -/
def popped (m : Memory) (key : String) : Memory := ((m.pop? key).map Prod.snd).getD m

theorem popped_of_some {m after : Memory} {key : String} {message : Message}
    (found : m.pop? key = some (message, after)) : m.popped key = after := by
  rw [popped, found]
  rfl

theorem popped_of_none {m : Memory} {key : String} (found : m.pop? key = none) :
    m.popped key = m := by
  rw [popped, found]
  rfl

theorem mem_keys_of_messages {m : Memory} {key : String} (waiting : m.messages key ≠ []) :
    key ∈ m.keys := by
  by_contra absent
  refine waiting ?_
  rw [Memory.messages, value?_eq_none_iff.mpr absent]
  rfl

theorem sameLinks_popped (m : Memory) (key : String) : SameLinks m (m.popped key) := by
  cases found : m.pop? key with
  | none =>
    rw [popped_of_none found]
    exact ⟨rfl, rfl, rfl⟩
  | some taken =>
    rw [popped_of_some found, (pop?_eq_some found).2.2]
    exact ⟨rfl, rfl, rfl⟩

theorem messages_popped_self (m : Memory) (key : String) :
    (m.popped key).messages key = (m.messages key).tail := by
  cases found : m.pop? key with
  | none =>
    rw [popped_of_none found, pop?_eq_none_iff.mp found]
    rfl
  | some taken => rw [popped_of_some found, (pop?_eq_some found).1, List.tail_cons]

theorem messages_popped_ne (m : Memory) {key queue : String} (other : queue ≠ key) :
    (m.popped key).messages queue = m.messages queue := by
  cases found : m.pop? key with
  | none => rw [popped_of_none found]
  | some taken => rw [popped_of_some found, (pop?_eq_some found).2.1 queue other]

theorem keys_popped {m : Memory} {key queue : String} :
    queue ∈ (m.popped key).keys ↔ queue ∈ m.keys := by
  cases found : m.pop? key with
  | none => rw [popped_of_none found]
  | some taken =>
    obtain ⟨first, -, after⟩ := pop?_eq_some found
    have present : key ∈ m.keys := mem_keys_of_messages (by simp [first])
    rw [popped_of_some found, after]
    refine mem_names_put.trans (or_iff_right_of_imp ?_)
    rintro rfl
    exact present

theorem confined_popped (m : Memory) (key : String) : Confined key m (m.popped key) where
  toSameLinks := m.sameLinks_popped key
  messages _ outside := m.messages_popped_ne fun same => outside (Or.inl same)
  keys _ _ := keys_popped

/-! ### What each act comes to -/

theorem put_snd (m : Memory) (c : Connection) (destination : String) (body : Bytes) :
    (m.put c destination body).2 =
      match m.usable c with
      | .error _ => m
      | .ok address => (m.deliver (queueKey address destination) body).2 := by
  unfold put
  cases m.usable c <;> rfl

theorem declare_snd (m : Memory) (c : Connection) (destination : String) :
    (m.declare c destination).2 =
      match m.usable c with
      | .error _ => m
      | .ok address => m.declared (queueKey address destination) := by
  unfold declare
  cases m.usable c <;> rfl

theorem poll_snd (m : Memory) (c : Connection) (destination : String) :
    (m.poll c destination).2 =
      match m.usable c with
      | .error _ => m
      | .ok address => m.popped (queueKey address destination) := by
  unfold poll popped
  cases m.usable c with
  | error e => rfl
  | ok address =>
    dsimp only
    cases m.pop? (queueKey address destination) <;> rfl

/-- A `get` that waits leaves the backend as one does that finds nothing. -/
theorem after_call (m : Memory) (c : Call) :
    (m.entry (.call c)).after = (Memory.answer c m).2 := by
  cases c with
  | get c destination wait =>
    simp only [entry, perform, attempt, Memory.answer]
    cases found : m.poll c destination with
    | mk answer after =>
      rcases answer with e | (_ | message)
      · rfl
      · obtain ⟨-, -, -, -, rfl⟩ := poll_eq_none found
        by_cases hurried : wait = 0 <;> simp [hurried]
      · rfl
  | connect _ | declare _ _ | put _ _ _ | close _ => rfl

theorem after_take (m : Memory) (address destination : String) :
    (m.entry (.take address destination)).after = m.popped (queueKey address destination) := by
  simp only [entry, perform, take?]
  cases found : m.pop? (queueKey address destination) with
  | none => exact (popped_of_none found).symm
  | some taken => exact (popped_of_some found).symm

end Memory

open Memory

/-- A call that works on the queue of a destination, on a connection to its address. -/
def Call.WorksOn (m : Memory) (address destination : String) : Call → Prop
  | .declare c named | .put c named _ | .get c named _ =>
    m.addressOf? c = some address ∧ named = destination
  | .connect _ | .close _ => False

/-- An operation on the queue of a destination, by a connection or from outside. -/
def Act.WorksOn (m : Memory) (address destination : String) : Act → Prop
  | .enqueue place named _ | .take place named => place = address ∧ named = destination
  | .call c | .expire c => c.WorksOn m address destination
  | .sever | .restore | .refuse _ => False

namespace Memory

variable {m m' : Memory} {key : String}

theorem confined_answer (sorted : Ascending m.queues) {address destination : String} {c : Call}
    (works : c.WorksOn m address destination) :
    Confined (queueKey address destination) m (Memory.answer c m).2 := by
  have same {c : Connection} {place : String} (usable : m.usable c = .ok place)
      (led : m.addressOf? c = some address) : place = address :=
    Option.some.inj ((usable_eq_ok usable).1.symm.trans led)
  cases c with
  | declare c named =>
    obtain ⟨led, rfl⟩ := works
    rw [Memory.answer, declare_snd]
    split
    · exact .refl _ m
    · next place usable =>
      cases same usable led
      exact confined_declared m _
  | put c named body =>
    obtain ⟨led, rfl⟩ := works
    rw [Memory.answer, put_snd]
    split
    · exact .refl _ m
    · next place usable =>
      cases same usable led
      exact confined_deliver sorted _ body
  | get c named wait =>
    obtain ⟨led, rfl⟩ := works
    rw [Memory.answer, poll_snd]
    split
    · exact .refl _ m
    · next place usable =>
      cases same usable led
      exact confined_popped m _
  | connect _ | close _ => exact works.elim

/-- An operation on a queue changes nothing but that queue and its subscriptions. -/
theorem confined_entry (sorted : Ascending m.queues) {address destination : String} {act : Act}
    (works : act.WorksOn m address destination) :
    Confined (queueKey address destination) m (m.entry act).after := by
  cases act with
  | enqueue place named body =>
    obtain ⟨rfl, rfl⟩ := works
    exact confined_deliver sorted _ body
  | take place named =>
    obtain ⟨rfl, rfl⟩ := works
    rw [after_take]
    exact confined_popped m _
  | call c =>
    rw [after_call]
    exact confined_answer sorted works
  | expire c => exact confined_answer sorted works
  | sever | restore | refuse _ => exact works.elim

/-! ### Backends that are alike at a key -/

/-- What the messages of a key say; the names under which they were stored are left out. -/
def bodies (m : Memory) (key : String) : List Bytes := (m.messages key).map Message.body

/-- Two backends do not differ in what can be seen at a key: the same bodies wait, and the same
queues are there for what is put under it. -/
structure Alike (key : String) (m m' : Memory) : Prop extends SameLinks m m' where
  bodies : m'.bodies key = m.bodies key
  keys : ∀ queue, Within key queue → (queue ∈ m'.keys ↔ queue ∈ m.keys)

theorem Confined.alike {other : String} (confined : Confined other m m') (apart : Apart other key) :
    Alike key m m' where
  toSameLinks := confined.toSameLinks
  bodies := congrArg (List.map Message.body) (confined.messages key apart.below)
  keys queue within := confined.keys queue fun same => apart.above (same ▸ within)

theorem Alike.usable (alike : Alike key m m') (c : Connection) : m'.usable c = m.usable c := by
  rw [Memory.usable, Memory.usable, alike.links, alike.severed]

/-- Whether a message reaches a queue within the key is the same for both. -/
theorem Alike.reaches (alike : Alike key m m') {queue : String} (within : Within key queue)
    (other : String) : m'.Reaches other queue ↔ m.Reaches other queue := by
  refine or_congr (and_congr_left fun _ => alike.keys queue within) (and_congr_left ?_)
  rintro rfl
  have same (name : String) (under : Under queue name) : name ∈ m'.keys ↔ name ∈ m.keys :=
    alike.keys name (within.under under)
  constructor
  · exact fun nobody name present under => nobody name ((same name under).mpr present) under
  · exact fun nobody name present under => nobody name ((same name under).mp present) under

theorem bodies_deliver (sorted : Ascending m.queues) (other : String) (body : Bytes) :
    (m.deliver other body).2.bodies key =
      m.bodies key ++ if m.Reaches other key then [body] else [] := by
  rw [bodies, messages_deliver sorted, List.map_append, bodies]
  split <;> rfl

theorem Alike.deliver (sorted : Ascending m.queues) (sorted' : Ascending m'.queues)
    (alike : Alike key m m') (other : String) (body : Bytes) :
    Alike key (m.deliver other body).2 (m'.deliver other body).2 := by
  constructor
  case toSameLinks =>
    exact alike.toSameLinks.congr (m.sameLinks_deliver other body) (m'.sameLinks_deliver other body)
  case bodies =>
    rw [bodies_deliver sorted, bodies_deliver sorted', alike.bodies]
    simp only [alike.reaches (Or.inl rfl) other]
  case keys =>
    intro queue within
    rw [keys_deliver, keys_deliver, alike.reaches within other, alike.keys queue within]

theorem Alike.declared (alike : Alike key m m') (other : String) :
    Alike key (m.declared other) (m'.declared other) where
  toSameLinks := ⟨alike.links, alike.severed, alike.refused⟩
  bodies := by
    rw [Memory.bodies, Memory.bodies, messages_declared, messages_declared]
    exact alike.bodies
  keys queue within := by rw [keys_declared, keys_declared, alike.keys queue within]

theorem bodies_popped_self (m : Memory) (key : String) :
    (m.popped key).bodies key = (m.bodies key).tail := by
  rw [bodies, bodies, messages_popped_self, List.map_tail]

theorem Alike.popped (alike : Alike key m m') (other : String) :
    Alike key (m.popped other) (m'.popped other) := by
  constructor
  case toSameLinks =>
    exact alike.toSameLinks.congr (m.sameLinks_popped other) (m'.sameLinks_popped other)
  case bodies =>
    by_cases same : key = other
    · subst same
      rw [bodies_popped_self, bodies_popped_self, alike.bodies]
    · rw [Memory.bodies, Memory.bodies, messages_popped_ne m same, messages_popped_ne m' same]
      exact alike.bodies
  case keys =>
    intro queue within
    rw [keys_popped, keys_popped, alike.keys queue within]

theorem Alike.answer (sorted : Ascending m.queues) (sorted' : Ascending m'.queues)
    (alike : Alike key m m') (c : Call) :
    Alike key (Memory.answer c m).2 (Memory.answer c m').2 := by
  cases c with
  | connect target =>
    simp only [Memory.answer, connect, alike.refused, alike.severed, alike.links]
    split
    · exact alike
    · split
      · exact alike
      · exact ⟨⟨rfl, rfl, rfl⟩, alike.bodies, alike.keys⟩
  | declare c destination =>
    rw [Memory.answer, Memory.answer, declare_snd, declare_snd, alike.usable]
    split
    · exact alike
    · exact alike.declared _
  | put c destination body =>
    rw [Memory.answer, Memory.answer, put_snd, put_snd, alike.usable]
    split
    · exact alike
    · exact alike.deliver sorted sorted' _ body
  | get c destination wait =>
    rw [Memory.answer, Memory.answer, poll_snd, poll_snd, alike.usable]
    split
    · exact alike
    · exact alike.popped _
  | close c =>
    simp only [Memory.answer, close, alike.links]
    split
    · exact alike
    · split
      · exact ⟨⟨rfl, alike.severed, alike.refused⟩, alike.bodies, alike.keys⟩
      · exact alike

/-- Whatever is done to both of two backends that are alike at a key, they stay so. -/
theorem Alike.entry (sorted : Ascending m.queues) (sorted' : Ascending m'.queues)
    (alike : Alike key m m') (act : Act) :
    Alike key (m.entry act).after (m'.entry act).after := by
  cases act with
  | enqueue address destination body => exact alike.deliver sorted sorted' _ body
  | take address destination =>
    rw [after_take, after_take]
    exact alike.popped _
  | call c =>
    rw [after_call, after_call]
    exact alike.answer sorted sorted' c
  | expire c => exact alike.answer sorted sorted' c
  | sever | restore => exact ⟨⟨alike.links, rfl, alike.refused⟩, alike.bodies, alike.keys⟩
  | refuse address =>
    refine ⟨⟨alike.links, alike.severed, ?_⟩, alike.bodies, alike.keys⟩
    simp only [Memory.entry, perform, refuse, alike.refused]

theorem Alike.performAll (sorted : Ascending m.queues) (sorted' : Ascending m'.queues)
    (alike : Alike key m m') (acts : List Act) :
    Alike key (m.performAll acts) (m'.performAll acts) := by
  induction acts generalizing m m' with
  | nil => exact alike
  | cons act acts ih =>
    exact ih (ascending_entry sorted act) (ascending_entry sorted' act)
      (alike.entry sorted sorted' act)

theorem ascending_performAll (sorted : Ascending m.queues) (acts : List Act) :
    Ascending (m.performAll acts).queues := by
  induction acts generalizing m with
  | nil => exact sorted
  | cons act acts ih => exact ih (ascending_entry sorted act)

/-! ### Isolation -/

/-- What is found at a destination, and where what is put there goes, is the same in both. -/
structure Unmoved (address destination : String) (m m' : Memory) : Prop where
  messages : m'.messages (queueKey address destination) =
    m.messages (queueKey address destination)
  depth : m'.depth address destination = m.depth address destination
  take : (m'.take? address destination).map Prod.fst = (m.take? address destination).map Prod.fst
  get : ∀ c, m.addressOf? c = some address → (m'.poll c destination).1 = (m.poll c destination).1
  delivery : ∀ queue, m'.Reaches (queueKey address destination) queue ↔
    m.Reaches (queueKey address destination) queue

/-- The same but for the names of messages, which are counted over all queues. -/
structure Undisturbed (address destination : String) (m m' : Memory) : Prop where
  bodies : m'.bodies (queueKey address destination) = m.bodies (queueKey address destination)
  delivery : ∀ queue, m'.Reaches (queueKey address destination) queue ↔
    m.Reaches (queueKey address destination) queue

/-- In no state of the backend does an operation on the queue of one destination show at another:
not at once, and not after whatever else is done later. -/
structure Isolated (address destination address' destination' : String) : Prop where
  now : ∀ past act, act.WorksOn (empty.performAll past) address destination →
    Unmoved address' destination' (empty.performAll past)
      ((empty.performAll past).entry act).after
  later : ∀ past act, act.WorksOn (empty.performAll past) address destination → ∀ future,
    Undisturbed address' destination' ((empty.performAll past).performAll future)
      (((empty.performAll past).entry act).after.performAll future)

theorem pop?_fst (m : Memory) (key : String) :
    (m.pop? key).map Prod.fst = (m.messages key).head? := by
  unfold pop?
  split <;> simp_all

theorem Alike.delivery (alike : Alike key m m') (queue : String) :
    m'.Reaches key queue ↔ m.Reaches key queue := by
  by_cases within : Within key queue
  · exact alike.reaches within key
  · exact iff_of_false (fun reaches => within reaches.within) fun reaches => within reaches.within

theorem poll_fst (m : Memory) (c : Connection) (destination : String) :
    (m.poll c destination).1 =
      (m.usable c).map fun address => (m.messages (queueKey address destination)).head? := by
  unfold poll
  cases m.usable c with
  | error e => rfl
  | ok address =>
    dsimp only [Except.map]
    rw [← pop?_fst]
    cases m.pop? (queueKey address destination) <;> rfl

variable {address destination : String}

theorem unmoved_of_alike (alike : Alike (queueKey address destination) m m')
    (same : m'.messages (queueKey address destination) =
      m.messages (queueKey address destination)) : Unmoved address destination m m' where
  messages := same
  depth := congrArg List.length same
  take := by rw [take?, take?, pop?_fst, pop?_fst, same]
  get c led := by
    rw [poll_fst, poll_fst, alike.usable]
    cases usable : m.usable c with
    | error e => rfl
    | ok place =>
      cases (usable_eq_ok usable).1.symm.trans led
      exact congrArg (fun messages => Except.ok (List.head? messages)) same
  delivery := alike.delivery

theorem isolated_of_apart {address' destination' : String}
    (apart : Apart (queueKey address destination) (queueKey address' destination')) :
    Isolated address destination address' destination' where
  now past act works := by
    have confined := confined_entry (ascending_performAll .nil past) works
    exact unmoved_of_alike (confined.alike apart) (confined.messages _ apart.below)
  later past act works future := by
    have sorted : Ascending (empty.performAll past).queues := ascending_performAll .nil past
    have confined := confined_entry sorted works
    have alike := (confined.alike apart).performAll sorted (ascending_entry sorted act) future
    exact ⟨alike.bodies, alike.delivery⟩

/-- A backend with an empty queue, which was declared on a connection. -/
def withQueue (address destination : String) : Memory :=
  ⟨[(queueKey address destination, [])], [], false, [⟨address, true⟩], 0⟩

theorem performAll_declare (address destination : String) :
    empty.performAll [.call (.connect ⟨address, []⟩), .call (.declare ⟨0⟩ destination)] =
      withQueue address destination := rfl

theorem reaches_empty (key : String) : empty.Reaches key key := Or.inr ⟨nofun, rfl⟩

/-- If one key is within the other, there is a state in which that shows. -/
theorem Isolated.apart {address' destination' : String}
    (isolated : Isolated address destination address' destination') :
    Apart (queueKey address destination) (queueKey address' destination') := by
  have different : queueKey address' destination' ≠ queueKey address destination := by
    -- the first message of all would be found at both
    intro same
    have depth : (empty.enqueue address destination []).2.depth address' destination' = 0 :=
      (isolated.now [] (.enqueue address destination []) ⟨rfl, rfl⟩).depth
    rw [Memory.depth, Memory.enqueue, same, messages_deliver .nil,
      if_pos (reaches_empty _)] at depth
    cases depth
  constructor
  case below =>
    rintro (same | under)
    · exact different same
    · -- a subscription that was declared gets what is put at the other destination
      have depth := (isolated.now [.call (.connect ⟨address', []⟩),
        .call (.declare ⟨0⟩ destination')] (.enqueue address destination []) ⟨rfl, rfl⟩).depth
      rw [performAll_declare] at depth
      change ((withQueue address' destination').enqueue address destination []).2.depth address'
        destination' = (withQueue address' destination').depth address' destination' at depth
      have reaches : (withQueue address' destination').Reaches (queueKey address destination)
          (queueKey address' destination') := Or.inl ⟨List.mem_singleton.mpr rfl, under⟩
      have sorted : Ascending (withQueue address' destination').queues :=
        List.pairwise_singleton _ _
      rw [Memory.depth, Memory.enqueue, messages_deliver sorted, if_pos reaches,
        List.length_append] at depth
      exact absurd depth (Nat.succ_ne_self _)
  case above =>
    rintro (same | under)
    · exact different same.symm
    · -- the new queue is a subscription, which takes what went to the other destination itself
      have delivery := (isolated.now [] (.enqueue address destination []) ⟨rfl, rfl⟩).delivery
        (queueKey address destination)
      have present : queueKey address destination ∈
          (empty.enqueue address destination []).2.keys :=
        (keys_deliver _ _ _).mpr (Or.inl (reaches_empty _))
      rcases delivery.mp (Or.inl ⟨present, under⟩) with ⟨absent, -⟩ | ⟨-, same⟩
      · cases absent
      · exact under.ne same

/-! ### Addresses and keys -/

/-- The address does not run into the colons that stand between it and a destination. -/
def Plain (address : String) : Prop := ¬ [':', ':'] <:+: address.toList ++ [':']

instance (address : String) : Decidable (Plain address) :=
  inferInstanceAs (Decidable (¬ _))

theorem toList_queueKey (address destination : String) :
    (queueKey address destination).toList = address.toList ++ ':' :: ':' :: destination.toList := by
  simp only [queueKey, toString, String.toList_append]
  rw [List.append_assoc]
  rfl

theorem Within.isPrefix {top name : String} (within : Within top name) :
    top.toList <+: name.toList := by
  rcases within with rfl | under
  · exact List.prefix_rfl
  · refine List.IsPrefix.trans ?_ under
    rw [toList_subscriptionKey]
    exact List.prefix_append _ _

/-- Keys of one address are within each other as their destinations are. -/
theorem within_queueKey {address destination destination' : String} :
    Within (queueKey address destination) (queueKey address destination') ↔
      Within destination destination' := by
  refine or_congr ?_ ?_
  · rw [← String.toList_inj, ← String.toList_inj, toList_queueKey, toList_queueKey,
      List.append_cancel_left_eq, List.cons_inj_right, List.cons_inj_right]
  · rw [Under, Under, toList_subscriptionKey, toList_subscriptionKey, toList_queueKey,
      toList_queueKey, List.append_assoc, List.prefix_append_right_inj, List.cons_append,
      List.cons_append, List.cons_prefix_cons, List.cons_prefix_cons]
    simp only [true_and]

/-- Where the colons of two texts end is where they begin, unless they run into what is between. -/
theorem eq_nil_or_joint {between rest rest' : List Char}
    (same : ':' :: ':' :: rest = between ++ ':' :: ':' :: rest') :
    between = [] ∨ [':', ':'] <:+: between ++ [':'] := by
  rcases between with _ | ⟨first, _ | ⟨second, more⟩⟩
  · exact Or.inl rfl
  · obtain ⟨rfl, -⟩ := List.cons.inj same
    exact Or.inr List.infix_rfl
  · obtain ⟨rfl, tail⟩ := List.cons.inj same
    obtain ⟨rfl, -⟩ := List.cons.inj tail
    exact Or.inr ⟨[], more ++ [':'], rfl⟩

/-- A plain address is what stands before the first colons of a key. -/
theorem Plain.eq {address address' : String} (plain : Plain address) (plain' : Plain address')
    {rest rest' : List Char}
    (same : address.toList ++ ':' :: ':' :: rest = address'.toList ++ ':' :: ':' :: rest') :
    address = address' := by
  have ends {one other : String} {between : List Char}
      (longer : other.toList = one.toList ++ between) (plain : Plain other)
      (joint : between = [] ∨ [':', ':'] <:+: between ++ [':']) :
      one = other := by
    rcases joint with rfl | joint
    · rw [List.append_nil] at longer
      exact String.toList_inj.mp longer.symm
    · refine absurd ?_ plain
      rw [longer, List.append_assoc]
      exact joint.trans (List.suffix_append _ _).isInfix
  rcases List.append_eq_append_iff.mp same with ⟨between, longer, same⟩ | ⟨between, longer, same⟩
  · exact ends longer plain' (eq_nil_or_joint same)
  · exact (ends longer plain (eq_nil_or_joint same)).symm

theorem Plain.not_within {address address' : String} (plain : Plain address)
    (plain' : Plain address') (different : address ≠ address') (destination destination' : String) :
    ¬ Within (queueKey address destination) (queueKey address' destination') := by
  intro within
  obtain ⟨more, longer⟩ := within.isPrefix
  rw [toList_queueKey, toList_queueKey, List.append_assoc] at longer
  exact different (plain.eq plain' longer)

end Memory

/-- Of two different destinations, neither with the path of a subscription to the other, what is
done with one does not show at the other if they have one address, and otherwise just in case that
their keys are apart; these are if both addresses are plain. -/
theorem queues_isolated {address destination address' destination' : String}
    (different : (address, destination) ≠ (address', destination'))
    (unnested : address = address' →
      ¬ Under destination destination' ∧ ¬ Under destination' destination) :
    (Isolated address destination address' destination' ↔
      (address ≠ address' →
        Apart (queueKey address destination) (queueKey address' destination'))) ∧
    (Plain address → Plain address' → Isolated address destination address' destination') := by
  have together : address = address' → Isolated address destination address' destination' := by
    rintro rfl
    obtain ⟨below, above⟩ := unnested rfl
    refine isolated_of_apart ⟨?_, ?_⟩
    · rw [within_queueKey]
      rintro (rfl | under)
      · exact different rfl
      · exact below under
    · rw [within_queueKey]
      rintro (rfl | under)
      · exact different rfl
      · exact above under
  refine ⟨⟨fun isolated _ => isolated.apart, fun apart => ?_⟩, fun plain plain' => ?_⟩
  · by_cases same : address = address'
    · exact together same
    · exact isolated_of_apart (apart same)
  · by_cases same : address = address'
    · exact together same
    · exact isolated_of_apart ⟨plain.not_within plain' same _ _,
        plain'.not_within plain (Ne.symm same) _ _⟩

theorem orders_isolated :
    Isolated "QM1" "ORDERS" "QM1" "INVOICES" ∧ Isolated "QM1" "ORDERS" "QM2" "ORDERS" := by
  have unnested : ¬ Under "ORDERS" "INVOICES" ∧ ¬ Under "INVOICES" "ORDERS" := by decide
  constructor
  · exact (queues_isolated (by decide) fun _ => unnested).1.mpr fun other => absurd rfl other
  · have plain : Plain "QM1" := by decide
    have plain' : Plain "QM2" := by decide
    exact (queues_isolated (by decide) fun same => absurd same (by decide)).2 plain plain'

/-- Two destinations of two addresses with one key: what is put at one is found at the other. -/
theorem joined_texts_not_isolated :
    ("A::x" : String) ≠ "A" ∧ queueKey "A::x" "y" = queueKey "A" "x::y" ∧
    Memory.empty.depth "A" "x::y" = 0 ∧
    (Memory.empty.enqueue "A::x" "y" [0x61]).2.depth "A" "x::y" = 1 ∧
    ¬ Isolated "A::x" "y" "A" "x::y" := by
  refine ⟨by decide, by decide, by decide, by decide, ?_⟩
  intro isolated
  exact isolated.apart.below (Or.inl (by decide))

end SessionRelay.Backend
