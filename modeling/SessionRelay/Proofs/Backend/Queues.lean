import SessionRelay.Backend.Memory
import SessionRelay.Proofs.KeyTable

/-!
What each operation of the backend in memory does to each of its queues. The contents of a queue
are read by its key, so every lemma says what happens to all keys at once: to those that the
operation is about, and to all others.
-/

namespace SessionRelay.Backend.Memory

open KeyTable

/-- The keys of the queues that there are, also of those that hold nothing now. -/
def keys (m : Memory) : List String := names m.queues

/-- A message for `key` goes to the queue `queue`: this holds a subscription to `key`, or there is
no subscription and it is the queue of `key` itself. -/
def Reaches (m : Memory) (key queue : String) : Prop :=
  (queue ∈ m.keys ∧ (subscriptionKey key).toList <+: queue.toList) ∨
    ((∀ other ∈ m.keys, ¬ (subscriptionKey key).toList <+: other.toList) ∧ queue = key)

instance (m : Memory) (key queue : String) : Decidable (m.Reaches key queue) :=
  inferInstanceAs (Decidable (_ ∨ _))

/-- No message is lost for want of a queue. -/
theorem exists_reaches (m : Memory) (key : String) : ∃ queue, m.Reaches key queue := by
  by_cases subscribed : ∃ queue ∈ m.keys, (subscriptionKey key).toList <+: queue.toList
  · obtain ⟨queue, present, under⟩ := subscribed
    exact ⟨queue, Or.inl ⟨present, under⟩⟩
  · refine ⟨key, Or.inr ⟨?_, rfl⟩⟩
    intro other present under
    exact subscribed ⟨other, present, under⟩

theorem mem_recipients {m : Memory} {key queue : String} :
    queue ∈ m.recipients key ↔ m.Reaches key queue := by
  have listed (name : String) :
      name ∈ (names m.queues).filter (beginsWith (subscriptionKey key)) ↔
        name ∈ m.keys ∧ (subscriptionKey key).toList <+: name.toList := by
    rw [List.mem_filter, beginsWith, List.isPrefixOf_iff_prefix, keys]
  unfold recipients Reaches
  split
  · next none =>
    have nobody : ∀ other ∈ m.keys, ¬ (subscriptionKey key).toList <+: other.toList := by
      intro other present under
      have member := (listed other).mpr ⟨present, under⟩
      rw [none] at member
      exact List.not_mem_nil member
    constructor
    · intro member
      exact Or.inr ⟨nobody, List.mem_singleton.mp member⟩
    · rintro (⟨present, under⟩ | ⟨-, same⟩)
      · exact absurd under (nobody queue present)
      · exact List.mem_singleton.mpr same
  · next some =>
    rw [listed]
    constructor
    · exact Or.inl
    · rintro (subscription | ⟨nobody, -⟩)
      · exact subscription
      · obtain ⟨first, rest, found⟩ := List.exists_cons_of_ne_nil some
        have member := (listed first).mp (found ▸ List.mem_cons_self)
        exact absurd member.2 (nobody first member.1)

theorem recipients_nodup {m : Memory} (sorted : Ascending m.queues) (key : String) :
    (m.recipients key).Nodup := by
  unfold recipients
  split
  · exact List.pairwise_singleton _ key
  · exact sorted.nodup_names.filter _

theorem messages_put_self (m : Memory) (key : String) (content : List Message) :
    ({ m with queues := KeyTable.put key content m.queues } : Memory).messages key = content := by
  simp [messages]

theorem messages_put_ne (m : Memory) {key queue : String} (other : queue ≠ key)
    (content : List Message) :
    ({ m with queues := KeyTable.put key content m.queues } : Memory).messages queue =
      m.messages queue := by
  simp [messages, other]

theorem messages_append (m : Memory) (message : Message) (key queue : String) :
    (append message m key).messages queue =
      m.messages queue ++ if queue = key then [message] else [] := by
  by_cases same : queue = key
  · subst same
    rw [if_pos rfl]
    exact messages_put_self m queue _
  · rw [if_neg same, List.append_nil]
    exact messages_put_ne m same _

theorem messages_foldl_append (m : Memory) (message : Message) {recipients : List String}
    (distinct : recipients.Nodup) (queue : String) :
    (recipients.foldl (append message) m).messages queue =
      m.messages queue ++ if queue ∈ recipients then [message] else [] := by
  induction recipients generalizing m with
  | nil => simp
  | cons key rest ih =>
    obtain ⟨absent, distinct⟩ := List.nodup_cons.mp distinct
    rw [List.foldl_cons, ih _ distinct, messages_append, List.append_assoc]
    by_cases same : queue = key
    · subst same
      simp [absent]
    · simp [same]

/-- What a delivery does to every queue: one copy for each that the key reaches, and no more. -/
theorem messages_deliver {m : Memory} (sorted : Ascending m.queues) (key : String) (body : Bytes)
    (queue : String) :
    (m.deliver key body).2.messages queue =
      m.messages queue ++ if m.Reaches key queue then [⟨m.freshId, body⟩] else [] := by
  have delivered :=
    messages_foldl_append { m with issued := m.issued + 1 } ⟨m.freshId, body⟩
      (recipients_nodup sorted key) queue
  simp only [mem_recipients] at delivered
  exact delivered

/-- Without a subscription the message goes to the queue of the key. -/
theorem messages_deliver_self {m : Memory} {key : String}
    (unsubscribed : ∀ other ∈ m.keys, ¬ (subscriptionKey key).toList <+: other.toList)
    (body : Bytes) :
    (m.deliver key body).2.messages key = m.messages key ++ [⟨m.freshId, body⟩] := by
  have alone : m.recipients key = [key] := by
    unfold recipients
    split
    · rfl
    · next some =>
      obtain ⟨first, rest, found⟩ := List.exists_cons_of_ne_nil some
      have member : first ∈ _ := found ▸ List.mem_cons_self
      obtain ⟨present, under⟩ := List.mem_filter.mp member
      exact absurd (List.isPrefixOf_iff_prefix.mp under) (unsubscribed first present)
  have appended := messages_append { m with issued := m.issued + 1 } ⟨m.freshId, body⟩ key key
  rw [if_pos rfl] at appended
  rw [deliver, alone]
  exact appended

/-- A delivery concerns the queues and the count of messages only. -/
theorem deliver_eq (m : Memory) (key : String) (body : Bytes) :
    ∃ queues, (m.deliver key body).2 = { m with queues := queues, issued := m.issued + 1 } := by
  have appended (m : Memory) (message : Message) (keys : List String) :
      ∃ queues, keys.foldl (append message) m = { m with queues := queues } := by
    induction keys generalizing m with
    | nil => exact ⟨m.queues, rfl⟩
    | cons key rest ih =>
      obtain ⟨queues, same⟩ := ih (append message m key)
      exact ⟨queues, same⟩
  exact appended { m with issued := m.issued + 1 } _ _

theorem keys_foldl_append (m : Memory) (message : Message) (recipients : List String)
    {queue : String} :
    queue ∈ (recipients.foldl (append message) m).keys ↔ queue ∈ recipients ∨ queue ∈ m.keys := by
  induction recipients generalizing m with
  | nil => simp
  | cons key rest ih =>
    have appended : queue ∈ (append message m key).keys ↔ queue = key ∨ queue ∈ m.keys :=
      mem_names_put
    rw [List.foldl_cons, ih, appended, List.mem_cons, or_left_comm, or_assoc]

theorem keys_deliver (m : Memory) (key : String) (body : Bytes) {queue : String} :
    queue ∈ (m.deliver key body).2.keys ↔ m.Reaches key queue ∨ queue ∈ m.keys := by
  rw [← mem_recipients]
  exact keys_foldl_append _ _ _

theorem pop?_eq_none_iff {m : Memory} {key : String} : m.pop? key = none ↔ m.messages key = [] := by
  unfold pop?
  split <;> simp_all

theorem pop?_eq_some {m after : Memory} {key : String} {message : Message}
    (h : m.pop? key = some (message, after)) :
    m.messages key = message :: after.messages key ∧
      (∀ queue ≠ key, after.messages queue = m.messages queue) ∧
      after = { m with queues := KeyTable.put key (after.messages key) m.queues } := by
  unfold pop? at h
  split at h
  · cases h
  · next first rest found =>
    cases h
    rw [messages_put_self]
    exact ⟨found, fun queue other => messages_put_ne m other rest, rfl⟩

/-- The address that a connection was opened for. -/
def addressOf? (m : Memory) (c : Connection) : Option String :=
  (m.links[c.number]?).map Link.address

theorem usable_eq_ok {m : Memory} {c : Connection} {address : String}
    (h : m.usable c = .ok address) : m.addressOf? c = some address ∧ m.severed = false := by
  unfold usable at h
  split at h
  · cases h
  · next link found =>
    split at h
    · cases h
    · split at h
      · cases h
      · next whole =>
        cases h
        exact ⟨by rw [addressOf?, found, Option.map_some], eq_false_of_ne_true whole⟩

theorem usable_of_open {m : Memory} {c : Connection} {address : String}
    (found : m.links[c.number]? = some ⟨address, true⟩) (whole : m.severed = false) :
    m.usable c = .ok address := by
  simp [usable, found, whole]

theorem put_eq_ok {m after : Memory} {c : Connection} {destination id : String} {body : Bytes}
    (h : m.put c destination body = (.ok id, after)) :
    ∃ address, m.addressOf? c = some address ∧ m.severed = false ∧
      (id, after) = m.deliver (queueKey address destination) body := by
  unfold put at h
  split at h
  · cases h
  · next address usable =>
    obtain ⟨opened, whole⟩ := usable_eq_ok usable
    obtain ⟨same, rfl⟩ := Prod.mk.inj h
    exact ⟨address, opened, whole, Prod.ext (Except.ok.inj same).symm rfl⟩

theorem put_eq_error {m after : Memory} {c : Connection} {destination : String} {body : Bytes}
    {e : Error} (h : m.put c destination body = (.error e, after)) : after = m := by
  unfold put at h
  split at h <;> cases h
  rfl

theorem declare_eq_ok {m after : Memory} {c : Connection} {destination : String}
    (h : m.declare c destination = (.ok (), after)) :
    ∃ address, m.addressOf? c = some address ∧ m.severed = false ∧
      ∀ queue, queue ∈ after.keys ↔ queue = queueKey address destination ∨ queue ∈ m.keys := by
  unfold declare at h
  split at h
  · cases h
  · next address usable =>
    obtain ⟨opened, whole⟩ := usable_eq_ok usable
    cases h
    exact ⟨address, opened, whole, fun queue => mem_names_put⟩

theorem declare_eq_error {m after : Memory} {c : Connection} {destination : String} {e : Error}
    (h : m.declare c destination = (.error e, after)) : after = m := by
  unfold declare at h
  split at h <;> cases h
  rfl

/-- A declaration adds a queue and nothing to any. -/
theorem messages_declare (m : Memory) (c : Connection) (destination queue : String) :
    (m.declare c destination).2.messages queue = m.messages queue := by
  unfold declare
  split
  · rfl
  · next address _ =>
    by_cases same : queue = queueKey address destination
    · subst same
      exact messages_put_self m _ _
    · exact messages_put_ne m same _

theorem poll_eq_some {m after : Memory} {c : Connection} {destination : String}
    {message : Message} (h : m.poll c destination = (.ok (some message), after)) :
    ∃ address, m.addressOf? c = some address ∧ m.severed = false ∧
      m.pop? (queueKey address destination) = some (message, after) := by
  unfold poll at h
  split at h
  · cases h
  · next address usable =>
    obtain ⟨opened, whole⟩ := usable_eq_ok usable
    split at h <;> cases h
    next popped => exact ⟨address, opened, whole, popped⟩

theorem poll_eq_none {m after : Memory} {c : Connection} {destination : String}
    (h : m.poll c destination = (.ok none, after)) :
    ∃ address, m.addressOf? c = some address ∧ m.severed = false ∧
      m.messages (queueKey address destination) = [] ∧ after = m := by
  unfold poll at h
  split at h
  · cases h
  · next address usable =>
    obtain ⟨opened, whole⟩ := usable_eq_ok usable
    split at h <;> cases h
    next nothing => exact ⟨address, opened, whole, pop?_eq_none_iff.mp nothing, rfl⟩

theorem poll_eq_error {m after : Memory} {c : Connection} {destination : String} {e : Error}
    (h : m.poll c destination = (.error e, after)) : after = m := by
  unfold poll at h
  split at h
  · cases h
    rfl
  · split at h <;> cases h

/-- Connections come and go without any effect on the queues. -/
theorem queues_connect (m : Memory) (target : Target) :
    (m.connect target).2.queues = m.queues := by
  unfold connect
  split
  · rfl
  · split <;> rfl

/-- A new connection leads where it was asked to. -/
theorem connect_eq_ok {m after : Memory} {target : Target} {c : Connection}
    (h : m.connect target = (.ok c, after)) : after.addressOf? c = some target.address := by
  unfold connect at h
  split at h
  · cases h
  · split at h <;> cases h
    simp [addressOf?]

theorem connect_eq_error {m after : Memory} {target : Target} {e : Error}
    (h : m.connect target = (.error e, after)) : after = m := by
  unfold connect at h
  split at h
  · cases h
    rfl
  · split at h <;> cases h
    rfl

theorem queues_close (m : Memory) (c : Connection) : (m.close c).2.queues = m.queues := by
  unfold close
  split
  · rfl
  · split <;> rfl

theorem close_eq_error {m after : Memory} {c : Connection} {e : Error}
    (h : m.close c = (.error e, after)) : after = m := by
  unfold close at h
  split at h
  · cases h
    rfl
  · split at h <;> cases h
    rfl

/-- A call that fails leaves the backend as it was. -/
theorem answer_eq_error {c : Call} {m after : Memory} {e : Error}
    (h : Memory.answer c m = (.error e, after)) : after = m := by
  cases c with
  | connect target => exact connect_eq_error h
  | declare c destination => exact declare_eq_error h
  | put c destination body => exact put_eq_error h
  | get c destination wait => exact poll_eq_error h
  | close c => exact close_eq_error h

/-- Nothing happens in an attempt that could not have been the answer: a `get` only may wait. -/
theorem attempt_eq_answered {c : Call} {m after : Memory} {answer : c.Answer}
    (h : m.attempt c = .answered answer after) : Memory.answer c m = (answer, after) := by
  cases c with
  | get c destination wait =>
    simp only [attempt] at h
    split at h
    · next found =>
      split at h <;> cases h
      exact found
    · next found =>
      cases h
      exact found
  | connect _ | declare _ _ | put _ _ _ | close _ =>
    cases h
    rfl

section Order

variable {m : Memory}

theorem ascending_foldl_append (sorted : Ascending m.queues) (message : Message)
    (recipients : List String) :
    Ascending (recipients.foldl (append message) m).queues := by
  induction recipients generalizing m with
  | nil => exact sorted
  | cons key rest ih => exact ih (m := append message m key) (sorted.put key _)

theorem ascending_deliver (sorted : Ascending m.queues) (key : String) (body : Bytes) :
    Ascending (m.deliver key body).2.queues :=
  ascending_foldl_append (m := { m with issued := m.issued + 1 }) sorted _ _

theorem ascending_pop? (sorted : Ascending m.queues) {key : String} {message : Message}
    {after : Memory} (h : m.pop? key = some (message, after)) : Ascending after.queues := by
  rw [(pop?_eq_some h).2.2]
  exact sorted.put key _

/-- The queues are in the order of their keys after every call. -/
theorem ascending_answer (sorted : Ascending m.queues) (c : Call) :
    Ascending (Memory.answer c m).2.queues := by
  cases c with
  | connect target =>
    change Ascending (m.connect target).2.queues
    rw [queues_connect]
    exact sorted
  | declare c destination =>
    simp only [Memory.answer, declare]
    split
    · exact sorted
    · exact sorted.put _ _
  | put c destination body =>
    simp only [Memory.answer, Memory.put]
    split
    · exact sorted
    · exact ascending_deliver sorted _ body
  | get c destination wait =>
    simp only [Memory.answer, poll]
    split
    · exact sorted
    · split
      · next popped => exact ascending_pop? sorted popped
      · exact sorted
  | close c =>
    change Ascending (m.close c).2.queues
    rw [queues_close]
    exact sorted

end Order

end SessionRelay.Backend.Memory
