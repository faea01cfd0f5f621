import SessionRelay.Proofs.Backend.Ledger

/-!
Dialogs among others. Between two calls of a dialog anything may be done to the backend, so a dialog
can rely only on what nothing undoes: where a connection leads, and that a queue is there.
-/

namespace SessionRelay.Backend

open KeyTable

/-- Connections lead where they led, and no queue has gone. -/
structure Memory.Grows (before after : Memory) : Prop where
  addresses : ∀ c address, before.addressOf? c = some address → after.addressOf? c = some address
  keys : ∀ queue ∈ before.keys, queue ∈ after.keys

namespace Memory

theorem Grows.refl (m : Memory) : m.Grows m := ⟨fun _ _ h => h, fun _ h => h⟩

theorem Grows.trans {first second third : Memory} (h : first.Grows second)
    (h' : second.Grows third) : first.Grows third where
  addresses c address found := h'.addresses c address (h.addresses c address found)
  keys queue present := h'.keys queue (h.keys queue present)

theorem grows_deliver (m : Memory) (key : String) (body : Bytes) :
    m.Grows (m.deliver key body).2 where
  addresses c address found := by
    obtain ⟨queues, after⟩ := m.deliver_eq key body
    rw [after]
    exact found
  keys queue present := (m.keys_deliver key body).mpr (Or.inr present)

theorem grows_pop? {m after : Memory} {key : String} {message : Message}
    (h : m.pop? key = some (message, after)) : m.Grows after := by
  rw [(pop?_eq_some h).2.2]
  exact ⟨fun _ _ found => found, fun _ present => mem_names_put.mpr (Or.inr present)⟩

/-- A new connection gets a number of its own. -/
theorem grows_connect (m : Memory) (target : Target) : m.Grows (m.connect target).2 := by
  unfold connect
  split
  · exact Grows.refl m
  · split
    · exact Grows.refl m
    · refine ⟨?_, fun _ present => present⟩
      intro c address found
      obtain ⟨link, opened, led⟩ := Option.map_eq_some_iff.mp found
      obtain ⟨inside, -⟩ := List.getElem?_eq_some_iff.mp opened
      rw [addressOf?, List.getElem?_append_left inside, opened, Option.map_some, led]

theorem grows_declare (m : Memory) (c : Connection) (destination : String) :
    m.Grows (m.declare c destination).2 := by
  unfold declare
  split
  · exact Grows.refl m
  · exact ⟨fun _ _ found => found, fun _ present => mem_names_put.mpr (Or.inr present)⟩

/-- A connection that is closed has led to the same address. -/
theorem grows_close (m : Memory) (c : Connection) : m.Grows (m.close c).2 := by
  unfold close
  split
  · exact Grows.refl m
  · next link opened =>
    split
    · refine ⟨?_, fun _ present => present⟩
      intro other address found
      by_cases same : c.number = other.number
      · obtain ⟨inside, -⟩ := List.getElem?_eq_some_iff.mp opened
        rw [addressOf?, ← same, opened, Option.map_some] at found
        rw [addressOf?, ← same, List.getElem?_set_self inside, Option.map_some]
        exact found
      · rw [addressOf?, List.getElem?_set_ne same]
        exact found
    · exact Grows.refl m

theorem grows_answer (m : Memory) (c : Call) : m.Grows (Memory.answer c m).2 := by
  cases c with
  | connect target => exact grows_connect m target
  | declare c destination => exact grows_declare m c destination
  | put c destination body =>
    simp only [Memory.answer, Memory.put]
    split
    · exact Grows.refl m
    · exact grows_deliver m _ body
  | get c destination wait =>
    simp only [Memory.answer, poll]
    split
    · exact Grows.refl m
    · split
      · next popped => exact grows_pop? popped
      · exact Grows.refl m
  | close c => exact grows_close m c

theorem grows_of_answer {m after : Memory} {c : Call} {answer : c.Answer}
    (answered : Memory.answer c m = (answer, after)) : m.Grows after := by
  have grows := m.grows_answer c
  rw [answered] at grows
  exact grows

end Memory

/-- The last call of a dialog, if there was one, moved no message. -/
def Quiet (last : Option Entry) : Prop :=
  last.bind Entry.accepted? = none ∧ last.bind Entry.removed? = none

theorem quiet_none : Quiet none := ⟨rfl, rfl⟩

theorem quiet_of_error (m after : Memory) (c : Call) (e : Error) :
    Quiet (some ⟨m, .answered c (.error e), after⟩) := by
  cases c <;> exact ⟨rfl, rfl⟩

namespace Dialog

variable {α β : Type}

/-- Whatever is done to the backend between its calls, the dialog ends with what goes with the last
of them and the backend after it, and only the last call moves a message. -/
def Holds (P : Option Entry → Memory → α → Prop) : Option Entry → Memory → Dialog α → Prop
  | last, m, .done a => P last m a
  | last, m, .ask c next => Quiet last ∧ ∀ now answer after, m.Grows now →
      Memory.answer c now = (answer, after) →
        Holds P (some ⟨now, .answered c answer, after⟩) after (next answer)

theorem holds_map {P : Option Entry → Memory → β → Prop} {f : α → β} {d : Dialog α}
    {last : Option Entry} {m : Memory} :
    Holds P last m (d.map f) ↔ Holds (fun last m a => P last m (f a)) last m d := by
  induction d generalizing last m with
  | done a => rfl
  | ask c next ih =>
    refine and_congr_right fun _ => ?_
    refine forall_congr' fun now => forall_congr' fun answer => forall_congr' fun after => ?_
    exact imp_congr_right fun _ => imp_congr_right fun _ => ih answer

theorem Holds.imp {P Q : Option Entry → Memory → α → Prop}
    (h : ∀ last m a, P last m a → Q last m a) {d : Dialog α} {last : Option Entry} {m : Memory}
    (hd : Holds P last m d) : Holds Q last m d := by
  induction d generalizing last m with
  | done a => exact h last m a hd
  | ask c next ih =>
    exact ⟨hd.1, fun now answer after grows answered =>
      ih answer (hd.2 now answer after grows answered)⟩

/-- A dialog that waits for an answer does not mind what happens meanwhile. -/
theorem Holds.wait {P : Option Entry → Memory → α → Prop} {c : Call}
    {next : c.Answer → Dialog α} {last : Option Entry} {m now : Memory}
    (h : Holds P last m (.ask c next)) (grows : m.Grows now) : Holds P none now (.ask c next) :=
  ⟨quiet_none, fun later answer after grows' answered =>
    h.2 later answer after (grows.trans grows') answered⟩

end Dialog

end SessionRelay.Backend
