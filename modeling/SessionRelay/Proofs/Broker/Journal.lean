import SessionRelay.Broker.Router
import SessionRelay.Proofs.Worker.Thread

/-!
What the broker tells clients. Of the journal, the answers count, and each frame that leaves is the
frame of the answer decided on just before it or of what takes its place.
-/

namespace SessionRelay.Broker

open Wire Worker

/-- The ticket of an answer. -/
def Effect.ticket? : Effect → Option Ticket
  | .answered client response => some (ticketOf client response)
  | _ => none

/-- The tickets that were answered, the last one first. -/
def answered (journal : List Effect) : List Ticket := journal.filterMap Effect.ticket?

/-- Neither an answer nor a frame. -/
def Effect.IsQuiet : Effect → Prop
  | .answered _ _ => False
  | .sent _ _ => False
  | _ => True

/-- The worker of whom an effect takes leave. -/
def Effect.leaves? : Effect → Option String
  | .joined worker => some worker
  | _ => none

/-- The workers that were joined, the last one first. -/
def departed (journal : List Effect) : List String := journal.filterMap Effect.leaves?

/-- Neither an answer nor the leave of a worker. -/
def Effect.IsIncidental : Effect → Prop
  | .answered _ _ => False
  | .joined _ => False
  | _ => True

/-- The answer that was decided on last. -/
def lastAnswer? : List Effect → Option (Nat × Response)
  | [] => none
  | .answered client response :: _ => some (client, response)
  | _ :: older => lastAnswer? older

/-- A response stands for an answer: it is the answer itself, or its substitute if it cannot be
written. -/
def StandsFor (codec : Codec) (answer response : Response) : Prop :=
  response = answer ∨
    ∃ e, codec.encode answer.toValue = .error e ∧ response = substitute answer e

/-- Every frame is that of a response that stands for the last answer before it, and goes to the
client of that answer. -/
def Framed (codec : Codec) : List Effect → Prop
  | [] => True
  | .sent client frame :: older =>
    (∃ answer response, lastAnswer? older = some (client, answer) ∧
      StandsFor codec answer response ∧ codec.encode response.toValue = .ok frame) ∧
    Framed codec older
  | _ :: older => Framed codec older

theorem StandsFor.worker_eq {codec : Codec} {answer response : Response}
    (h : StandsFor codec answer response) : response.worker = answer.worker := by
  rcases h with rfl | ⟨e, -, rfl⟩ <;> rfl

theorem StandsFor.requestId_eq {codec : Codec} {answer response : Response}
    (h : StandsFor codec answer response) : response.requestId = answer.requestId := by
  rcases h with rfl | ⟨e, -, rfl⟩ <;> rfl

theorem Framed.of_sent {codec : Codec} {journal older later : List Effect} {client : Nat}
    {frame : Bytes} (h : Framed codec journal)
    (split : journal = later ++ .sent client frame :: older) :
    ∃ answer response, lastAnswer? older = some (client, answer) ∧
      StandsFor codec answer response ∧ codec.encode response.toValue = .ok frame := by
  subst split
  induction later with
  | nil => exact h.1
  | cons effect rest ih =>
    cases effect with
    | sent client frame => exact ih h.2
    | _ => exact ih h

section Quiet

variable {added : List Effect} (quiet : ∀ e ∈ added, e.IsQuiet) (journal : List Effect)
include quiet

theorem answered_quiet : answered (added ++ journal) = answered journal := by
  induction added with
  | nil => rfl
  | cons effect rest ih =>
    have first := quiet effect List.mem_cons_self
    have same := ih fun e member => quiet e (List.mem_cons_of_mem _ member)
    cases effect with
    | answered client response => exact first.elim
    | _ => exact same

theorem lastAnswer?_quiet : lastAnswer? (added ++ journal) = lastAnswer? journal := by
  induction added with
  | nil => rfl
  | cons effect rest ih =>
    have first := quiet effect List.mem_cons_self
    have same := ih fun e member => quiet e (List.mem_cons_of_mem _ member)
    cases effect with
    | answered client response => exact first.elim
    | _ => exact same

theorem framed_quiet (codec : Codec) : Framed codec (added ++ journal) ↔ Framed codec journal := by
  induction added with
  | nil => rfl
  | cons effect rest ih =>
    have first := quiet effect List.mem_cons_self
    have same := ih fun e member => quiet e (List.mem_cons_of_mem _ member)
    cases effect with
    | sent client frame => exact first.elim
    | _ => exact same

end Quiet

section Incidental

variable {added : List Effect} (incidental : ∀ e ∈ added, e.IsIncidental) (journal : List Effect)
include incidental

theorem departed_incidental : departed (added ++ journal) = departed journal := by
  have nobody : departed added = [] := by
    apply List.filterMap_eq_nil_iff.mpr
    intro e member
    have plain := incidental e member
    cases e <;> simp_all [Effect.leaves?, Effect.IsIncidental]
  rw [departed, List.filterMap_append]
  exact congrArg (· ++ departed journal) nobody

theorem answered_incidental : answered added = [] := by
  apply List.filterMap_eq_nil_iff.mpr
  intro e member
  have plain := incidental e member
  cases e <;> simp_all [Effect.ticket?, Effect.IsIncidental]

end Incidental

namespace Router

variable {α : Type}

/-- Nothing but connections and the journal changes, and what the journal gains is of one kind. -/
def Gains (P : Effect → Prop) (r r' : Router α) : Prop :=
  ∃ connections added, (∀ e ∈ added, P e) ∧
    r' = { r with connections := connections, journal := added ++ r.journal }

section Gains

variable {P : Effect → Prop}

theorem Gains.refl (r : Router α) : r.Gains P r :=
  ⟨r.connections, [], List.forall_mem_nil _, rfl⟩

theorem Gains.trans {r r' r'' : Router α} (h : r.Gains P r') (h' : r'.Gains P r'') :
    r.Gains P r'' := by
  obtain ⟨_, added, old, rfl⟩ := h
  obtain ⟨connections, more, new, rfl⟩ := h'
  refine ⟨connections, more ++ added, ?_, by rw [List.append_assoc]⟩
  intro e member
  rcases List.mem_append.mp member with later | earlier
  · exact new e later
  · exact old e earlier

theorem gains_connections (r : Router α) (connections : List Connection) :
    r.Gains P { r with connections := connections } :=
  ⟨connections, [], List.forall_mem_nil _, rfl⟩

theorem gains_note (r : Router α) {e : Effect} (kind : P e) : r.Gains P (r.note e) :=
  ⟨r.connections, [e], fun _ member => List.mem_singleton.mp member ▸ kind, rfl⟩

theorem gains_log (logs : ∀ entry, P (.log entry)) (r : Router α) (level : Logging.Level)
    (message : String) (details : List (String × Json.Value)) :
    r.Gains P (r.log level message details) :=
  r.gains_note (logs _)

theorem gains_disconnect (closes : ∀ client, P (.closed client)) (r : Router α) (client : Nat) :
    r.Gains P (r.disconnect client) := by
  unfold disconnect
  split
  · exact (r.gains_connections _).trans (gains_note _ (closes client))
  · exact .refl r

theorem gains_giveUp (logs : ∀ entry, P (.log entry)) (closes : ∀ client, P (.closed client))
    (r : Router α) (client : Nat) (reason : String) : r.Gains P (r.giveUp client reason) :=
  (gains_log logs r _ _ _).trans (gains_disconnect closes _ client)

theorem gains_send (logs : ∀ entry, P (.log entry)) (closes : ∀ client, P (.closed client))
    (sends : ∀ client frame, P (.sent client frame)) (r : Router α) (c : Connection)
    (frame : Bytes) : r.Gains P (r.send c frame) := by
  unfold send
  split
  · exact r.gains_note (sends _ _)
  · exact gains_giveUp logs closes r _ _

end Gains

/-- A reply is an answer, and what comes with it is incidental. -/
theorem gains_reply (r : Router α) (client : Nat) (response : Response) :
    (r.note (.answered client response)).Gains Effect.IsIncidental (r.reply client response) := by
  have logs : ∀ entry, Effect.IsIncidental (.log entry) := fun _ => trivial
  have closes : ∀ client, Effect.IsIncidental (.closed client) := fun _ => trivial
  have sends : ∀ client frame, Effect.IsIncidental (.sent client frame) := fun _ _ => trivial
  unfold reply
  dsimp only
  split
  · exact gains_log logs _ _ _ _
  · split
    · exact gains_send logs closes sends _ _ _
    · split
      · exact (gains_log logs _ _ _ _).trans (gains_send logs closes sends _ _ _)
      · exact (gains_log logs _ _ _ _).trans (gains_giveUp logs closes _ _ _)

/-- Nothing but connections and the journal changes, and the journal gains no answer and no
frame. -/
def Silent (r r' : Router α) : Prop :=
  ∃ connections added, (∀ e ∈ added, e.IsQuiet) ∧
    r' = { r with connections := connections, journal := added ++ r.journal }

theorem Silent.refl (r : Router α) : r.Silent r := Gains.refl r

theorem Silent.trans {r r' r'' : Router α} (h : r.Silent r') (h' : r'.Silent r'') :
    r.Silent r'' := Gains.trans h h'

theorem silent_connections (r : Router α) (connections : List Connection) :
    r.Silent { r with connections := connections } := r.gains_connections connections

theorem silent_note (r : Router α) {e : Effect} (quiet : e.IsQuiet) : r.Silent (r.note e) :=
  r.gains_note quiet

theorem silent_log (r : Router α) (level : Logging.Level) (message : String)
    (details : List (String × Json.Value)) : r.Silent (r.log level message details) :=
  r.silent_note trivial

theorem silent_disconnect (r : Router α) (client : Nat) : r.Silent (r.disconnect client) :=
  gains_disconnect (fun _ => trivial) r client

theorem silent_giveUp (r : Router α) (client : Nat) (reason : String) :
    r.Silent (r.giveUp client reason) :=
  gains_giveUp (fun _ => trivial) (fun _ => trivial) r client reason

theorem silent_join (r : Router α) (thread : Thread α) : r.Silent (r.join thread) := by
  have noted := r.silent_note (e := .joined thread.identity) trivial
  unfold join
  dsimp only
  split
  · exact noted.trans (silent_log _ _ _ _)
  · exact noted

theorem silent_foldl {β : Type} {f : Router α → β → Router α}
    (h : ∀ r b, Silent r (f r b)) (items : List β) (r : Router α) :
    r.Silent (items.foldl f r) := by
  induction items generalizing r with
  | nil => exact .refl r
  | cons b rest ih => exact (h r b).trans (ih (f r b))

theorem silent_entries (r : Router α) (entries : List Logging.Entry) :
    r.Silent (entries.foldl (fun r e => r.note (.log e)) r) :=
  silent_foldl (fun r e => r.silent_note (e := .log e) trivial) entries r

/-- Nothing but connections and the journal changes, and the journal gains the tickets, the last
one first. -/
def Answers (r : Router α) (tickets : List Ticket) (r' : Router α) : Prop :=
  ∃ connections journal, r' = { r with connections := connections, journal := journal } ∧
    answered journal = tickets ++ answered r.journal ∧
    (Framed r.setup.codec r.journal → Framed r.setup.codec journal)

theorem Silent.answers {r r' : Router α} (h : r.Silent r') : r.Answers [] r' := by
  obtain ⟨connections, added, quiet, rfl⟩ := h
  exact ⟨connections, added ++ r.journal, rfl, answered_quiet quiet _,
    (framed_quiet quiet _ _).mpr⟩

theorem Answers.trans {r r' r'' : Router α} {tickets more : List Ticket}
    (h : r.Answers tickets r') (h' : r'.Answers more r'') : r.Answers (more ++ tickets) r'' := by
  obtain ⟨_, _, rfl, counted, framed⟩ := h
  obtain ⟨connections, journal, rfl, counted', framed'⟩ := h'
  refine ⟨connections, journal, rfl, ?_, fun before => framed' (framed before)⟩
  rw [counted', counted, List.append_assoc]

/-- An answer was decided on, and no frame has left for it yet. -/
def Decides (r : Router α) (client : Nat) (response : Response) (r' : Router α) : Prop :=
  r.Answers [ticketOf client response] r' ∧ lastAnswer? r'.journal = some (client, response)

theorem decides_note (r : Router α) (client : Nat) (response : Response) :
    r.Decides client response (r.note (.answered client response)) :=
  ⟨⟨r.connections, _, rfl, rfl, id⟩, rfl⟩

theorem Decides.silent {r r' r'' : Router α} {client : Nat} {response : Response}
    (h : r.Decides client response r') (quiet : r'.Silent r'') :
    r.Decides client response r'' := by
  refine ⟨h.1.trans quiet.answers, ?_⟩
  obtain ⟨_, added, none, rfl⟩ := quiet
  exact (lastAnswer?_quiet none _).trans h.2

/-- A frame that stands for the answer may leave. -/
theorem Decides.send {r r' : Router α} {client : Nat} {answer response : Response}
    (h : r.Decides client answer r') {c : Connection} (same : c.client = client)
    {frame : Bytes} (stands : StandsFor r.setup.codec answer response)
    (encoded : r.setup.codec.encode response.toValue = .ok frame) :
    r.Answers [ticketOf client answer] (r'.send c frame) := by
  unfold Router.send
  split
  · obtain ⟨⟨connections, journal, rfl, counted, framed⟩, last⟩ := h
    refine ⟨connections, .sent c.client frame :: journal, rfl, counted, ?_⟩
    intro before
    exact ⟨⟨answer, response, same ▸ last, stands, encoded⟩, framed before⟩
  · exact h.1.trans (silent_giveUp _ _ _).answers

/-- A reply is one answer. -/
theorem reply_answers (r : Router α) (client : Nat) (response : Response) :
    r.Answers [ticketOf client response] (r.reply client response) := by
  have decided := r.decides_note client response
  unfold reply
  dsimp only
  split
  · exact (decided.silent (silent_log _ _ _ _)).1
  · next c found =>
    have same : c.client = client := by
      simpa using List.find?_some found
    split
    · next frame encoded => exact decided.send same (Or.inl rfl) encoded
    · next e refused =>
      have warned := decided.silent (silent_log _ .warn
        "Response could not be encoded, answering with failure"
        [("client_id", .nat client), ("error", .string e.message)])
      split
      · next frame encoded => exact warned.send same (Or.inr ⟨e, refused, rfl⟩) encoded
      · exact (warned.silent (silent_giveUp _ _ _)).1

end Router

end SessionRelay.Broker
