import SessionRelay.Proofs.Backend.Queues
import SessionRelay.Proofs.Worker.Thread

/-!
Sends own up. A request to send calls the backend at most once, and when the call succeeds the
response says so. A call that fails leaves the backend as it was, so a response that reports a
failure stands for a backend on which nothing was done.
-/

namespace SessionRelay

/-- Does a request ask for a message to be sent? -/
def Wire.Request.IsSend (request : Request) : Prop :=
  request.action = "PUT" ∨ request.action = "SEND"

instance (request : Wire.Request) : Decidable request.IsSend :=
  inferInstanceAs (Decidable (_ ∨ _))

namespace Backend.Dialog

variable {α β : Type}

/-- The first call that succeeds is the last, and what the dialog gives after it satisfies `P`. -/
def OwnsUp (P : α → Prop) : Dialog α → Prop
  | .done _ => True
  | .ask _ next =>
    (∀ value, ∃ a, next (.ok value) = .done a ∧ P a) ∧ ∀ e, (next (.error e)).OwnsUp P

theorem ownsUp_map {P : β → Prop} {f : α → β} {d : Dialog α} (h : d.OwnsUp fun a => P (f a)) :
    (d.map f).OwnsUp P := by
  induction d with
  | done a => trivial
  | ask c next ih =>
    obtain ⟨succeeds, fails⟩ := h
    refine ⟨fun value => ?_, fun e => ih (.error e) (fails e)⟩
    obtain ⟨a, last, owned⟩ := succeeds value
    exact ⟨f a, congrArg (Dialog.map f) last, owned⟩

theorem OwnsUp.imp {P Q : α → Prop} (h : ∀ a, P a → Q a) {d : Dialog α} (hd : d.OwnsUp P) :
    d.OwnsUp Q := by
  induction d with
  | done a => trivial
  | ask c next ih =>
    obtain ⟨succeeds, fails⟩ := hd
    refine ⟨fun value => ?_, fun e => ih (.error e) (fails e)⟩
    obtain ⟨a, last, owned⟩ := succeeds value
    exact ⟨a, last, h a owned⟩

/-- An answer from memory leaves the memory as it was, or ends the dialog with what owns up. -/
theorem OwnsUp.hear {P : α → Prop} {c : Call} {next : c.Answer → Dialog α}
    (h : (Dialog.ask c next).OwnsUp P) {m after : Memory} {answer : c.Answer}
    (answered : Memory.answer c m = (answer, after)) :
    after = m ∧ (next answer).OwnsUp P ∨ ∃ a, next answer = .done a ∧ P a := by
  cases answer with
  | error e => exact Or.inl ⟨Memory.answer_eq_error answered, h.2 e⟩
  | ok value => exact Or.inr (h.1 value)

end Backend.Dialog

namespace Integration

open Backend Wire

/-- An action that owns up makes a response that does. -/
theorem respond_ownsUp {σ : Type} {table : ActionTable σ} {request : Request} {s : σ}
    {moment : Moment}
    (h : ∀ action, table.get? request.action = some action →
      (action moment request s).OwnsUp fun result => result.1.isOk = true)
    (worker : String) :
    (respond table worker moment request s).OwnsUp fun result => result.1.success = true := by
  unfold respond
  split
  · trivial
  · next action found =>
    refine Dialog.ownsUp_map ((h action found).imp ?_)
    rintro ⟨result, after⟩ succeeded
    cases result with
    | ok outcome => exact finished_success moment request _
    | error e => cases succeeded

/-- Services whose sends own up. -/
class Candid (α : Type) [Service α] : Prop where
  handle_ownsUp : ∀ moment request (s : α), request.IsSend →
    (Service.handle moment request s).OwnsUp fun result => result.1.success = true

end Integration

namespace QueueManager.Session

open Backend Integration Wire

theorem put_ownsUp (moment : Moment) (request : Request) (s : Session) :
    (put moment request s).OwnsUp fun result => result.1.isOk = true := by
  unfold put
  split
  · trivial
  · split
    · trivial
    · exact ⟨fun id => ⟨_, rfl, rfl⟩, fun e => trivial⟩

theorem get?_of_isSend {request : Request} (sends : request.IsSend) :
    actions.get? request.action = some put := by
  rcases sends with named | named
  · rw [named]
    rfl
  · rw [named]
    rfl

instance : Candid Session where
  handle_ownsUp moment request s sends := by
    refine respond_ownsUp (fun action found => ?_) s.worker
    rw [get?_of_isSend sends] at found
    cases found
    exact put_ownsUp moment request s

end QueueManager.Session

namespace ServiceBus.Session

open Backend Integration Wire

theorem send_ownsUp (moment : Moment) (request : Request) (s : Session) :
    (send moment request s).OwnsUp fun result => result.1.isOk = true := by
  unfold send
  split
  · trivial
  · trivial
  · exact ⟨fun id => ⟨_, rfl, rfl⟩, fun e => trivial⟩

/-- A namespace has no action `PUT`. -/
theorem eq_send_of_isSend {request : Request} (sends : request.IsSend) {action : Action Session}
    (found : actions.get? request.action = some action) : action = send := by
  rcases sends with named | named
  · rw [named] at found
    cases found
  · rw [named] at found
    cases found
    rfl

instance : Candid Session where
  handle_ownsUp moment request s sends := by
    refine respond_ownsUp (fun action found => ?_) s.worker
    rw [eq_send_of_isSend sends found]
    exact send_ownsUp moment request s

end ServiceBus.Session

namespace Integration

open Backend Wire

instance : Candid Family where
  handle_ownsUp moment request s sends := by
    cases s with
    | queueManager s => exact Dialog.ownsUp_map (Candid.handle_ownsUp moment request s sends)
    | serviceBus s => exact Dialog.ownsUp_map (Candid.handle_ownsUp moment request s sends)

end Integration

namespace Worker

open Backend Integration Wire

variable {α : Type} [Service α] [Candid α]

theorem handle_ownsUp (w : Worker α) (moment : Moment) {request : Request}
    (sends : request.IsSend) :
    (w.handle moment request).2.OwnsUp fun result => result.1.success = true := by
  unfold handle
  split
  · trivial
  · next s entries accepted =>
    exact Dialog.ownsUp_map (Candid.handle_ownsUp moment request s sends)

end Worker

end SessionRelay
