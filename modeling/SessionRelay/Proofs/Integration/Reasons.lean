import SessionRelay.Proofs.Integration.Answers
import SessionRelay.Worker.Basic

/-!
Why requests fail. Every reason is a phrase, whatever it quotes, and so none of them is the one word
by which a caller says that it gave up.
-/

namespace SessionRelay

open Backend Wire

/-! ### Phrases -/

/-- A text of more than one word. -/
def IsPhrase (text : String) : Prop := ' ' ∈ text.toList

instance (text : String) : Decidable (IsPhrase text) :=
  inferInstanceAs (Decidable (' ' ∈ text.toList))

theorem IsPhrase.append {lead : String} (h : IsPhrase lead) (rest : String) :
    IsPhrase (lead ++ rest) := by
  rw [IsPhrase, String.toList_append]
  exact List.mem_append_left _ h

theorem IsPhrase.after {rest : String} (h : IsPhrase rest) (lead : String) :
    IsPhrase (lead ++ rest) := by
  rw [IsPhrase, String.toList_append]
  exact List.mem_append_right _ h

theorem IsPhrase.ne_abort {text : String} (h : IsPhrase text) : text ≠ abortMessage := by
  rintro rfl
  exact absurd h (by decide)

theorem Backend.Error.isPhrase_message (e : Backend.Error) : IsPhrase e.message := by
  cases e <;> repeat first | decide | apply IsPhrase.append

theorem Rfh2.Error.isPhrase_message (e : Rfh2.Error) : IsPhrase e.message := by
  cases e <;> repeat first | decide | apply IsPhrase.append

theorem Integration.Error.isPhrase_message (e : Integration.Error) : IsPhrase e.message := by
  cases e with
  | backend e => exact e.isPhrase_message
  | framing e => exact e.isPhrase_message
  | _ => repeat first | decide | apply IsPhrase.append

theorem Integration.isPhrase_unknownAction (action : String) :
    IsPhrase (Integration.unknownAction action) := by
  have explained : IsPhrase ": AsyncMessageError=\"" := by decide
  exact ((explained.after action).append _).append _

/-- What a worker says of a request that it does not accept. -/
theorem Worker.isPhrase_of_accept {α : Type} {w : Worker α} {request : Request} {reason : String}
    (refused : w.accept request = .error reason) : IsPhrase reason := by
  have unknown (scheme : String) : IsPhrase (Worker.unsupported scheme) := by
    unfold Worker.unsupported
    repeat first | decide | apply IsPhrase.append
  simp only [Worker.accept] at refused
  split at refused
  · cases refused
    repeat first | decide | apply IsPhrase.append
  · split at refused
    · cases refused
      decide
    · split at refused
      · cases refused
        exact unknown _
      · split at refused
        · cases refused
        · split at refused
          · cases refused
          · cases refused
            exact unknown _

/-! ### Responses -/

namespace Wire.Response

/-- A response that, if it is a failure, says why in a phrase and nothing else. -/
structure Forthright (r : Response) : Prop where
  short : r.responseTime ≤ Integer.maxUnsigned
  reason : r.success = false → ∃ reason, IsPhrase reason ∧
    r = { failed r.worker reason with requestId := r.requestId, responseTime := r.responseTime }

theorem forthright_failed (worker : String) {reason : String} (phrase : IsPhrase reason) :
    (failed worker reason).Forthright :=
  ⟨Nat.zero_le _, fun _ => ⟨reason, phrase, rfl⟩⟩

theorem Forthright.forRequest {r : Response} (h : r.Forthright) (requestId : String) :
    (r.forRequest requestId).Forthright := by
  unfold Response.forRequest
  split
  · exact h
  · refine ⟨h.short, fun failure => ?_⟩
    obtain ⟨reason, phrase, same⟩ := h.reason failure
    refine ⟨reason, phrase, ?_⟩
    rw [same]
    rfl

theorem Forthright.withTime {r : Response} (h : r.Forthright) {time : Nat}
    (short : time ≤ Integer.maxUnsigned) : (r.withTime time).Forthright := by
  refine ⟨short, fun failure => ?_⟩
  obtain ⟨reason, phrase, same⟩ := h.reason failure
  refine ⟨reason, phrase, ?_⟩
  rw [same]
  rfl

end Wire.Response

namespace Integration

theorem forthright_responseOf (worker : String) (result : Except Error Outcome) :
    (responseOf worker result).Forthright := by
  cases result with
  | ok outcome => exact ⟨Nat.zero_le _, nofun⟩
  | error e => exact Response.forthright_failed worker e.isPhrase_message

theorem Forthright.finished {moment : Moment} (short : moment.elapsed ≤ Integer.maxUnsigned)
    (request : Request) {r : Response} (h : r.Forthright) :
    (finished moment request r).Forthright :=
  (h.forRequest request.requestId).withTime short

/-- Services that say in a phrase why they fail. -/
class Articulate (α : Type) [Service α] : Prop where
  handle_ends : ∀ moment request (s : α), moment.elapsed ≤ Integer.maxUnsigned →
    (Service.handle moment request s).Ends fun result => result.1.Forthright

/-- Whatever its actions are, and whatever the backend says, a table of them is articulate. -/
theorem respond_forthright {σ : Type} (table : ActionTable σ) (worker : String) {moment : Moment}
    (short : moment.elapsed ≤ Integer.maxUnsigned) (request : Request) (s : σ) :
    (respond table worker moment request s).Ends fun result => result.1.Forthright := by
  unfold respond
  split
  · exact Forthright.finished short request
      (Response.forthright_failed worker (isPhrase_unknownAction _))
  · next action found =>
    rw [Dialog.ends_map]
    have any (d : Dialog (Except Error Outcome × σ)) : d.Ends fun result =>
        (finished moment request (responseOf worker result.1)).Forthright := by
      induction d with
      | done result => exact Forthright.finished short request (forthright_responseOf worker _)
      | ask c next ih => exact ih
    exact any _

instance : Articulate QueueManager.Session where
  handle_ends _ request s short := respond_forthright _ s.worker short request s

instance : Articulate ServiceBus.Session where
  handle_ends _ request s short := respond_forthright _ s.worker short request s

instance : Articulate Family where
  handle_ends moment request s short := by
    cases s with
    | queueManager s => exact Dialog.ends_map.mpr (Articulate.handle_ends moment request s short)
    | serviceBus s => exact Dialog.ends_map.mpr (Articulate.handle_ends moment request s short)

end Integration

theorem Worker.handle_forthright {α : Type} [Integration.Service α] [Integration.Articulate α]
    (w : Worker α) {moment : Integration.Moment} (short : moment.elapsed ≤ Integer.maxUnsigned)
    (request : Request) : (w.handle moment request).2.Ends fun result => result.1.Forthright := by
  unfold Worker.handle
  split
  · next reason refused =>
    exact Integration.Forthright.finished short request
      (Response.forthright_failed w.identity (isPhrase_of_accept refused))
  · next s entries accepted =>
    rw [Dialog.ends_map]
    exact Integration.Articulate.handle_ends moment request s short

end SessionRelay
