import SessionRelay.Proofs.Integration.Reasons
import SessionRelay.Worker.Thread

/-!
What workers report. Whatever a worker is about, and whatever the backend answers meanwhile, its
next report is no failure or says why it is one.
-/

namespace SessionRelay.Worker

open Backend Integration Wire

variable {α : Type}

/-- What is under way can only end in an answer that is forthright. -/
def Phase.Forthright : Phase α → Prop
  | .busy _ dialog => dialog.Ends fun result => result.1.Forthright
  | .paused _ pause => ∀ answer, (pause.next answer).Ends fun result => result.1.Forthright
  | _ => True

def Event.Forthright : Event → Prop
  | .reply _ _ response => response.Forthright
  | .stopped _ => True

/-- A step that reports nothing but forthright answers, and goes on to no other. -/
structure Step.Forthright (step : Step α) : Prop where
  phase : step.thread.phase.Forthright
  events : ∀ e ∈ step.events, e.Forthright

/-- A step that reports nothing. -/
theorem Step.Forthright.quiet {step : Step α} (phase : step.thread.phase.Forthright)
    (events : step.events = []) : step.Forthright := by
  refine ⟨phase, ?_⟩
  rw [events]
  exact List.forall_mem_nil _

namespace Thread

theorem stoppedReply_forthright (identity : String) (job : Job) :
    (stoppedReply identity job).Forthright := by
  refine Response.Forthright.forRequest (Response.forthright_failed identity ?_) _
  repeat first | decide | apply IsPhrase.append

theorem callBackend_forthright (t : Thread α) (s : Surroundings) (job : Job) (c : Call)
    {next : c.Answer → Dialog (Response × Worker α)}
    (h : ∀ answer, (next answer).Ends fun result => result.1.Forthright) :
    (t.callBackend s job c next).Forthright := by
  unfold callBackend
  split
  · next answer backend _ => exact .quiet (h answer) rfl
  · exact .quiet h rfl
  · exact .quiet trivial rfl

variable [Service α]

theorem report_forthright (t : Thread α) (s : Surroundings) (job : Job) {response : Response}
    (forthright : response.Forthright) (w : Worker α) :
    (t.report s job response w).Forthright := by
  unfold report
  split
  · exact .quiet trivial rfl
  · dsimp only
    split
    · exact ⟨trivial, List.forall_mem_singleton.mpr forthright⟩
    · exact ⟨trivial, List.forall_mem_cons.mpr
        ⟨forthright, List.forall_mem_singleton.mpr trivial⟩⟩

variable [Articulate α]

/-- Every step of a worker that is forthright is so, and leaves it so. -/
theorem step_forthright {t : Thread α} {s : Surroundings} {step : Step α}
    (h : t.phase.Forthright) (short : s.moment.elapsed ≤ Integer.maxUnsigned)
    (stepped : t.step? s = some step) : step.Forthright := by
  unfold step? at stepped
  split at stepped
  next =>
    cases stepped
    exact .quiet trivial rfl
  next w ready =>
    split at stepped
    · next job inbox _ =>
      cases stepped
      exact .quiet (w.handle_forthright short job.request) rfl
    · split at stepped <;> cases stepped
      exact .quiet trivial rfl
  next job response w busy =>
    cases stepped
    rw [busy] at h
    exact t.report_forthright s job h w
  next job c next busy =>
    cases stepped
    rw [busy] at h
    exact t.callBackend_forthright s job c h
  next job pause paused =>
    rw [paused] at h
    split at stepped
    · cases stepped
      exact .quiet (h _) rfl
    · split at stepped <;> cases stepped
      exact .quiet (h _) rfl
  next w stopped =>
    split at stepped
    · next job inbox _ =>
      split at stepped
      · cases stepped
        exact ⟨h, List.forall_mem_singleton.mpr (stoppedReply_forthright t.identity job)⟩
      · cases stepped
        exact .quiet trivial rfl
    · split at stepped <;> cases stepped
      exact .quiet trivial rfl
  next =>
    cases stepped
    exact .quiet trivial rfl
  next =>
    split at stepped <;> cases stepped <;> exact .quiet trivial rfl
  next => cases stepped

end Thread

end SessionRelay.Worker
