import SessionRelay.Proofs.Integration.Breakage
import SessionRelay.Proofs.Worker.Thread
import SessionRelay.Worker.Solo

/-!
The course of a worker: everything that happens to it and that it does, in order, for any jobs, any
moment at which its inbox is closed, and any answers of the backend. The moves are those of `step?`,
except that a call to the backend may get whatever answer its kind of call can get.
-/

namespace SessionRelay.Worker

open Backend Integration Wire

/-- What happens at a worker. The first two come from outside. `engaged` is a request that enters
the integration, `judged` what the worker finds when it asks whether it may go on, and `released`
the closing of the integration. -/
inductive Happening where
  | handed (job : Job)
  | shut
  | took (job : Job)
  | engaged
  | heard (x : Exchange)
  | judged (usable : Bool)
  | reported (e : Event)
  | released

/-- Is it the worker's own doing? -/
def Happening.isOwn : Happening → Bool
  | .handed _ => false
  | .shut => false
  | _ => true

/-- What the worker did. -/
def own (history : List Happening) : List Happening := history.filter Happening.isOwn

/-- The jobs that were handed over, in order. -/
def handed (history : List Happening) : List Job :=
  history.filterMap fun
    | .handed job => some job
    | _ => none

/-- The events that the worker sent, in order. -/
def reports (history : List Happening) : List Event :=
  history.filterMap fun
    | .reported e => some e
    | _ => none

@[simp] theorem own_append (history more : List Happening) :
    own (history ++ more) = own history ++ own more := List.filter_append ..

@[simp] theorem handed_append (history more : List Happening) :
    handed (history ++ more) = handed history ++ handed more := List.filterMap_append

@[simp] theorem reports_append (history more : List Happening) :
    reports (history ++ more) = reports history ++ reports more := List.filterMap_append

/-- A request that passes the checks enters the integration. -/
def entering {α : Type} (w : Worker α) (request : Request) : List Happening :=
  if (w.accept request).isOk then [.engaged] else []

/-- A worker that leaves closes its integration if it has one. -/
def releasing {α : Type} (w : Worker α) : List Happening :=
  if w.integration.isSome then [.released] else []

namespace Thread

variable {α : Type} [Service α]

/-- A move of a worker to whose reports somebody listens, and what it does in it. -/
inductive Move (t : Thread α) : List Happening → Thread α → Prop where
  | start (w : Worker α) : t.phase = .starting w → t.Move [] { t with phase := .ready w }
  | take (w : Worker α) (job : Job) (inbox : List Job) (moment : Moment) :
    t.phase = .ready w → t.inbox = job :: inbox →
    t.Move (.took job :: entering w job.request)
      { t with phase := .busy job (w.handle moment job.request).2, inbox := inbox }
  | wait (job : Job) (c : Call) (next : c.Answer → Dialog (Response × Worker α)) (deadline : Nat) :
    t.phase = .busy job (.ask c next) →
    t.Move [] { t with phase := .paused job ⟨c, next, deadline⟩ }
  | hear (job : Job) (c : Call) (next : c.Answer → Dialog (Response × Worker α))
    (answer : c.Answer) :
    t.phase = .busy job (.ask c next) →
    t.Move [.heard ⟨c, answer⟩] { t with phase := .busy job (next answer) }
  | resume (job : Job) (pause : Pause (Response × Worker α)) (answer : pause.call.Answer) :
    t.phase = .paused job pause →
    t.Move [.heard ⟨pause.call, answer⟩] { t with phase := .busy job (pause.next answer) }
  | goOn (job : Job) (response : Response) (w : Worker α) :
    t.phase = .busy job (.done (response, w)) → w.isUsable = true →
    t.Move [.judged true, .reported (.reply t.identity job.client response)]
      { t with phase := .ready w }
  | stop (job : Job) (response : Response) (w : Worker α) :
    t.phase = .busy job (.done (response, w)) → w.isUsable = false →
    t.Move [.judged false, .reported (.reply t.identity job.client response),
        .reported (.stopped t.identity)]
      { t with phase := .stopped w }
  | refuse (w : Worker α) (job : Job) (inbox : List Job) :
    t.phase = .stopped w → t.inbox = job :: inbox →
    t.Move [.took job, .reported (stoppedReply t.identity job)] { t with inbox := inbox }
  | leave (w : Worker α) :
    t.phase = .ready w → t.inbox = [] → t.inboxOpen = false →
    t.Move (releasing w) { t with phase := leave w }
  | leaveStopped (w : Worker α) :
    t.phase = .stopped w → t.inbox = [] → t.inboxOpen = false →
    t.Move (releasing w) { t with phase := leave w }
  | hearClosing (c : Call) (next : c.Answer → Dialog (Worker α)) (answer : c.Answer) :
    t.phase = .closing (.ask c next) →
    t.Move [.heard ⟨c, answer⟩] { t with phase := .closing (next answer) }
  | finish (w : Worker α) : t.phase = .closing (.done w) → t.Move [] (t.endWith true)

/-- Every step of a worker that does not crash is a move, and sends what the move sends. -/
theorem step?_move {t : Thread α} {s : Surroundings} {step : Step α}
    (listened : s.listened = true) (alive : step.thread.crashed = false)
    (stepped : t.step? s = some step) :
    ∃ more, t.Move more step.thread ∧ reports more = step.events := by
  unfold step? at stepped
  split at stepped
  next w hp =>
    cases stepped
    exact ⟨_, .start w hp, rfl⟩
  next w hp =>
    split at stepped
    · next job inbox waiting =>
      cases stepped
      refine ⟨_, .take w job inbox s.moment hp waiting, ?_⟩
      simp only [entering]
      split <;> rfl
    · next waiting =>
      split at stepped
      · cases stepped
      · next shut =>
        cases stepped
        refine ⟨_, .leave w hp waiting (by simpa using shut), ?_⟩
        simp only [releasing]
        split <;> rfl
  next job response w hp =>
    cases stepped
    unfold report
    simp only [listened, Bool.not_true, Bool.false_eq_true, if_false]
    split
    · next usable => exact ⟨_, .goOn job response w hp usable, rfl⟩
    · next unusable => exact ⟨_, .stop job response w hp (by simpa using unusable), rfl⟩
  next job c next hp =>
    cases stepped
    revert alive
    unfold callBackend
    split
    · next answer backend begun =>
      intro _
      exact ⟨_, .hear job c next answer hp, rfl⟩
    · intro _
      exact ⟨_, .wait job c next _ hp, rfl⟩
    · intro alive
      cases alive
  next job pause hp =>
    split at stepped
    · next answer backend resumed =>
      cases stepped
      exact ⟨_, .resume job pause answer hp, rfl⟩
    · split at stepped
      · cases stepped
        exact ⟨_, .resume job pause _ hp, rfl⟩
      · cases stepped
  next w hp =>
    split at stepped
    · next job inbox waiting =>
      rw [listened] at stepped
      cases stepped
      exact ⟨_, .refuse w job inbox hp waiting, rfl⟩
    · next waiting =>
      split at stepped
      · cases stepped
      · next shut =>
        cases stepped
        refine ⟨_, .leaveStopped w hp waiting (by simpa using shut), ?_⟩
        simp only [releasing]
        split <;> rfl
  next w hp =>
    cases stepped
    exact ⟨_, .finish w hp, rfl⟩
  next c next hp =>
    split at stepped
    · next answer backend begun =>
      cases stepped
      exact ⟨_, .hearClosing c next answer hp, rfl⟩
    · cases stepped
      exact ⟨_, .hearClosing c next _ hp, rfl⟩
    · cases stepped
      cases alive
  next => cases stepped

/-- A worker that cannot step, whatever the time and the backend, has ended, or waits for a job. -/
theorem finished_or_idle {t : Thread α}
    (stuck : ∀ s : Surroundings, s.listened = true → t.step? s = none) :
    t.isFinished = true ∨ t.unanswered = [] ∧ t.inboxOpen = true := by
  have still := stuck ⟨.empty, t.deadline?.getD 0, default, true⟩ rfl
  unfold step? at still
  split at still
  next => cases still
  next w hp =>
    split at still
    · cases still
    · next empty =>
      split at still
      · next inboxOpen =>
        refine Or.inr ⟨?_, inboxOpen⟩
        rw [unanswered, hp]
        exact empty
      · cases still
  next => cases still
  next => cases still
  next job pause hp =>
    split at still
    · cases still
    · next waits =>
      have due : t.deadline?.getD 0 = pause.deadline := by
        rw [deadline?, hp]
        rfl
      rw [due] at still
      simp at still
  next w hp =>
    split at still
    · cases still
    · next empty =>
      split at still
      · next inboxOpen =>
        refine Or.inr ⟨?_, inboxOpen⟩
        rw [unanswered, hp]
        exact empty
      · cases still
  next => cases still
  next =>
    split at still
    · cases still
    · cases still
    · cases still
  next clean lost hp =>
    left
    rw [isFinished, hp]

/-- One thread comes out of another by a move. -/
def Follows (t' t : Thread α) : Prop := ∃ more, t.Move more t'

/-- What may happen to a worker up to some moment: it is handed jobs, its inbox is closed, and it
moves. -/
inductive Course (first : Thread α) : List Happening → Thread α → Prop where
  | start : Course first [] first
  | handed {history : List Happening} {t t' : Thread α} {job : Job} :
    Course first history t → t.dispatch? job = some t' →
    Course first (history ++ [.handed job]) t'
  | shut {history : List Happening} {t : Thread α} :
    Course first history t → t.inboxOpen = true → Course first (history ++ [.shut]) t.retire
  | moved {history more : List Happening} {t t' : Thread α} :
    Course first history t → t.Move more t' → Course first (history ++ more) t'

theorem step?_of_crashed {t : Thread α} (crashed : t.crashed = true) (s : Surroundings) :
    t.step? s = none := by
  unfold Thread.crashed at crashed
  split at crashed
  · next hp =>
    unfold step?
    rw [hp]
  · cases crashed

theorem settle_of_crashed {solo : Solo α} (crashed : solo.thread.crashed = true) (fuel : Nat) :
    solo.settle fuel = solo := by
  cases fuel with
  | zero => rfl
  | succ fuel => rw [Solo.settle, step?_of_crashed crashed]

/-- A worker by itself moves on its course, as long as it does not crash. -/
theorem Course.settle {first : Thread α} (fuel : Nat) (history : List Happening) (solo : Solo α)
    (course : Course first history solo.thread) (listened : solo.listened = true)
    (alive : (solo.settle fuel).thread.crashed = false) :
    ∃ more, Course first (history ++ more) (solo.settle fuel).thread ∧
      (solo.settle fuel).events = solo.events ++ reports more := by
  induction fuel generalizing history solo with
  | zero =>
    refine ⟨[], ?_, (List.append_nil _).symm⟩
    rw [List.append_nil]
    exact course
  | succ fuel ih =>
    unfold Solo.settle at alive ⊢
    split at alive
    · refine ⟨[], ?_, (List.append_nil _).symm⟩
      rw [List.append_nil]
      exact course
    · next step stepped =>
      have survived : step.thread.crashed = false := by
        cases crashed : step.thread.crashed with
        | false => rfl
        | true =>
          rw [settle_of_crashed crashed, crashed] at alive
          cases alive
      obtain ⟨more, move, sent⟩ := step?_move listened survived stepped
      let next : Solo α :=
        { solo with
          thread := step.thread
          backend := step.backend
          events := solo.events ++ step.events
          entries := solo.entries ++ step.entries }
      obtain ⟨later, whole, all⟩ :=
        ih (history ++ more) next (course.moved move) listened alive
      refine ⟨more ++ later, by simpa using whole, ?_⟩
      rw [all, reports_append, sent, List.append_assoc]

end Thread

end SessionRelay.Worker
