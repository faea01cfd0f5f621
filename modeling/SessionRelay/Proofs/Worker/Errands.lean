import SessionRelay.Proofs.Integration.Sends

/-!
The errands of a worker: the jobs that it took, with what each step made for a job did to the
backend and with the answer. All but the last are answered, and an errand that was to send a message
and is answered with a failure did nothing to the backend.
-/

namespace SessionRelay

open Backend Integration Wire

namespace Backend.Dialog

/-- An answer of a rehearsal leaves the memory as it was, or ends the dialog with what owns up. A
failure that was planned never gets as far as the memory. -/
theorem OwnsUp.begin {α : Type} {P : α → Prop} {c : Call} {next : c.Answer → Dialog α}
    (h : (Dialog.ask c next).OwnsUp P) {r after : Rehearsal} {answer : c.Answer}
    (begun : r.begin c = .answered answer after) :
    after.memory = r.memory ∧ (next answer).OwnsUp P ∨ ∃ a, next answer = .done a ∧ P a := by
  unfold Rehearsal.begin Rehearsal.takePlanned at begun
  dsimp only at begun
  split at begun
  · cases begun
    exact Or.inl ⟨rfl, h.2 _⟩
  · cases begun
  · split at begun
    · next attempted =>
      have answered := Memory.attempt_eq_answered attempted
      cases begun
      have noted (r : Rehearsal) : (r.noteStored c answer).memory = r.memory := by
        unfold Rehearsal.noteStored
        split <;> rfl
      rw [noted]
      exact h.hear answered
    · cases begun

end Backend.Dialog

theorem Backend.Rehearsal.memory_of_waiting {c : Call} {r after : Rehearsal}
    (waits : r.begin c = .waiting after) : after.memory = r.memory := by
  unfold Rehearsal.begin Rehearsal.takePlanned at waits
  dsimp only at waits
  split at waits
  · cases waits
  · cases waits
  · split at waits
    · cases waits
    · cases waits
      rfl

theorem Backend.Rehearsal.answer_of_resume? {c : Call} {r after : Rehearsal} {answer : c.Answer}
    (resumed : r.resume? c = some (answer, after)) :
    Memory.answer c r.memory = (answer, after.memory) := by
  unfold Rehearsal.resume? at resumed
  split at resumed
  · next attempted =>
    cases resumed
    exact Memory.attempt_eq_answered attempted
  · cases resumed

namespace Worker

/-- A job that a worker took: the memory of the backend before and after each step that was made for
it, the last one first, and the answer if it was given. -/
structure Errand where
  job : Job
  steps : List (Memory × Memory)
  answer : Option Response

namespace Errand

/-- Nothing that was done for the job did anything to the backend. -/
def IsHarmless (e : Errand) : Prop := ∀ step ∈ e.steps, step.2 = step.1

/-- What was to be sent and is answered with a failure did nothing to the backend. -/
def IsCandid (e : Errand) : Prop :=
  e.job.request.IsSend → ∀ response, e.answer = some response → response.success = false →
    e.IsHarmless

/-- Another step for the job, and the answer if the step gives it. -/
def add (step : Memory × Memory) (answer : Option Response) (e : Errand) : Errand :=
  { e with steps := step :: e.steps, answer := answer }

end Errand

/-- The answer among the events of a step. -/
def answerIn? (events : List Event) : Option Response :=
  events.findSome? fun
    | .reply _ _ response => some response
    | .stopped _ => none

/-- The answers of a worker among events, with the clients that they are for. -/
def repliesFrom (worker : String) (events : List Event) : List (Nat × Response) :=
  events.filterMap fun
    | .reply w client response => if w = worker then some (client, response) else none
    | .stopped _ => none

@[simp] theorem repliesFrom_append (worker : String) (events more : List Event) :
    repliesFrom worker (events ++ more) = repliesFrom worker events ++ repliesFrom worker more :=
  List.filterMap_append

/-- The answers that were given, the last errand first. -/
def answersGiven (errands : List Errand) : List (Nat × Response) :=
  errands.filterMap fun e => e.answer.map fun response => (e.job.client, response)

/-- All jobs are answered, and candidly. -/
def AllAnswered (errands : List Errand) : Prop := ∀ e ∈ errands, e.answer.isSome = true ∧ e.IsCandid

/-- All jobs are answered, but perhaps the last, which is not answered yet. -/
inductive InOrder : List Errand → Prop where
  | settled {errands : List Errand} : AllAnswered errands → InOrder errands
  | underway {errands : List Errand} (job : Job) (steps : List (Memory × Memory)) :
    AllAnswered errands → InOrder (⟨job, steps, none⟩ :: errands)

theorem AllAnswered.cons {errands : List Errand} (h : AllAnswered errands) {e : Errand}
    (answered : e.answer.isSome = true) (candid : e.IsCandid) : AllAnswered (e :: errands) := by
  intro other member
  rcases List.mem_cons.mp member with rfl | earlier
  · exact ⟨answered, candid⟩
  · exact h other earlier

/-- If all are answered, each answer stands where its errand does. -/
theorem AllAnswered.answersGiven_eq {errands : List Errand} (h : AllAnswered errands) :
    (answersGiven errands).map some =
      errands.map fun e => e.answer.map fun response => (e.job.client, response) := by
  induction errands with
  | nil => rfl
  | cons e rest ih =>
    obtain ⟨response, answered⟩ := Option.isSome_iff_exists.mp (h e List.mem_cons_self).1
    have later := ih fun other member => h other (List.mem_cons_of_mem _ member)
    simp only [answersGiven, List.filterMap_cons, answered, Option.map_some, List.map_cons]
    exact congrArg (_ :: ·) later

theorem InOrder.isCandid {errands : List Errand} (h : InOrder errands) :
    ∀ e ∈ errands, e.IsCandid := by
  cases h with
  | settled all => exact fun e member => (all e member).2
  | underway job steps all =>
    intro e member
    rcases List.mem_cons.mp member with rfl | earlier
    · intro _ response none
      cases none
    · exact (all e earlier).2

/-- The answers come in the order of the errands: the answer at a place is that of the errand
there. -/
theorem InOrder.getElem?_answersGiven {errands : List Errand} (h : InOrder errands) {n : Nat}
    {client : Nat} {response : Response} (answer : (answersGiven errands).reverse[n]? = some (client, response)) :
    ∃ e, errands.reverse[n]? = some e ∧ e.job.client = client ∧ e.answer = some response := by
  have settled {errands : List Errand} (all : AllAnswered errands)
      (answer : (answersGiven errands).reverse[n]? = some (client, response)) :
      ∃ e, errands.reverse[n]? = some e ∧ e.job.client = client ∧ e.answer = some response := by
    have same := congrArg (fun l => l.reverse[n]?) all.answersGiven_eq
    simp only [← List.map_reverse, List.getElem?_map, answer, Option.map_some] at same
    obtain ⟨e, there, found⟩ := Option.map_eq_some_iff.mp same.symm
    obtain ⟨response', answered, equal⟩ := Option.map_eq_some_iff.mp found
    cases equal
    exact ⟨e, there, rfl, answered⟩
  cases h with
  | settled all => exact settled all answer
  | @underway errands job steps all =>
    obtain ⟨e, there, fits⟩ := settled all answer
    obtain ⟨inside, -⟩ := List.getElem?_eq_some_iff.mp there
    refine ⟨e, ?_, fits⟩
    rw [List.reverse_cons, List.getElem?_append_left inside]
    exact there

variable {α : Type}

/-- Nothing was done so far for a job to send, and what is left to do owns up; or the job is done,
and its response owns up. -/
def Tracks (job : Job) (steps : List (Memory × Memory)) (dialog : Dialog (Response × Worker α)) :
    Prop :=
  job.request.IsSend →
    (∀ step ∈ steps, step.2 = step.1) ∧ dialog.OwnsUp (fun result => result.1.success = true) ∨
    ∃ result, dialog = .done result ∧ result.1.success = true

section Tracks

variable {job : Job} {steps : List (Memory × Memory)}

/-- A step that does nothing to the backend and does not go on with the job. -/
theorem Tracks.wait {dialog : Dialog (Response × Worker α)} (h : Tracks job steps dialog)
    {m after : Memory} (same : after = m) : Tracks job ((m, after) :: steps) dialog := by
  intro sends
  refine (h sends).imp_left fun ⟨harmless, owns⟩ => ⟨?_, owns⟩
  exact List.forall_mem_cons.mpr ⟨same, harmless⟩

section Calls

variable {c : Call} {next : c.Answer → Dialog (Response × Worker α)} {answer : c.Answer}

/-- A call is answered, and either did nothing to the backend or the response owns up. -/
theorem Tracks.goOn {m after : Memory} (h : Tracks job steps (.ask c next))
    (answered : (Dialog.ask c next).OwnsUp (fun result => result.1.success = true) →
      after = m ∧ (next answer).OwnsUp (fun result => result.1.success = true) ∨
        ∃ result, next answer = .done result ∧ result.1.success = true) :
    Tracks job ((m, after) :: steps) (next answer) := by
  intro sends
  rcases h sends with ⟨harmless, owns⟩ | ⟨result, ended, -⟩
  · refine (answered owns).imp_left fun ⟨same, left⟩ => ⟨?_, left⟩
    exact List.forall_mem_cons.mpr ⟨same, harmless⟩
  · cases ended

theorem Tracks.begin {r after : Rehearsal} (h : Tracks job steps (.ask c next))
    (begun : r.begin c = .answered answer after) :
    Tracks job ((r.memory, after.memory) :: steps) (next answer) :=
  h.goOn fun owns => owns.begin begun

theorem Tracks.hear {m after : Memory} (h : Tracks job steps (.ask c next))
    (answered : Memory.answer c m = (answer, after)) :
    Tracks job ((m, after) :: steps) (next answer) :=
  h.goOn fun owns => owns.hear answered

end Calls

/-- A job that is done has been candid. -/
theorem Tracks.isCandid {response : Response} {w : Worker α}
    (h : Tracks job steps (.done (response, w))) :
    Errand.IsCandid ⟨job, steps, some response⟩ := by
  intro sends other same failed
  cases same
  rcases h sends with ⟨harmless, -⟩ | ⟨result, ended, succeeded⟩
  · exact harmless
  · cases ended
    rw [failed] at succeeded
    cases succeeded

end Tracks

/-- The errands of a worker fit what it is about: the last one is the job at hand. -/
def Phase.Fits (errands : List Errand) : Phase α → Prop
  | .busy job dialog => ∃ steps earlier, errands = ⟨job, steps, none⟩ :: earlier ∧
    AllAnswered earlier ∧ Tracks job steps dialog
  | .paused job pause => ∃ steps earlier, errands = ⟨job, steps, none⟩ :: earlier ∧
    AllAnswered earlier ∧ Tracks job steps (.ask pause.call pause.next)
  | .ended _ _ => InOrder errands
  | _ => AllAnswered errands

theorem Phase.Fits.inOrder {phase : Phase α} {errands : List Errand} (h : phase.Fits errands) :
    InOrder errands := by
  cases phase with
  | busy job dialog =>
    obtain ⟨steps, earlier, rfl, all, -⟩ := h
    exact .underway job steps all
  | paused job pause =>
    obtain ⟨steps, earlier, rfl, all, -⟩ := h
    exact .underway job steps all
  | ended clean lost => exact h
  | starting w => exact .settled h
  | ready w => exact .settled h
  | stopped w => exact .settled h
  | closing dialog => exact .settled h

/-- A worker in this phase and with this inbox has no job to go on with. -/
def Phase.IsIdle (inbox : List Job) : Phase α → Prop
  | .busy _ _ => False
  | .paused _ _ => False
  | .ready _ => inbox = []
  | .stopped _ => inbox = []
  | _ => True

namespace Thread

/-- The errands of a worker after a step: it takes the first job of its inbox, or goes on with the
one at hand. -/
def errandsAfter (t : Thread α) (s : Surroundings) (step : Step α) (errands : List Errand) :
    List Errand :=
  let change := (s.backend.memory, step.backend.memory)
  let answer := answerIn? step.events
  match t.phase, errands with
  | .ready _, errands => (t.inbox.head?.map fun job => ⟨job, [change], answer⟩).toList ++ errands
  | .stopped _, errands => (t.inbox.head?.map fun job => ⟨job, [change], answer⟩).toList ++ errands
  | .busy _ _, e :: earlier => e.add change answer :: earlier
  | .paused _ _, e :: earlier => e.add change answer :: earlier
  | _, errands => errands

/-- A worker with its errands goes on to another with more: the jobs move from the inbox to the
errands, and the answers that are given are those that are reported. -/
structure Goes (t : Thread α) (errands : List Errand) (events : List Event) (t' : Thread α)
    (errands' : List Errand) : Prop where
  fits : t'.phase.Fits errands'
  jobs : ∃ left, (errands.map Errand.job).reverse ++ t.inbox =
    (errands'.map Errand.job).reverse ++ left ∧ (t'.isFinished = false → left = t'.inbox)
  answers : answersGiven errands' = (repliesFrom t.identity events).reverse ++ answersGiven errands
  others : ∀ worker, worker ≠ t.identity → repliesFrom worker events = []

variable {t t' : Thread α} {errands errands' : List Errand} {events : List Event}

/-- A step that takes no job and reports nothing. -/
theorem Goes.quiet (fits : t'.phase.Fits errands)
    (inbox : t'.isFinished = false → t.inbox = t'.inbox) : t.Goes errands [] t' errands :=
  ⟨fits, ⟨t.inbox, rfl, inbox⟩, rfl, fun _ _ => rfl⟩

/-- A step for the job at hand that does not answer it. -/
theorem Goes.working {job : Job} {steps : List (Memory × Memory)} {change : Memory × Memory}
    (fits : t'.phase.Fits (⟨job, change :: steps, none⟩ :: errands))
    (inbox : t'.isFinished = false → t.inbox = t'.inbox) :
    t.Goes (⟨job, steps, none⟩ :: errands) [] t' (⟨job, change :: steps, none⟩ :: errands) :=
  ⟨fits, ⟨t.inbox, rfl, inbox⟩, rfl, fun _ _ => rfl⟩

/-- Events that answer one job in the name of the worker. -/
theorem repliesFrom_reply (worker : String) (client : Nat) (response : Response) {more : List Event}
    (quiet : ∀ worker, repliesFrom worker more = []) :
    repliesFrom worker (.reply worker client response :: more) = [(client, response)] ∧
      ∀ other, other ≠ worker → repliesFrom other (.reply worker client response :: more) = [] := by
  refine ⟨?_, ?_⟩
  · rw [← List.singleton_append, repliesFrom_append, quiet]
    simp [repliesFrom]
  · intro other different
    rw [← List.singleton_append, repliesFrom_append, quiet]
    simp [repliesFrom, Ne.symm different]

/-- A step that answers the job at hand. -/
theorem Goes.answering {job : Job} {steps : List (Memory × Memory)} {change : Memory × Memory}
    {response : Response} {more : List Event}
    (fits : t'.phase.Fits (⟨job, change :: steps, some response⟩ :: errands))
    (inbox : t'.inbox = t.inbox) (quiet : ∀ worker, repliesFrom worker more = []) :
    t.Goes (⟨job, steps, none⟩ :: errands) (.reply t.identity job.client response :: more) t'
      (⟨job, change :: steps, some response⟩ :: errands) := by
  obtain ⟨own, others⟩ := repliesFrom_reply t.identity job.client response quiet
  refine ⟨fits, ⟨t.inbox, rfl, fun _ => inbox.symm⟩, ?_, others⟩
  rw [own]
  rfl

/-- A worker takes the first job of its inbox. -/
theorem Goes.taking {job : Job} {rest : List Job} {change : Memory × Memory}
    (waiting : t.inbox = job :: rest) (fits : t'.phase.Fits (⟨job, [change], none⟩ :: errands))
    (inbox : t'.inbox = rest) : t.Goes errands [] t' (⟨job, [change], none⟩ :: errands) := by
  refine ⟨fits, ⟨rest, ?_, fun _ => inbox.symm⟩, rfl, fun _ _ => rfl⟩
  rw [waiting, List.map_cons, List.reverse_cons, List.append_assoc]
  rfl

/-- A worker that has stopped refuses the first job of its inbox. -/
theorem Goes.refusing {job : Job} {rest : List Job} {change : Memory × Memory}
    {response : Response} (waiting : t.inbox = job :: rest)
    (fits : t'.phase.Fits (⟨job, [change], some response⟩ :: errands)) (inbox : t'.inbox = rest) :
    t.Goes errands [.reply t.identity job.client response] t'
      (⟨job, [change], some response⟩ :: errands) := by
  have quiet (worker : String) : repliesFrom worker [] = [] := rfl
  obtain ⟨own, others⟩ := repliesFrom_reply t.identity job.client response quiet
  refine ⟨fits, ⟨rest, ?_, fun _ => inbox.symm⟩, ?_, others⟩
  · rw [waiting, List.map_cons, List.reverse_cons, List.append_assoc]
    rfl
  · rw [own]
    rfl

section Steps

variable {s : Surroundings}

/-- A step of a worker that has no job to go on with. -/
theorem goes_idle {phase : Phase α} {step : Step α} (hp : t.phase = phase)
    (idle : phase.IsIdle t.inbox) (fits : t'.phase.Fits errands)
    (inbox : t'.isFinished = false → t.inbox = t'.inbox) :
    t.Goes errands [] t' (t.errandsAfter s step errands) := by
  have same : t.errandsAfter s step errands = errands := by
    unfold errandsAfter
    rw [hp]
    cases phase with
    | ready w => rw [show t.inbox = [] from idle]; rfl
    | stopped w => rw [show t.inbox = [] from idle]; rfl
    | busy job dialog => cases idle
    | paused job pause => cases idle
    | starting w => rfl
    | closing dialog => rfl
    | ended clean lost => rfl
  rw [same]
  exact .quiet fits inbox

theorem goes_callBackend {job : Job} {c : Call} {next : c.Answer → Dialog (Response × Worker α)}
    (hp : t.phase = .busy job (.ask c next)) (fits : t.phase.Fits errands) :
    t.Goes errands (t.callBackend s job c next).events (t.callBackend s job c next).thread
      (t.errandsAfter s (t.callBackend s job c next) errands) := by
  rw [hp] at fits
  obtain ⟨steps, earlier, rfl, all, tracks⟩ := fits
  unfold errandsAfter Thread.callBackend
  rw [hp]
  split
  · next answer backend begun =>
    exact .working ⟨_, _, rfl, all, tracks.begin begun⟩ fun _ => rfl
  · next backend waits =>
    exact .working ⟨_, _, rfl, all, tracks.wait (Rehearsal.memory_of_waiting waits)⟩ fun _ => rfl
  · exact .working (.underway _ _ all) nofun

/-- A wait that is over goes on with the job. -/
theorem goes_resume {job : Job} {pause : Pause (Response × Worker α)}
    (hp : t.phase = .paused job pause) (fits : t.phase.Fits errands) {answer : pause.call.Answer}
    {backend : Rehearsal}
    (answered : Memory.answer pause.call s.backend.memory = (answer, backend.memory)) :
    t.Goes errands [] { t with phase := .busy job (pause.next answer) }
      (t.errandsAfter s
        ⟨{ t with phase := .busy job (pause.next answer) }, backend, [], []⟩ errands) := by
  rw [hp] at fits
  obtain ⟨steps, earlier, rfl, all, tracks⟩ := fits
  unfold errandsAfter
  rw [hp]
  exact .working ⟨_, _, rfl, all, tracks.hear answered⟩ fun _ => rfl

theorem goes_refuse {w : Worker α} {job : Job} {inbox : List Job}
    (hp : t.phase = .stopped w) (waiting : t.inbox = job :: inbox) (fits : t.phase.Fits errands) :
    t.Goes errands [stoppedReply t.identity job] { t with inbox := inbox }
      (t.errandsAfter s
        ⟨{ t with inbox := inbox }, s.backend, [], [stoppedReply t.identity job]⟩ errands) := by
  have all : AllAnswered errands := by
    rw [hp] at fits
    exact fits
  unfold errandsAfter
  rw [hp, waiting]
  refine .refusing waiting (all.cons rfl ?_) rfl
  intro _ _ _ _
  exact List.forall_mem_singleton.mpr rfl

variable [Service α]

theorem goes_report (listened : s.listened = true) {job : Job} {response : Response} {w : Worker α}
    (hp : t.phase = .busy job (.done (response, w))) (fits : t.phase.Fits errands) :
    t.Goes errands (t.report s job response w).events (t.report s job response w).thread
      (t.errandsAfter s (t.report s job response w) errands) := by
  rw [hp] at fits
  obtain ⟨steps, earlier, rfl, all, tracks⟩ := fits
  have answered : AllAnswered
      (⟨job, (s.backend.memory, s.backend.memory) :: steps, some response⟩ :: earlier) :=
    all.cons rfl (tracks.wait rfl).isCandid
  unfold errandsAfter Thread.report
  rw [hp, listened]
  simp only [Bool.not_true, Bool.false_eq_true, if_false]
  split
  · exact .answering answered rfl fun _ => rfl
  · exact .answering answered rfl fun _ => rfl

variable [Candid α]

theorem goes_take {w : Worker α} {job : Job} {inbox : List Job} {entries : List Logging.Entry}
    (hp : t.phase = .ready w) (waiting : t.inbox = job :: inbox) (fits : t.phase.Fits errands)
    (moment : Moment) :
    t.Goes errands [] { t with phase := .busy job (w.handle moment job.request).2, inbox := inbox }
      (t.errandsAfter s ⟨{ t with
        phase := .busy job (w.handle moment job.request).2, inbox := inbox }, s.backend, entries, []⟩
        errands) := by
  rw [hp] at fits
  unfold errandsAfter
  rw [hp, waiting]
  refine .taking waiting ⟨_, _, rfl, fits, ?_⟩ rfl
  intro sends
  exact Or.inl ⟨List.forall_mem_singleton.mpr rfl, w.handle_ownsUp moment sends⟩

omit [Candid α] in
/-- A worker that makes a step has not ended. -/
theorem running_of_step {step : Step α} (stepped : t.step? s = some step) :
    t.isFinished = false := by
  unfold isFinished
  split
  · next clean lost phase =>
    unfold step? at stepped
    rw [phase] at stepped
    cases stepped
  · rfl

/-- Every step of a worker goes on with its errands. -/
theorem goes_step (listened : s.listened = true) (fits : t.phase.Fits errands)
    {step : Step α} (stepped : t.step? s = some step) :
    t.Goes errands step.events step.thread (t.errandsAfter s step errands) := by
  unfold step? at stepped
  split at stepped
  next w hp =>
    cases stepped
    rw [hp] at fits
    exact goes_idle hp trivial fits fun _ => rfl
  next w hp =>
    split at stepped
    · next job inbox waiting =>
      cases stepped
      exact goes_take hp waiting fits s.moment
    · next waiting =>
      split at stepped
      · cases stepped
      · cases stepped
        rw [hp] at fits
        exact goes_idle hp waiting fits fun _ => rfl
  next job response w hp =>
    cases stepped
    exact goes_report listened hp fits
  next job c next hp =>
    cases stepped
    exact goes_callBackend hp fits
  next job pause hp =>
    split at stepped
    · next answer backend resumed =>
      cases stepped
      exact goes_resume hp fits (Rehearsal.answer_of_resume? resumed)
    · split at stepped
      · cases stepped
        exact goes_resume hp fits rfl
      · cases stepped
  next w hp =>
    split at stepped
    · next job inbox waiting =>
      rw [listened] at stepped
      cases stepped
      exact goes_refuse hp waiting fits
    · next waiting =>
      split at stepped
      · cases stepped
      · cases stepped
        rw [hp] at fits
        exact goes_idle hp waiting fits fun _ => rfl
  next w hp =>
    cases stepped
    rw [hp] at fits
    exact goes_idle hp trivial (.settled fits) nofun
  next c next hp =>
    split at stepped
    · cases stepped
      rw [hp] at fits
      exact goes_idle hp trivial fits fun _ => rfl
    · cases stepped
      rw [hp] at fits
      exact goes_idle hp trivial fits fun _ => rfl
    · cases stepped
      rw [hp] at fits
      exact goes_idle hp trivial (.settled fits) nofun
  next => cases stepped

end Steps

end Thread

end Worker

end SessionRelay
