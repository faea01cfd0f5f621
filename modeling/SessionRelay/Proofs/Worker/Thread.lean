import SessionRelay.Proofs.Integration.Answers
import SessionRelay.Worker.Thread

/-!
What a worker owes. At every moment the jobs that it was given and has not answered stand in a
fixed order; each of its steps answers none of them or the first, and a crash leaves all of them
behind. Each answer is for the client and the request of its job, in the name of the worker.
-/

namespace SessionRelay.Worker

open Backend Integration Wire

/-- What an answer says of itself: whom it is for, which request it answers, and which worker it is
from. -/
structure Ticket where
  client : Nat
  requestId : Option String
  worker : String
  deriving DecidableEq, Repr

/-- The ticket of the answer that a worker owes to a job. -/
def Job.ticket (worker : String) (job : Job) : Ticket :=
  ⟨job.client, reference job.request.requestId, worker⟩

/-- The ticket of a response. -/
def ticketOf (client : Nat) (response : Response) : Ticket :=
  ⟨client, response.requestId, response.worker⟩

/-- The tickets of the answers among the reports of a worker, in order. -/
def ticketsFrom (worker : String) (events : List Event) : List Ticket :=
  events.filterMap fun
    | .reply w client response => if w = worker then some (ticketOf client response) else none
    | .stopped _ => none

@[simp] theorem ticketsFrom_nil (worker : String) : ticketsFrom worker [] = [] := rfl

@[simp] theorem ticketsFrom_append (worker : String) (events more : List Event) :
    ticketsFrom worker (events ++ more) = ticketsFrom worker events ++ ticketsFrom worker more :=
  List.filterMap_append

theorem ticketsFrom_reply_self (worker : String) (client : Nat) (response : Response)
    (events : List Event) :
    ticketsFrom worker (.reply worker client response :: events) =
      ticketOf client response :: ticketsFrom worker events := by
  simp [ticketsFrom]

theorem ticketsFrom_reply_other {worker other : String} (h : other ≠ worker) (client : Nat)
    (response : Response) (events : List Event) :
    ticketsFrom worker (.reply other client response :: events) = ticketsFrom worker events := by
  simp [ticketsFrom, h]

variable {α : Type} [Service α] [Accountable α]

/-- A worker of an identity whose integration, if it has one, belongs to it. -/
structure Sound (identity : String) (w : Worker α) : Prop where
  identity_eq : w.identity = identity
  assigns : w.registry.Assigns
  owned : ∀ s, w.integration = some s → Accountable.owner s = identity

theorem sound_new (identity : String) {registry : Registry α} (h : registry.Assigns) :
    (new identity registry).Sound identity :=
  ⟨rfl, h, fun _ none => nomatch none⟩

omit [Service α] [Accountable α] in
/-- A request that passes the checks is for the worker's integration, or for a new one if the worker
has none. -/
theorem source_of_accept {w : Worker α} {request : Request} {s : α}
    {entries : List Logging.Entry} (accepted : w.accept request = .ok (s, entries)) :
    w.integration = some s ∨
      w.integration = none ∧ ∃ scheme, w.registry.create? scheme w.identity = some s := by
  simp only [accept] at accepted
  split at accepted
  · cases accepted
  · split at accepted
    · cases accepted
    · split at accepted
      · cases accepted
      · split at accepted
        · next kept =>
          cases accepted
          exact Or.inl kept
        · next none =>
          split at accepted
          · next made =>
            cases accepted
            exact Or.inr ⟨none, _, made⟩
          · cases accepted

theorem Sound.owner_of_accept {identity : String} {w : Worker α} (h : w.Sound identity)
    {request : Request} {s : α} {entries : List Logging.Entry}
    (accepted : w.accept request = .ok (s, entries)) : Accountable.owner s = identity := by
  rcases source_of_accept accepted with kept | ⟨-, scheme, made⟩
  · exact h.owned s kept
  · exact (h.assigns _ _ _ made).trans h.identity_eq

/-- A worker does not refuse a request that names it for being another's. -/
theorem Sound.accept_ne_mismatch {identity : String} {w : Worker α} (h : w.Sound identity)
    {request : Request} (named : request.worker = some identity) (x y : String) :
    w.accept request ≠ .error s!"got {x}, expected {y}" := by
  have ours : request.worker.getD "" = w.identity := by
    rw [named, Option.getD_some, h.identity_eq]
  have unlike {z : String} (different : z.toList.head? ≠ some 'g') :
      (.error z : Except String (α × List Logging.Entry)) ≠ .error s!"got {x}, expected {y}" := by
    intro equal
    have same : z = "got " ++ x ++ ", expected " ++ y := Except.error.inj equal
    rw [same] at different
    simp [String.toList_append] at different
  have unsupported (scheme : String) : (unsupported scheme).toList.head? ≠ some 'g' := by
    have text : Worker.unsupported scheme =
        "integration for " ++ scheme ++ ":// is not implemented" := rfl
    rw [text]
    simp [String.toList_append]
  simp only [accept, ours, ne_eq, not_true_eq_false, if_false]
  split
  · exact unlike (by decide)
  · split
    · exact unlike (unsupported _)
    · split
      · exact nofun
      · split
        · exact nofun
        · exact unlike (unsupported _)

/-- An answer to a job, and the worker as it goes on. -/
def Kept (identity : String) (job : Job) (result : Response × Worker α) : Prop :=
  IsAnswer identity job.request result.1 ∧ result.2.Sound identity

theorem Sound.handle_ends {identity : String} {w : Worker α} (h : w.Sound identity)
    (moment : Moment) (job : Job) :
    (w.handle moment job.request).2.Ends (Kept identity job) := by
  unfold handle
  split
  · exact ⟨isAnswer_finished h.identity_eq rfl moment job.request, h⟩
  · next s entries accepted =>
    have owner := h.owner_of_accept accepted
    rw [Dialog.ends_map]
    refine Dialog.Ends.imp ?_ (Accountable.handle_ends moment job.request s)
    intro result answered
    refine ⟨owner ▸ answered.1, h.identity_eq, h.assigns, ?_⟩
    intro s' held
    cases held
    exact answered.2.trans owner

/-- What is under way can only end in an answer to its job. -/
def Phase.Sound (identity : String) : Phase α → Prop
  | .starting w => w.Sound identity
  | .ready w => w.Sound identity
  | .busy job dialog => dialog.Ends (Kept identity job)
  | .paused job pause => ∀ answer, (pause.next answer).Ends (Kept identity job)
  | .stopped w => w.Sound identity
  | .closing _ => True
  | .ended _ _ => True

/-- A worker lets its integration go when no job is left nor can come, so that none is lost unless
it crashes. -/
def Phase.Settled (inbox : List Job) (inboxOpen : Bool) : Phase α → Prop
  | .closing _ => inbox = [] ∧ inboxOpen = false
  | .ended clean lost => clean = true → lost = []
  | _ => True

omit [Service α] [Accountable α] in
theorem Phase.Settled.shut {phase : Phase α} {inbox : List Job} {inboxOpen : Bool}
    (h : phase.Settled inbox inboxOpen) : phase.Settled inbox false := by
  cases phase with
  | closing dialog => exact ⟨h.1, rfl⟩
  | ended clean lost => exact h
  | _ => trivial

namespace Thread

structure Sound (t : Thread α) : Prop where
  phase : t.phase.Sound t.identity
  settled : t.phase.Settled t.inbox t.inboxOpen
  named : ∀ job ∈ t.unanswered, job.request.worker = some t.identity

theorem sound_spawn (identity : String) {registry : Registry α} (h : registry.Assigns) :
    (spawn (Worker.new identity registry)).Sound :=
  ⟨sound_new identity h, trivial, fun _ none => nomatch none⟩

/-- A thread goes on to another and reports events: they are its own, and together they answer what
is not left to answer. -/
structure Continues (t : Thread α) (events : List Event) (t' : Thread α) : Prop where
  identity : t'.identity = t.identity
  sound : t'.Sound
  tickets : t.unanswered.map (Job.ticket t.identity) =
    ticketsFrom t.identity events ++ t'.unanswered.map (Job.ticket t.identity)
  others : ∀ worker, worker ≠ t.identity → ticketsFrom worker events = []

/-- A step that reports nothing and answers nothing. -/
theorem Continues.quiet {t t' : Thread α} (identity : t'.identity = t.identity)
    (phase : t'.phase.Sound t.identity) (settled : t'.phase.Settled t'.inbox t'.inboxOpen)
    (same : t'.unanswered = t.unanswered) (h : t.Sound) : t.Continues [] t' := by
  refine ⟨identity, ⟨?_, settled, ?_⟩, ?_, fun _ _ => rfl⟩
  · rw [identity]
    exact phase
  · intro job member
    rw [identity]
    exact h.named job (same ▸ member)
  · rw [same, ticketsFrom_nil, List.nil_append]

/-- A step that answers the first job and no other. -/
theorem Continues.answering {t t' : Thread α} {job : Job} {rest : List Job} {response : Response}
    {more : List Event} (h : t.Sound) (first : t.unanswered = job :: rest)
    (left : t'.unanswered = rest) (identity : t'.identity = t.identity)
    (phase : t'.phase.Sound t.identity) (settled : t'.phase.Settled t'.inbox t'.inboxOpen)
    (answer : IsAnswer t.identity job.request response)
    (quiet : ∀ worker, ticketsFrom worker more = []) :
    t.Continues (.reply t.identity job.client response :: more) t' := by
  refine ⟨identity, ⟨?_, settled, ?_⟩, ?_, ?_⟩
  · rw [identity]
    exact phase
  · intro other member
    rw [identity]
    apply h.named other
    rw [first]
    exact List.mem_cons_of_mem _ (left ▸ member)
  · have ticket : ticketOf job.client response = job.ticket t.identity := by
      rw [ticketOf, Job.ticket, answer.1, answer.2]
    rw [first, left, ticketsFrom_reply_self, quiet, ticket]
    rfl
  · intro worker different
    rw [ticketsFrom_reply_other (Ne.symm different), quiet]

omit [Service α] [Accountable α] in
theorem unanswered_endWith (t : Thread α) (clean : Bool) :
    (t.endWith clean).unanswered = t.unanswered := rfl

/-- A crash loses what is not answered, and answers nothing. -/
theorem Sound.crash {t : Thread α} (h : t.Sound) : t.Continues [] (t.endWith false) :=
  .quiet rfl trivial (fun clean => nomatch clean) (unanswered_endWith t false) h

theorem Sound.retire {t : Thread α} (h : t.Sound) : t.Continues [] t.retire :=
  .quiet rfl h.phase h.settled.shut rfl h

/-- The answer of a stopped worker. -/
theorem isAnswer_stopped (identity : String) (job : Job) :
    IsAnswer identity job.request
      ((Response.failed identity s!"worker {identity} has stopped").forRequest
        job.request.requestId) :=
  ⟨Response.forRequest_worker _ _, Response.failed_forRequest_requestId _ _ _⟩

theorem Sound.report {t : Thread α} (h : t.Sound) {s : Surroundings} (listened : s.listened = true)
    {job : Job} {response : Response} {w : Worker α}
    (hp : t.phase = .busy job (.done (response, w))) :
    t.Continues (t.report s job response w).events (t.report s job response w).thread := by
  have kept := h.phase
  rw [hp] at kept
  have first : t.unanswered = job :: t.inbox := by
    rw [unanswered, hp]
  unfold Thread.report
  rw [listened]
  simp only [Bool.not_true, Bool.false_eq_true, if_false]
  split
  · exact .answering h first rfl rfl kept.2 trivial kept.1 fun _ => rfl
  · exact .answering h first rfl rfl kept.2 trivial kept.1 fun _ => rfl

theorem Sound.callBackend {t : Thread α} (h : t.Sound) (s : Surroundings) {job : Job} {c : Call}
    {next : c.Answer → Dialog (Response × Worker α)} (hp : t.phase = .busy job (.ask c next)) :
    t.Continues (t.callBackend s job c next).events (t.callBackend s job c next).thread := by
  have kept := h.phase
  rw [hp] at kept
  have first : t.unanswered = job :: t.inbox := by
    rw [unanswered, hp]
  unfold Thread.callBackend
  split
  · next answer backend _ => exact .quiet rfl (kept answer) trivial first.symm h
  · exact .quiet rfl kept trivial first.symm h
  · exact h.crash

/-- A wait that is over goes on with the job. -/
theorem Sound.goOn {t : Thread α} (h : t.Sound) {job : Job} {pause : Pause (Response × Worker α)}
    (hp : t.phase = .paused job pause) (answer : pause.call.Answer) :
    t.Continues [] { t with phase := .busy job (pause.next answer) } := by
  have kept := h.phase
  rw [hp] at kept
  have first : t.unanswered = job :: t.inbox := by
    rw [unanswered, hp]
  exact .quiet rfl (kept answer) trivial first.symm h

theorem Sound.depart {t : Thread α} (h : t.Sound) (w : Worker α) (idle : t.unanswered = t.inbox)
    (empty : t.inbox = []) (shut : t.inboxOpen = false) :
    t.Continues [] { t with phase := leave w } :=
  .quiet rfl trivial ⟨empty, shut⟩ idle.symm h

theorem Sound.refuse {t : Thread α} (h : t.Sound) {w : Worker α} {job : Job} {inbox : List Job}
    (hp : t.phase = .stopped w) (waiting : t.inbox = job :: inbox) :
    t.Continues [stoppedReply t.identity job] { t with inbox := inbox } := by
  have phase := h.phase
  rw [hp] at phase
  have first : t.unanswered = job :: inbox := by
    rw [unanswered, hp]
    exact waiting
  refine .answering h first ?_ rfl ?_ ?_ (isAnswer_stopped t.identity job) fun _ => rfl
  · simp only [unanswered, hp]
  · rw [hp]
    exact phase
  · rw [hp]
    trivial

/-- Every step of a worker to whose reports somebody listens answers no job, or the first of those
that it owes. -/
theorem Sound.step {t : Thread α} (h : t.Sound) {s : Surroundings} (listened : s.listened = true)
    {step : Step α} (hstep : t.step? s = some step) : t.Continues step.events step.thread := by
  have phase := h.phase
  have settled := h.settled
  unfold step? at hstep
  split at hstep
  next w hp =>
    cases hstep
    rw [hp] at phase
    exact .quiet rfl phase trivial (by simp only [unanswered, hp]) h
  next w hp =>
    rw [hp] at phase
    split at hstep
    · next job inbox waiting =>
      cases hstep
      refine .quiet rfl (phase.handle_ends s.moment job) trivial ?_ h
      simp only [unanswered, hp, waiting]
    · next waiting =>
      split at hstep
      · cases hstep
      · next shut =>
        cases hstep
        exact h.depart w (by rw [unanswered, hp]) waiting (by simpa using shut)
  next job response w hp =>
    cases hstep
    exact h.report listened hp
  next job c next hp =>
    cases hstep
    exact h.callBackend s hp
  next job pause hp =>
    split at hstep
    · cases hstep
      exact h.goOn hp _
    · split at hstep
      · cases hstep
        exact h.goOn hp _
      · cases hstep
  next w hp =>
    split at hstep
    · next job inbox waiting =>
      rw [listened] at hstep
      cases hstep
      exact h.refuse hp waiting
    · next waiting =>
      split at hstep
      · cases hstep
      · next shut =>
        cases hstep
        exact h.depart w (by rw [unanswered, hp]) waiting (by simpa using shut)
  next w hp =>
    cases hstep
    rw [hp] at settled
    refine .quiet rfl trivial ?_ rfl h
    intro _
    rw [unanswered, hp]
    exact settled.1
  next c next hp =>
    rw [hp] at settled
    have left : t.unanswered = t.inbox := by
      rw [unanswered, hp]
    split at hstep
    · cases hstep
      exact .quiet rfl trivial settled left.symm h
    · cases hstep
      exact .quiet rfl trivial settled left.symm h
    · cases hstep
      exact h.crash
  next => cases hstep

omit [Accountable α] in
/-- No step changes a worker's name or opens or closes its inbox. -/
theorem step?_keeps {t : Thread α} {s : Surroundings} {step : Step α}
    (stepped : t.step? s = some step) :
    step.thread.identity = t.identity ∧ step.thread.inboxOpen = t.inboxOpen := by
  have called (job : Job) (c : Call) (next : c.Answer → Dialog (Response × Worker α)) :
      (t.callBackend s job c next).thread.identity = t.identity ∧
        (t.callBackend s job c next).thread.inboxOpen = t.inboxOpen := by
    unfold Thread.callBackend
    split <;> exact ⟨rfl, rfl⟩
  have reported (job : Job) (response : Response) (w : Worker α) :
      (t.report s job response w).thread.identity = t.identity ∧
        (t.report s job response w).thread.inboxOpen = t.inboxOpen := by
    unfold Thread.report
    split
    · exact ⟨rfl, rfl⟩
    · dsimp only
      split <;> exact ⟨rfl, rfl⟩
  unfold step? at stepped
  split at stepped
  next => cases stepped; exact ⟨rfl, rfl⟩
  next =>
    split at stepped
    · cases stepped; exact ⟨rfl, rfl⟩
    · split at stepped <;> cases stepped
      exact ⟨rfl, rfl⟩
  next => cases stepped; exact reported _ _ _
  next => cases stepped; exact called _ _ _
  next =>
    split at stepped
    · cases stepped; exact ⟨rfl, rfl⟩
    · split at stepped <;> cases stepped
      exact ⟨rfl, rfl⟩
  next =>
    split at stepped
    · split at stepped <;> cases stepped <;> exact ⟨rfl, rfl⟩
    · split at stepped <;> cases stepped
      exact ⟨rfl, rfl⟩
  next => cases stepped; exact ⟨rfl, rfl⟩
  next => split at stepped <;> cases stepped <;> exact ⟨rfl, rfl⟩
  next => cases stepped

omit [Service α] [Accountable α] in
/-- A worker that takes a job has its inbox open, and owes the job last. -/
theorem of_dispatch? {t t' : Thread α} {job : Job} (settled : t.phase.Settled t.inbox t.inboxOpen)
    (taken : t.dispatch? job = some t') :
    t' = { t with inbox := t.inbox ++ [job] } ∧ t.inboxOpen = true ∧
      t'.unanswered = t.unanswered ++ [job] ∧ t'.phase.Settled t'.inbox t'.inboxOpen := by
  unfold dispatch? at taken
  split at taken
  · cases taken
  · next takes =>
    cases taken
    simp only [Bool.or_eq_true, Bool.not_eq_true', not_or, Bool.not_eq_false] at takes
    obtain ⟨running, inboxOpen⟩ := takes
    refine ⟨rfl, inboxOpen, ?_, ?_⟩
    · cases hp : t.phase with
      | ended clean lost => simp [isFinished, hp] at running
      | _ => simp [unanswered, hp]
    · cases hp : t.phase with
      | closing dialog =>
        rw [hp] at settled
        rw [settled.2] at inboxOpen
        cases inboxOpen
      | ended clean lost => simp [isFinished, hp] at running
      | _ => trivial

/-- A job that is handed over comes last. -/
theorem Sound.dispatch {t t' : Thread α} (h : t.Sound) {job : Job}
    (named : job.request.worker = some t.identity) (taken : t.dispatch? job = some t') :
    t'.identity = t.identity ∧ t'.Sound ∧ t'.unanswered = t.unanswered ++ [job] := by
  obtain ⟨rfl, inboxOpen, left, settled⟩ := of_dispatch? h.settled taken
  refine ⟨rfl, ⟨h.phase, settled, ?_⟩, left⟩
  intro other member
  rw [left] at member
  rcases List.mem_append.mp member with old | new
  · exact h.named other old
  · rw [List.mem_singleton.mp new]
    exact named

end Thread

end SessionRelay.Worker
