import SessionRelay.Proofs.Broker.Runs

/-!
The jobs of a worker keep their order. In every run, the jobs that a worker was handed are those
whose answers were taken from it, and then those that are due. Only a worker that has left took jobs
with it, and it gets no more.
-/

namespace SessionRelay.Broker

open Backend Wire Worker Integration

variable {α : Type}

/-- The tickets of the jobs that were handed to one worker. -/
def ticketsTo (worker : String) (handed : List (String × Job)) : List Ticket :=
  handed.filterMap fun (identity, job) =>
    if identity = worker then some (job.ticket worker) else none

@[simp] theorem ticketsTo_append (worker : String) (handed more : List (String × Job)) :
    ticketsTo worker (handed ++ more) = ticketsTo worker handed ++ ticketsTo worker more :=
  List.filterMap_append

namespace Router

/-- A job with the worker that takes it, if there is one. -/
def handed? (r : Router α) (identity : String) (job : Job) : Option (String × Job) :=
  (r.handOver? identity job).map fun _ => (identity, job)

/-- The job that is handed over when something is heard of a client, and the worker that gets it. -/
def handsOver? (r : Router α) : Arrival → Option (String × Job)
  | .frame client payload =>
    match Codec.decodePayload Request.take payload with
    | .ok request =>
      match request.worker, r.mint? with
      | some identity, _ => r.handed? identity ⟨client, request⟩
      | none, some identity =>
        (hire { r with recruited := r.recruited + 1 } client identity).handed? identity
          ⟨client, request.withWorker identity⟩
      | none, none => none
    | .error _ => none
  | _ => none

theorem Answers.pending {r r' : Router α} {tickets : List Ticket} (h : r.Answers tickets r') :
    r'.pending = r.pending := by
  obtain ⟨connections, journal, rfl, -⟩ := h
  rfl

theorem Answers.threads {r r' : Router α} {tickets : List Ticket} (h : r.Answers tickets r') :
    r'.threads = r.threads := by
  obtain ⟨connections, journal, rfl, -⟩ := h
  rfl

theorem pending_retire (r : Router α) (identity : String) :
    (r.retire identity).pending = r.pending := by
  unfold retire
  split
  · rfl
  · rfl

theorem pending_foldl_retire (r : Router α) (identities : List String) :
    (identities.foldl retire r).pending = r.pending := by
  induction identities generalizing r with
  | nil => rfl
  | cons identity rest ih => rw [List.foldl_cons, ih, pending_retire]

/-- What is dispatched becomes due from its worker, if the worker takes it. -/
theorem dueFrom_dispatch (r : Router α) (identity : String) (job : Job) (worker : String) :
    dueFrom worker (r.dispatch identity job).pending =
      dueFrom worker r.pending ++ ticketsTo worker (r.handed? identity job).toList := by
  unfold Router.dispatch handed?
  cases taken : r.handOver? identity job with
  | some r' =>
    unfold handOver? at taken
    split at taken
    · cases taken
    · cases taken
      dsimp only
      by_cases same : identity = worker
      · subst same
        rw [dueFrom_put_self, List.map_append]
        simp [ticketsTo, dueFrom, Job.ticket, PendingJob.ticket]
      · rw [dueFrom_put_ne _ _ _ (Ne.symm same)]
        simp [ticketsTo, same]
  | none =>
    have refused := (r.retire identity).reply_answers job.client
      ((Response.failed identity s!"worker {identity} is no longer available").forRequest
        job.request.requestId)
    dsimp only
    rw [refused.pending, pending_retire]
    exact (List.append_nil _).symm

theorem dueFrom_onArrival (r : Router α) (a : Arrival) (worker : String) :
    dueFrom worker (r.onArrival a).pending =
      dueFrom worker r.pending ++ ticketsTo worker (r.handsOver? a).toList := by
  have unchanged {r' : Router α} (same : r'.pending = r.pending) :
      dueFrom worker r'.pending = dueFrom worker r.pending ++ ticketsTo worker [] := by
    rw [same]
    exact (List.append_nil _).symm
  cases a with
  | frame client payload =>
    cases decoded : Codec.decodePayload Request.take payload with
    | error e =>
      simp only [Router.onArrival, handsOver?, decoded]
      exact unchanged (r.reply_answers _ _).pending
    | ok request =>
      cases named : request.worker with
      | some identity =>
        simp only [Router.onArrival, Router.route, handsOver?, decoded, named]
        exact r.dueFrom_dispatch identity _ worker
      | none =>
        simp only [Router.onArrival, Router.route, handsOver?, mint?, decoded, named]
        split
        · exact unchanged (r.reply_answers _ _).pending
        · cases next : r.setup.recruit r.recruited with
          | error reason => exact unchanged (reply_answers _ _ _).pending
          | ok identity => exact dueFrom_dispatch _ identity _ worker
  | malformed client reason =>
    exact unchanged ((r.reply_answers _ _).trans (silent_disconnect _ client).answers).pending
  | disconnected client =>
    exact unchanged ((r.silent_log _ _ _).trans (silent_disconnect _ client)).answers.pending

section

variable [Service α] [Accountable α] {r : Router α} {leaving : List (Thread α)}
  {reports : List Event}

/-- A report takes the ticket of its answer from the front of what is due. -/
theorem Consistent.dueFrom_onReport {e : Event} (h : Consistent r leaving (e :: reports))
    (worker : String) :
    dueFrom worker r.pending = ticketsFrom worker [e] ++ dueFrom worker (r.onReport e).pending := by
  cases e with
  | reply sender client response =>
    obtain ⟨rest, first⟩ := h.mirrors.first_due
    obtain ⟨left, struck, -, self, others, -⟩ := strikeOff_eq h.pending sender
    simp only [Router.onReport, struck, (reply_answers _ _ _).pending]
    by_cases same : worker = sender
    · subst same
      rw [ticketsFrom_reply_self, self, first]
      rfl
    · rw [ticketsFrom_reply_other (Ne.symm same), others worker same]
      rfl
  | stopped sender =>
    simp only [Router.onReport, pending_retire, (silent_log _ _ _ _).answers.pending]
    rfl

end

/-- Who is not dismissed keeps what is due. -/
theorem dueFrom_dismiss (r : Router α) {finished : List (Thread α)} {worker : String}
    (stays : worker ∉ finished.map Thread.identity) :
    dueFrom worker (r.dismiss finished).pending = dueFrom worker r.pending := by
  induction finished generalizing r with
  | nil => rfl
  | cons t rest ih =>
    rw [List.map_cons, List.mem_cons, not_or] at stays
    have left := ih ((r.join t).abandon t.identity) stays.2
    have answered := abandon_answers (r.join t) t.identity
    rw [answered.pending, dueFrom_without_ne _ _ stays.1, (r.silent_join t).answers.pending] at left
    exact left

theorem threads_dismiss (r : Router α) (finished : List (Thread α)) :
    (r.dismiss finished).threads = r.threads := by
  induction finished generalizing r with
  | nil => rfl
  | cons t rest ih =>
    have answered := abandon_answers (r.join t) t.identity
    exact ((ih _).trans answered.threads).trans (r.silent_join t).answers.threads

end Router

namespace Daemon

/-- The job that a move hands over, and the worker that gets it. -/
def handsOver? (d : Daemon α) (m : Move) : Option (String × Job) :=
  (d.taken? m).bind d.router.handsOver?

theorem ticketsFrom_heeds? {d : Daemon α} {worker : String}
    (silent : ticketsFrom worker d.reports = []) (m : Move) :
    ticketsFrom worker (d.heeds? m).toList = [] := by
  have first : ticketsFrom worker d.reports.head?.toList = [] := by
    cases reports : d.reports with
    | nil => rfl
    | cons e rest =>
      rw [reports, ← List.singleton_append, ticketsFrom_append] at silent
      exact (List.append_eq_nil_iff.mp silent).1
  unfold heeds?
  split
  · exact first
  · split
    · exact first
    · exact first
    · rfl
  · rfl

variable [Service α] [Accountable α] {d d' : Daemon α}

/-- What a move does to the tickets that are due from a worker: new ones come last, and those that
are reported go first. What is left of a worker that leaves goes with it. -/
def Flows (d : Daemon α) (m : Move) (d' : Daemon α) (worker : String) : Prop :=
  ∃ gone, dueFrom worker d.router.pending ++ ticketsTo worker (d.handsOver? m).toList =
      ticketsFrom worker (d.heeds? m).toList ++ (dueFrom worker d'.router.pending ++ gone) ∧
    (gone = [] ∨ worker ∈ d.staff.map Thread.identity ∧ worker ∉ d'.staff.map Thread.identity)

omit [Service α] [Accountable α] in
theorem flows_of_due {m : Move} (given : d.handsOver? m = none) (taken : d.heeds? m = none)
    {worker : String} (same : dueFrom worker d'.router.pending = dueFrom worker d.router.pending) :
    d.Flows m d' worker := by
  refine ⟨[], ?_, Or.inl rfl⟩
  rw [given, taken, same]
  simp [ticketsTo]

/-- A move after which nothing is due from a worker that has left. -/
theorem Sound.flows_of_left (h : d.Sound) {m : Move} (given : d.handsOver? m = none)
    (taken : d.heeds? m = none) {worker : String} (settled : dueFrom worker d'.router.pending = [])
    (left : worker ∉ d'.staff.map Thread.identity) : d.Flows m d' worker := by
  by_cases present : worker ∈ d.staff.map Thread.identity
  · refine ⟨dueFrom worker d.router.pending, ?_, Or.inr ⟨present, left⟩⟩
    rw [given, taken, settled]
    simp [ticketsTo]
  · refine ⟨[], ?_, Or.inl rfl⟩
    rw [given, taken, settled, (h.consistent.mirrors.strangers worker present).1]
    rfl

/-- A report is taken. -/
theorem Sound.flows_of_report (h : d.Sound) {m : Move} {report : Event} {reports : List Event}
    (first : d.reports = report :: reports) (given : d.handsOver? m = none)
    (taken : d.heeds? m = some report) (heard : d'.router = d.router.onReport report)
    (worker : String) : d.Flows m d' worker := by
  refine ⟨[], ?_, Or.inl rfl⟩
  have consistent := h.consistent
  rw [first] at consistent
  rw [given, taken, heard, consistent.dueFrom_onReport worker]
  simp [ticketsTo]

omit [Service α] [Accountable α] in
theorem pending_check (d : Daemon α) : d.check.router.pending = d.router.pending := by
  have noticed : d.notice.router.pending = d.router.pending := by
    unfold notice
    split
    · rfl
    · rfl
  unfold check
  dsimp only
  split
  · exact noticed
  · split
    · exact (Router.pending_foldl_retire _ _).trans noticed
    · split
      · exact (Router.pending_foldl_retire _ _).trans noticed
      · exact noticed

theorem Sound.staff_eq_nil (h : d.Sound) (ended : d.stage = .ended) : d.staff = [] := by
  have cleared := h.cleared
  unfold Cleared at cleared
  rw [ended] at cleared
  rw [staff, Router.threads, cleared.1, cleared.2.1, ended]
  rfl

/-- Who is dismissed leaves with what is due, and nobody else loses anything. -/
theorem Sound.flows_dismiss (h : d.Sound) {finished : List (Thread α)}
    (collecting : d.stage = .collecting finished) (none : d.reports = []) (worker : String) :
    d.Flows .proceed { d with router := d.router.dismiss finished, stage := .selecting }
      worker := by
  have taken : d.heeds? .proceed = Option.none := by rw [heeds?, collecting, none]; rfl
  by_cases stays : worker ∈ finished.map Thread.identity
  · have distinct := h.consistent.mirrors.distinct
    rw [collecting, List.map_append, List.nodup_append] at distinct
    have left : worker ∉ ((d.router.dismiss finished).threads ++ []).map Thread.identity := by
      rw [List.append_nil, Router.threads_dismiss]
      exact fun present => distinct.2.2 worker present worker stays rfl
    obtain ⟨dismissed, -⟩ := h.dismiss collecting none
    exact h.flows_of_left rfl taken (dismissed.consistent.mirrors.strangers worker left).1 left
  · exact flows_of_due rfl taken (d.router.dueFrom_dismiss stays)

theorem Sound.flows (h : d.Sound) {m : Move} (moved : d.step? m = some d') (worker : String) :
    d.Flows m d' worker := by
  cases moves_of_step? moved with
  | quiet outside silent _ _ _ =>
    refine flows_of_due ?_ (heeds?_of_isQuiet outside) (by rw [silent.answers.pending])
    rw [handsOver?, taken?_of_isQuiet outside]
    rfl
  | @work name _ step _ _ =>
    have logged := (d.router.adjust name fun _ => step.thread).silent_entries step.entries
    exact flows_of_due rfl rfl (congrArg (dueFrom worker) logged.answers.pending)
  | crash _ _ => exact flows_of_due rfl rfl rfl
  | @arrive arrival _ _ first =>
    have given : d.handsOver? .takeArrival = d.router.handsOver? arrival := by
      rw [handsOver?, taken?, first]
      rfl
    refine ⟨[], ?_, Or.inl rfl⟩
    rw [given, List.append_nil, d.router.dueFrom_onArrival arrival worker]
    rfl
  | hear _ first => exact h.flows_of_report first rfl (by rw [heeds?, first]; rfl) rfl worker
  | check checking => exact flows_of_due rfl (by rw [heeds?, checking]) (by rw [pending_check])
  | reap reaping =>
    have reaped : d.reap.router.pending = d.router.pending := Router.pending_foldl_retire _ _
    exact flows_of_due rfl (by rw [heeds?, reaping]) (by rw [reaped])
  | heed taken first => exact h.flows_of_report first rfl taken rfl worker
  | dismiss collecting none => exact h.flows_dismiss collecting none worker
  | join joining _ =>
    have joined := (Router.silent_foldl Router.silent_join d.router.retired
      { d.router with retired := [] }).answers.pending
    exact flows_of_due rfl (by rw [heeds?, joining]) (congrArg (dueFrom worker) joined)
  | @conclude count _ emptying none =>
    have sound := (h.conclude emptying none).1
    have left : worker ∉ (d.conclude count).staff.map Thread.identity := by
      rw [sound.staff_eq_nil rfl]
      exact List.not_mem_nil
    exact h.flows_of_left rfl (by rw [heeds?, emptying, none]; rfl)
      (sound.consistent.mirrors.strangers worker left).1 left

omit [Service α] [Accountable α] in
theorem leaving_check (d : Daemon α) : d.check.stage.leaving = [] := by
  unfold check
  dsimp only
  split
  · rfl
  · split
    · rfl
    · split
      · rfl
      · rfl

/-- Whom the broker sets apart was among its workers. -/
theorem Sound.leaving_step (h : d.Sound) {m : Move} (moved : d.step? m = some d') {worker : String}
    (hired : d.router.Hired worker) (member : worker ∈ d'.stage.leaving.map Thread.identity) :
    worker ∈ d.staff.map Thread.identity := by
  rw [staff, List.map_append, List.mem_append]
  cases moves_of_step? moved with
  | quiet _ _ _ leaving _ =>
    rw [leaving] at member
    exact Or.inr member
  | work _ _ => exact Or.inr member
  | crash _ _ => exact Or.inr member
  | arrive _ _ => cases member
  | hear _ _ => cases member
  | check _ =>
    rw [leaving_check] at member
    cases member
  | reap _ =>
    obtain ⟨running, finished, -, leaving, -, -, parted⟩ := d.reap_eq
    rw [leaving] at member
    have retired : worker ∈ d.router.retireFinished.retired.map Thread.identity := by
      rw [(parted.map Thread.identity).mem_iff, List.map_append]
      exact List.mem_append_right _ member
    have inside : worker ∈ d.router.retireFinished.threads.map Thread.identity := by
      rw [Router.threads, List.map_append]
      exact List.mem_append_right _ retired
    exact Or.inl (h.consistent.retireFinished.2.stays worker inside hired)
  | heed _ _ => exact Or.inr member
  | dismiss _ _ => cases member
  | join _ _ =>
    refine Or.inl ?_
    rw [Router.threads, List.map_append]
    exact List.mem_append_right _ member
  | conclude _ _ => cases member

/-- Nobody who was hired before stands among the workers anew. -/
theorem Sound.staff_stays (h : d.Sound) {m : Move} (moved : d.step? m = some d') {worker : String}
    (hired : d.router.Hired worker) (member : worker ∈ d'.staff.map Thread.identity) :
    worker ∈ d.staff.map Thread.identity := by
  rw [staff, List.map_append, List.mem_append] at member
  rcases member with inside | leaving
  · rw [staff, List.map_append]
    exact List.mem_append_left _ ((h.step moved).2.stays worker inside hired)
  · exact h.leaving_step moved hired leaving

end Daemon

/-! ### Runs -/

/-- The tickets of the jobs that a worker was handed in a run, in order. -/
def jobsOf (worker : String) (trace : List (Daemon α × Move)) : List Ticket :=
  ticketsTo worker (trace.filterMap fun (d, m) => d.handsOver? m).reverse

/-- The tickets of the answers that were taken from a worker in a run, in order. -/
def answersOf (worker : String) (trace : List (Daemon α × Move)) : List Ticket :=
  ticketsFrom worker (trace.filterMap fun (d, m) => d.heeds? m).reverse

theorem jobsOf_cons (worker : String) (d : Daemon α) (m : Move) (trace : List (Daemon α × Move)) :
    jobsOf worker ((d, m) :: trace) =
      jobsOf worker trace ++ ticketsTo worker (d.handsOver? m).toList := by
  rw [jobsOf, jobsOf, List.filterMap_cons]
  dsimp only
  cases d.handsOver? m with
  | none => exact (List.append_nil _).symm
  | some handed =>
    rw [List.reverse_cons, ticketsTo_append]
    rfl

theorem answersOf_cons (worker : String) (d : Daemon α) (m : Move)
    (trace : List (Daemon α × Move)) :
    answersOf worker ((d, m) :: trace) =
      answersOf worker trace ++ ticketsFrom worker (d.heeds? m).toList := by
  rw [answersOf, answersOf, List.filterMap_cons]
  dsimp only
  cases d.heeds? m with
  | none => exact (List.append_nil _).symm
  | some report =>
    rw [List.reverse_cons, ticketsFrom_append]
    rfl

variable [Service α] [Accountable α] {first d : Daemon α} {trace : List (Daemon α × Move)}

/-- The jobs of a worker are those whose answers were taken, those that are due, and those that went
with it when it left. -/
theorem Run.turns (run : Run first trace d) (sound : first.Sound) (idle : first.router.pending = [])
    (worker : String) :
    ∃ gone, jobsOf worker trace =
        answersOf worker trace ++ (dueFrom worker d.router.pending ++ gone) ∧
      (gone = [] ∨ d.router.Hired worker ∧ worker ∉ d.staff.map Thread.identity) := by
  induction run with
  | start =>
    refine ⟨[], ?_, Or.inl rfl⟩
    rw [idle]
    rfl
  | @step trace d d' m run moved ih =>
    obtain ⟨before, -⟩ := run.sound sound
    obtain ⟨after, taken⟩ := before.step moved
    obtain ⟨gone, jobs, left⟩ := ih
    obtain ⟨more, flow, leaves⟩ := before.flows moved worker
    rw [jobsOf_cons, answersOf_cons, jobs]
    rcases left with rfl | ⟨hired, absent⟩
    · refine ⟨more, ?_, ?_⟩
      · rw [List.append_nil, List.append_assoc, flow, List.append_assoc]
      · refine leaves.imp_right fun ⟨present, absent⟩ => ⟨taken.hired ?_, absent⟩
        obtain ⟨t, member, rfl⟩ := List.mem_map.mp present
        exact before.consistent.hired t member
    · have still : worker ∉ d'.staff.map Thread.identity := fun member =>
        absent (before.staff_stays moved hired member)
      obtain ⟨nothing, silent⟩ := before.consistent.mirrors.strangers worker absent
      have settled := (after.consistent.mirrors.strangers worker still).1
      rw [nothing, settled, Daemon.ticketsFrom_heeds? silent] at flow
      refine ⟨gone ++ more, ?_, Or.inr ⟨taken.hired hired, still⟩⟩
      rw [Daemon.ticketsFrom_heeds? silent, nothing, settled]
      simp only [List.nil_append, List.append_nil] at flow ⊢
      rw [flow, List.append_assoc]

end SessionRelay.Broker
