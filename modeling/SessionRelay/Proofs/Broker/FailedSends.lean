import SessionRelay.Proofs.Broker.Origins
import SessionRelay.Proofs.Wire.Envelope
import SessionRelay.Proofs.Worker.Errands

/-!
What a client may conclude from a failure. A worker's errands, in the order in which it was handed
the jobs, bear the answers that the broker takes from it one after the other. So a frame that
reports the failure of a request to send goes back to a request that did nothing to the backend,
unless it stands for a success whose own frame is too large, or the worker has crashed.
-/

namespace SessionRelay.Broker

open Backend Wire Worker Integration

variable {α : Type}

/-- The jobs that a worker was handed in a run, in order. -/
def jobsHanded (worker : String) (trace : List (Daemon α × Move)) : List Job :=
  (trace.filterMap fun (d, m) => (d.handsOver? m).bind fun (identity, job) =>
    if identity = worker then some job else none).reverse

/-- The answers that were taken from a worker in a run, in order. -/
def repliesTaken (worker : String) (trace : List (Daemon α × Move)) : List (Nat × Response) :=
  repliesFrom worker (trace.filterMap fun (d, m) => d.heeds? m).reverse

/-- The errands of a worker after a move. -/
def Daemon.errandsAfter [Service α] (d : Daemon α) (m : Move) (worker : String)
    (errands : List Errand) : List Errand :=
  match m with
  | .work name =>
    if name = worker then
      (((d.router.thread? worker).bind fun t =>
        (t.step? d.surroundings).map fun step =>
          t.errandsAfter d.surroundings step errands)).getD errands
    else errands
  | _ => errands

/-- The errands of a worker in a run, the last one first. -/
def errandsOf [Service α] (worker : String) : List (Daemon α × Move) → List Errand
  | [] => []
  | (d, m) :: earlier => d.errandsAfter m worker (errandsOf worker earlier)

section Histories

variable {d d' : Daemon α} {m : Move} {worker : String} {trace : List (Daemon α × Move)}

theorem jobsHanded_cons_of_none (given : ∀ job, d.handsOver? m ≠ some (worker, job)) :
    jobsHanded worker ((d, m) :: trace) = jobsHanded worker trace := by
  unfold jobsHanded
  rw [List.filterMap_cons]
  dsimp only
  cases handed : d.handsOver? m with
  | none => rfl
  | some pair =>
    obtain ⟨identity, job⟩ := pair
    have other : identity ≠ worker := fun same => given job (by rw [handed, same])
    simp [other]

theorem jobsHanded_cons_of_idle (idle : d.handsOver? m = none) :
    jobsHanded worker ((d, m) :: trace) = jobsHanded worker trace :=
  jobsHanded_cons_of_none fun job given => by
    rw [idle] at given
    cases given

theorem jobsHanded_cons_of_some {job : Job} (given : d.handsOver? m = some (worker, job)) :
    jobsHanded worker ((d, m) :: trace) = jobsHanded worker trace ++ [job] := by
  unfold jobsHanded
  rw [List.filterMap_cons]
  simp [given]

theorem jobsHanded_mono (worker : String) (d : Daemon α) (m : Move)
    (trace : List (Daemon α × Move)) :
    jobsHanded worker trace <+: jobsHanded worker ((d, m) :: trace) := by
  by_cases handed : ∃ job, d.handsOver? m = some (worker, job)
  · obtain ⟨job, given⟩ := handed
    rw [jobsHanded_cons_of_some given]
    exact List.prefix_append _ _
  · refine ⟨[], ?_⟩
    rw [jobsHanded_cons_of_none fun job given => handed ⟨job, given⟩, List.append_nil]

theorem repliesTaken_cons (worker : String) (d : Daemon α) (m : Move)
    (trace : List (Daemon α × Move)) :
    repliesTaken worker ((d, m) :: trace) =
      repliesTaken worker trace ++ repliesFrom worker (d.heeds? m).toList := by
  unfold repliesTaken
  rw [List.filterMap_cons]
  dsimp only
  cases d.heeds? m with
  | none => exact (List.append_nil _).symm
  | some report =>
    rw [List.reverse_cons, repliesFrom_append]
    rfl

variable [Service α]

theorem Daemon.errandsAfter_of_ne (other : m ≠ .work worker) (errands : List Errand) :
    d.errandsAfter m worker errands = errands := by
  unfold Daemon.errandsAfter
  split
  · next name => exact if_neg fun same => other (by rw [same])
  · rfl

theorem Daemon.errandsAfter_work {t : Thread α} {step : Step α}
    (found : d.router.thread? worker = some t) (stepped : t.step? d.surroundings = some step)
    (errands : List Errand) :
    d.errandsAfter (.work worker) worker errands =
      t.errandsAfter d.surroundings step errands := by
  simp [Daemon.errandsAfter, found, stepped]

omit [Service α] in
theorem Daemon.reports_check (d : Daemon α) : d.check.reports = d.reports := by
  have noticed : d.notice.reports = d.reports := by
    unfold notice
    split <;> rfl
  unfold check
  dsimp only
  split
  · exact noticed
  · split
    · exact noticed
    · split <;> exact noticed

/-- What was reported before or is reported in a move is taken in the move or stays. -/
theorem Daemon.reports_step (moved : d.step? m = some d') :
    ∃ events, d.reports ++ events = (d.heeds? m).toList ++ d'.reports ∧
      (events = [] ∧ (∀ name, m ≠ .work name) ∨
        ∃ name t step, m = .work name ∧ d.router.thread? name = some t ∧
          t.step? d.surroundings = some step ∧ events = step.events) := by
  -- All moves but those of a worker, and those that take a report, leave the reports alone.
  have silent (reports : d'.reports = d.reports) (taken : d.heeds? m = none)
      (others : ∀ name, m ≠ .work name) :
      ∃ events, d.reports ++ events = (d.heeds? m).toList ++ d'.reports ∧
        (events = [] ∧ (∀ name, m ≠ .work name) ∨
          ∃ name t step, m = .work name ∧ d.router.thread? name = some t ∧
            t.step? d.surroundings = some step ∧ events = step.events) := by
    refine ⟨[], ?_, Or.inl ⟨rfl, others⟩⟩
    rw [reports, taken, List.append_nil]
    rfl
  cases moves_of_step? moved with
  | quiet outside _ reports _ _ =>
    refine silent reports (heeds?_of_isQuiet outside) ?_
    rintro name rfl
    exact outside
  | @work name t step found stepped =>
    exact ⟨step.events, rfl, Or.inr ⟨name, t, step, rfl, found, stepped, rfl⟩⟩
  | crash _ _ => exact silent rfl rfl (by rintro _ ⟨⟩)
  | arrive _ _ => exact silent rfl rfl (by rintro _ ⟨⟩)
  | hear _ first =>
    refine ⟨[], ?_, Or.inl ⟨rfl, by rintro _ ⟨⟩⟩⟩
    rw [heeds?, first, List.append_nil]
    rfl
  | check checking => exact silent d.reports_check (by rw [heeds?, checking]) (by rintro _ ⟨⟩)
  | reap reaping =>
    obtain ⟨_, _, -, -, reports, -⟩ := d.reap_eq
    exact silent reports (by rw [heeds?, reaping]) (by rintro _ ⟨⟩)
  | heed taken first =>
    refine ⟨[], ?_, Or.inl ⟨rfl, by rintro _ ⟨⟩⟩⟩
    rw [taken, first, List.append_nil]
    rfl
  | dismiss collecting none =>
    exact silent rfl (by rw [heeds?, collecting, none]; rfl) (by rintro _ ⟨⟩)
  | join joining _ => exact silent rfl (by rw [heeds?, joining]) (by rintro _ ⟨⟩)
  | conclude emptying none =>
    exact silent rfl (by rw [heeds?, emptying, none]; rfl) (by rintro _ ⟨⟩)

end Histories

/-- Whoever is handed a job was hired. -/
theorem Daemon.Sound.hired_of_handsOver? [Service α] [Accountable α] {d d' : Daemon α} {m : Move}
    (sound : d.Sound) (moved : d.step? m = some d') {worker : String} {job : Job}
    (given : d.handsOver? m = some (worker, job)) : d'.router.Hired worker := by
  obtain ⟨-, taken⟩ := sound.step moved
  obtain ⟨arrival, arrived, handed⟩ := Option.bind_eq_some_iff.mp given
  have session {r : Router α} {identity : String} {job job' : Job}
      (hands : r.handed? identity job = some (worker, job')) :
      identity = worker ∧ ∃ t, KeyTable.value? identity r.sessions = some t := by
    obtain ⟨r', took, same⟩ := Option.map_eq_some_iff.mp hands
    cases same
    obtain ⟨t, found, -⟩ := Router.handOver?_eq_some took
    exact ⟨rfl, t, found⟩
  cases arrival with
  | frame client payload =>
    simp only [Router.handsOver?] at handed
    split at handed
    · next request decoded =>
      split at handed
      · obtain ⟨named, t, found⟩ := session handed
        have entered := KeyTable.mem_of_value? found
        have key : t.identity = worker := (sound.consistent.keys _ entered).trans named
        have inside : t ∈ d.router.threads :=
          List.mem_append_left _ (List.mem_map_of_mem (f := Prod.snd) entered)
        exact taken.hired (key ▸ sound.consistent.hired t (List.mem_append_left _ inside))
      · next identity unnamed minted =>
        obtain ⟨rfl, -⟩ := session handed
        have mints : d.minted? m = some identity := by
          rw [Daemon.minted?, arrived]
          simp only [Option.bind_some, Router.minted?, decoded, unnamed, minted]
          rfl
        obtain ⟨next, counted⟩ := Daemon.minted?_step moved mints
        refine ⟨d.router.recruited, ?_, ?_⟩
        · rw [counted]
          exact Nat.lt_succ_self _
        · rw [taken.setup]
          exact next
      · cases handed
    · cases handed
  | malformed client reason => cases handed
  | disconnected client => cases handed

/-! ### The books of a worker -/

/-- The errands of a worker fit the jobs that it was handed and the answers that it gave. -/
structure Books [Service α] (trace : List (Daemon α × Move)) (d : Daemon α) (worker : String) :
    Prop where
  inOrder : InOrder (errandsOf worker trace)
  jobs : ((errandsOf worker trace).map Errand.job).reverse <+: jobsHanded worker trace
  present : ∀ t ∈ d.staff, t.identity = worker → t.phase.Fits (errandsOf worker trace) ∧
    (t.isFinished = false →
      jobsHanded worker trace = ((errandsOf worker trace).map Errand.job).reverse ++ t.inbox)
  unknown : ¬ d.router.Hired worker → errandsOf worker trace = [] ∧ jobsHanded worker trace = []
  answers : repliesTaken worker trace ++ repliesFrom worker d.reports =
    (answersGiven (errandsOf worker trace)).reverse

namespace Books

variable [Service α] [Accountable α] [Candid α] {d d' : Daemon α} {m : Move} {worker : String}
  {trace : List (Daemon α × Move)}

/-- A step of the worker itself. -/
theorem goes (h : Books trace d worker) (sound : d.Sound) {t : Thread α} {step : Step α}
    (found : d.router.thread? worker = some t) (stepped : t.step? d.surroundings = some step) :
    t.Goes (errandsOf worker trace) step.events step.thread
      (errandsOf worker ((d, .work worker) :: trace)) := by
  obtain ⟨key, inside, -⟩ := sound.staff_adjust found id
  rw [errandsOf, Daemon.errandsAfter_work found stepped]
  exact Thread.goes_step (sound.listened found) (h.present t inside key).1 stepped

/-- The errands come in order, and are the first jobs that the worker was handed. -/
theorem orderly_step (h : Books trace d worker) (sound : d.Sound) (moved : d.step? m = some d') :
    InOrder (errandsOf worker ((d, m) :: trace)) ∧
      ((errandsOf worker ((d, m) :: trace)).map Errand.job).reverse <+:
        jobsHanded worker ((d, m) :: trace) := by
  by_cases own : m = .work worker
  · subst own
    cases Daemon.moves_of_step? moved with
    | @work _ t step found stepped =>
      have goes := h.goes sound found stepped
      obtain ⟨key, inside, -⟩ := sound.staff_adjust found id
      obtain ⟨left, moves, -⟩ := goes.jobs
      refine ⟨goes.fits.inOrder, left, ?_⟩
      rw [← moves, jobsHanded_cons_of_idle rfl]
      exact ((h.present t inside key).2 (Thread.running_of_step stepped)).symm
    | quiet outside _ _ _ _ => exact outside.elim
  · rw [errandsOf, Daemon.errandsAfter_of_ne own]
    exact ⟨h.inOrder, h.jobs.trans (jobsHanded_mono worker d m trace)⟩

/-- Whoever is there after a move has errands that fit. -/
theorem present_step (h : Books trace d worker) (sound : d.Sound) (moved : d.step? m = some d')
    {t' : Thread α} (member : t' ∈ d'.staff) (named : t'.identity = worker) :
    t'.phase.Fits (errandsOf worker ((d, m) :: trace)) ∧
      (t'.isFinished = false → jobsHanded worker ((d, m) :: trace) =
        ((errandsOf worker ((d, m) :: trace)).map Errand.job).reverse ++ t'.inbox) := by
  subst named
  cases sound.becomes moved t' member with
  | outside other hands =>
    rw [errandsOf, Daemon.errandsAfter_of_ne other]
    cases hands with
    | stays t inside alike nothing =>
      obtain ⟨fits, jobs⟩ := h.present t inside alike.identity.symm
      have running : t'.isFinished = t.isFinished := by
        unfold Thread.isFinished
        rw [alike.phase]
      rw [alike.phase, alike.inbox, running, jobsHanded_cons_of_none nothing]
      exact ⟨fits, jobs⟩
    | takes t job inside running given same =>
      have named : t'.identity = t.identity := by rw [same]
      obtain ⟨fits, jobs⟩ := h.present t inside named.symm
      rw [← named] at given
      rw [jobsHanded_cons_of_some given, jobs running]
      rw [same] at fits ⊢
      exact ⟨fits, fun _ => List.append_assoc _ _ _⟩
    | hired job new given same =>
      obtain ⟨nothing, idle⟩ := h.unknown new
      rw [jobsHanded_cons_of_some given, nothing, idle]
      rw [same]
      exact ⟨List.forall_mem_nil _, fun _ => rfl⟩
  | works t step inside named own found stepped same =>
    subst own same
    have goes := h.goes sound found stepped
    obtain ⟨left, moves, kept⟩ := goes.jobs
    have jobs := (h.present t inside named).2 (Thread.running_of_step stepped)
    rw [jobsHanded_cons_of_idle rfl, jobs, moves]
    exact ⟨goes.fits, fun running => by rw [kept running]⟩
  | crashes t inside crash same =>
    subst crash same
    exact ⟨(h.present t inside rfl).1.inOrder, nofun⟩

omit [Candid α] in
/-- Who was not hired so far got no job. -/
theorem unknown_step (h : Books trace d worker) (sound : d.Sound) (moved : d.step? m = some d')
    (new : ¬ d'.router.Hired worker) :
    errandsOf worker ((d, m) :: trace) = [] ∧ jobsHanded worker ((d, m) :: trace) = [] := by
  have before : ¬ d.router.Hired worker := fun hired => new ((sound.step moved).2.hired hired)
  obtain ⟨nothing, idle⟩ := h.unknown before
  have other : m ≠ .work worker := by
    rintro rfl
    cases Daemon.moves_of_step? moved with
    | work found _ =>
      obtain ⟨key, inside, -⟩ := sound.staff_adjust found id
      exact before (key ▸ sound.consistent.hired _ inside)
    | quiet outside _ _ _ _ => exact outside.elim
  rw [errandsOf, Daemon.errandsAfter_of_ne other,
    jobsHanded_cons_of_none fun job given => new (sound.hired_of_handsOver? moved given)]
  exact ⟨nothing, idle⟩

/-- The answers that are taken or wait to be taken are those of the errands. -/
theorem answers_step (h : ∀ worker, Books trace d worker) (sound : d.Sound)
    (moved : d.step? m = some d') (worker : String) :
    repliesTaken worker ((d, m) :: trace) ++ repliesFrom worker d'.reports =
      (answersGiven (errandsOf worker ((d, m) :: trace))).reverse := by
  obtain ⟨events, flow, source⟩ := Daemon.reports_step moved
  have all : repliesTaken worker ((d, m) :: trace) ++ repliesFrom worker d'.reports =
      (answersGiven (errandsOf worker trace)).reverse ++ repliesFrom worker events := by
    rw [repliesTaken_cons, List.append_assoc, ← repliesFrom_append, ← flow, repliesFrom_append,
      ← List.append_assoc, (h worker).answers]
  rw [all]
  rcases source with ⟨rfl, others⟩ | ⟨name, t, step, rfl, found, stepped, rfl⟩
  · rw [errandsOf, Daemon.errandsAfter_of_ne (others worker)]
    exact List.append_nil _
  · have goes := (h name).goes sound found stepped
    have key := (sound.staff_adjust found id).1
    by_cases same : name = worker
    · subst same
      rw [goes.answers, List.reverse_append, List.reverse_reverse, key]
    · rw [goes.others worker (key ▸ Ne.symm same), List.append_nil, errandsOf,
        Daemon.errandsAfter_of_ne (by simpa using same)]

end Books

/-! ### Runs -/

section Runs

variable [Service α] [Accountable α] [Candid α] {first d : Daemon α}
  {trace : List (Daemon α × Move)}

/-- In every state of every run the books of every worker are right, and whoever is leaving has
ended. -/
theorem Run.books (run : Run first trace d) (sound : first.Sound) (nobody : first.staff = [])
    (silent : first.reports = []) : d.Left ∧ ∀ worker, Books trace d worker := by
  induction run with
  | start =>
    refine ⟨Daemon.left_of_nobody (List.append_eq_nil_iff.mp nobody).2, fun worker => ?_⟩
    refine ⟨.settled (List.forall_mem_nil _), List.prefix_rfl, ?_, fun _ => ⟨rfl, rfl⟩, ?_⟩
    · rw [nobody]
      exact List.forall_mem_nil _
    · rw [silent]
      rfl
  | @step trace d d' m run moved ih =>
    obtain ⟨left, books⟩ := ih
    obtain ⟨before, -⟩ := run.sound sound
    refine ⟨left.step moved, fun worker => ?_⟩
    have book := books worker
    obtain ⟨inOrder, jobs⟩ := book.orderly_step before moved
    exact ⟨inOrder, jobs, fun t member named => book.present_step before moved member named,
      book.unknown_step before moved, Books.answers_step books before moved worker⟩

omit [Accountable α] [Candid α] in
/-- The answer that is taken next is that of the errand whose turn it is. -/
theorem Books.exists_errand {worker : String} (h : Books trace d worker) {client : Nat}
    {answer : Response} {rest : List Event}
    (first : d.reports = .reply worker client answer :: rest) :
    ∃ e, (errandsOf worker trace).reverse[(repliesTaken worker trace).length]? = some e ∧
      (jobsHanded worker trace)[(repliesTaken worker trace).length]? = some e.job ∧
      e.job.client = client ∧ e.answer = some answer ∧ e.IsCandid := by
  have next : (answersGiven (errandsOf worker trace)).reverse[(repliesTaken worker trace).length]? =
      some (client, answer) := by
    rw [← h.answers, List.getElem?_append_right (Nat.le_refl _), Nat.sub_self, first]
    simp [repliesFrom]
  obtain ⟨e, there, right, answered⟩ := h.inOrder.getElem?_answersGiven next
  refine ⟨e, there, ?_, right, answered, ?_⟩
  · obtain ⟨later, handed⟩ := h.jobs
    have place : ((errandsOf worker trace).map Errand.job).reverse[
        (repliesTaken worker trace).length]? = some e.job := by
      rw [← List.map_reverse, List.getElem?_map, there, Option.map_some]
    obtain ⟨inside, -⟩ := List.getElem?_eq_some_iff.mp place
    rw [← handed, List.getElem?_append_left inside]
    exact place
  · exact h.inOrder.isCandid e (List.mem_reverse.mp (List.mem_of_getElem? there))

end Runs

namespace Daemon

theorem backend_check (d : Daemon α) : d.check.backend = d.backend := by
  have noticed : d.notice.backend = d.backend := by
    unfold notice
    split <;> rfl
  unfold check
  dsimp only
  split
  · exact noticed
  · split
    · exact noticed
    · split <;> exact noticed

variable {d d' : Daemon α} {m : Move}

theorem backend_proceed (moved : d.proceed? = some d') : d'.backend = d.backend := by
  unfold proceed? at moved
  split at moved
  · cases moved
    exact d.backend_check
  · cases moved
    rfl
  · split at moved <;> cases moved <;> rfl
  · split at moved <;> cases moved
    rfl
  · split at moved <;> cases moved <;> rfl
  · cases moved

/-- Nothing but a step of a worker or a change from outside touches the backend. -/
theorem backend_step [Service α] (moved : d.step? m = some d')
    (steps : ∀ worker, m ≠ .work worker) (changes : ∀ f, m ≠ .change f) :
    d'.backend = d.backend := by
  unfold step? at moved
  split at moved
  next => split at moved <;> cases moved; rfl
  next => split at moved <;> cases moved; rfl
  next => cases moved; rfl
  next => cases moved; rfl
  next => split at moved <;> cases moved; rfl
  next =>
    split at moved
    · cases moved
    · split at moved <;> cases moved
      rfl
  next f => exact absurd rfl (changes f)
  next worker => exact absurd rfl (steps worker)
  next => split at moved <;> cases moved; rfl
  next => split at moved <;> cases moved; rfl
  next => split at moved <;> cases moved; rfl
  next => exact backend_proceed moved

end Daemon

/-- A frame that is too large is all that keeps a response from being written. -/
theorem limit_lt_of_encode {codec : Codec} {response : Response} {e : CodecError}
    (refused : codec.encode response.toValue = .error e) :
    codec.limit < response.toValue.bytes.length := by
  have opening : response.toValue.bytes ≠ [] := object_bytes_ne_nil _
  unfold Codec.encode Codec.frame at refused
  split at refused
  · next empty => exact absurd (List.isEmpty_iff.mp empty) opening
  · split at refused
    · assumption
    · cases refused

/-! ### Failures -/

/-- Where a failure that a client is told comes from. The broker refused what it heard, and nothing
was done for it; or a worker answered the job whose turn it was, and if the job was to send, then
nothing that was done for it touched the backend, unless it succeeded with an answer that is too
large for a frame; or a worker has crashed with the job. -/
inductive FailureSource [Service α] (limit : Nat) (trace : List (Daemon α × Move)) (d : Daemon α)
    (m : Move) (d' : Daemon α) (client : Nat) (answer : Response) : Prop where
  | refused (arrival : Arrival) : d.taken? m = some arrival → d.handsOver? m = none →
    arrival.demand? = some (client, answer.requestId) → d'.backend = d.backend →
    FailureSource limit trace d m d' client answer
  | answered (worker : String) (e : Errand) : d.heeds? m = some (.reply worker client answer) →
    (errandsOf worker trace).reverse[(repliesTaken worker trace).length]? = some e →
    (jobsHanded worker trace)[(repliesTaken worker trace).length]? = some e.job →
    e.job.client = client → e.answer = some answer → d'.backend = d.backend →
    (e.job.request.IsSend →
      e.IsHarmless ∨ answer.success = true ∧ limit < answer.toValue.bytes.length) →
    FailureSource limit trace d m d' client answer
  | lost (t : Thread α) (job : Job) : t ∈ d.stage.leaving → t.crashed = true →
    job ∈ t.unanswered → job.client = client → answer.worker = t.identity →
    answer.requestId = reference job.request.requestId →
    FailureSource limit trace d m d' client answer

theorem Daemon.reports_of_heeds? {d : Daemon α} {m : Move} {report : Event}
    (taken : d.heeds? m = some report) : ∃ rest, d.reports = report :: rest := by
  have first (head : d.reports.head? = some report) : ∃ rest, d.reports = report :: rest :=
    List.head?_eq_some_iff.mp head
  unfold heeds? at taken
  split at taken
  · exact first taken
  · split at taken
    · exact first taken
    · exact first taken
    · cases taken
  · cases taken

/-- A frame that a client gets in a move is that of an answer of this move or of its substitute. If
it reports a failure, then what was to be sent was not, unless an answer that is too large or a
crash hides that it was. -/
theorem failed_send_leaves_backend {address : String} {limit pollInterval drainTimeout : Nat}
    {recruit : Nat → Except String String} {backend : Rehearsal} {epoch : Int}
    (fresh : (Setup.relay address limit recruit pollInterval drainTimeout).Fresh)
    {trace : List (Daemon Family × Move)} {d d' : Daemon Family} {m : Move}
    (run : Run (.start (.relay address limit recruit pollInterval drainTimeout) backend epoch)
      trace d)
    (moved : d.step? m = some d') :
    ∃ added, d'.router.journal = added ++ d.router.journal ∧
      ∀ later client frame older, added = later ++ .sent client frame :: older →
        ∃ answer response, StandsFor ⟨limit⟩ answer response ∧
          Codec.encode ⟨limit⟩ response.toValue = .ok frame ∧
          (response.success = false → FailureSource limit trace d m d' client answer) := by
  have start := Daemon.sound_start fresh (Family.registry_assigns limit) backend epoch
  obtain ⟨sound, taken⟩ := run.sound start
  obtain ⟨left, books⟩ := run.books start rfl rfl
  have codec : d.router.setup.codec = ⟨limit⟩ := by
    rw [taken.setup]
    rfl
  obtain ⟨-, added, journal, framed, gives⟩ := sound.gives left moved
  rw [codec] at framed
  refine ⟨added, journal, ?_⟩
  intro later client frame older split
  obtain ⟨answer, response, member, stands, encoded⟩ := framed.answer_mem split
  refine ⟨answer, response, stands, encoded, fun failed => ?_⟩
  cases gives client answer member with
  | refused arrival arrived nobody demanded =>
    have still : d'.backend = d.backend := by
      refine Daemon.backend_step moved ?_ ?_
      · rintro worker rfl
        cases arrived
      · rintro f rfl
        cases arrived
    exact .refused arrival arrived nobody demanded still
  | reported worker heeded =>
    have still : d'.backend = d.backend := by
      refine Daemon.backend_step moved ?_ ?_
      · rintro worker rfl
        cases heeded
      · rintro f rfl
        cases heeded
    obtain ⟨rest, first⟩ := Daemon.reports_of_heeds? heeded
    obtain ⟨e, turn, job, right, answered, candid⟩ := (books worker).exists_errand first
    refine .answered worker e heeded turn job right answered still fun sends => ?_
    -- A failure is told as it is; a success is told as one only in a substitute.
    cases succeeded : answer.success with
    | false => exact Or.inl (candid sends answer answered succeeded)
    | true =>
      rcases stands with rfl | ⟨e, refused, -⟩
      · rw [succeeded] at failed
        cases failed
      · exact Or.inr ⟨rfl, limit_lt_of_encode refused⟩
  | lost t job leaves crashed unanswered right sender named =>
    exact .lost t job leaves crashed unanswered right sender named

/-- Does the frame that was sent last report a success? -/
def Daemon.toldLast? (d : Daemon α) : Option Bool :=
  match d.router.journal with
  | .sent _ frame :: _ =>
    (d.router.setup.codec.decode Response.take frame).toOption.map Response.success
  | _ => none

/-- A request to put a text into a queue. -/
def putText (worker : Option String) (text : String) : Request where
  action := "PUT"
  requestId := ""
  worker := worker
  context := ⟨[("endpoint", .string "queue:Q"), ("url", .string "mq://h")]⟩
  payload := some (.string text)

theorem Daemon.journal_of_toldLast? {d : Daemon α} {success : Bool}
    (told : d.toldLast? = some success) :
    ∃ client frame older, d.router.journal = .sent client frame :: older := by
  unfold toldLast? at told
  split at told
  · next client frame older same => exact ⟨client, frame, older, same⟩
  · cases told

/-- A worker without a connection refuses to put, and the client is told. -/
theorem refused_put_leaves_backend :
    ∃ trace d d' client frame older, Run (.start (.forOne "w") .empty 0) trace d ∧
      d.step? .takeReport = some d' ∧ d'.toldLast? = some false ∧
      d'.router.journal = .sent client frame :: (older ++ d.router.journal) ∧
      ∃ answer response, StandsFor ⟨4096⟩ answer response ∧
        Codec.encode ⟨4096⟩ response.toValue = .ok frame ∧
        (response.success = false → FailureSource 4096 trace d .takeReport d' client answer) := by
  have moved : ((Daemon.start (.forOne "w") .empty 0).run?
      [.connect "127.0.0.1:1", .read 1 (.ofRequest (putText none "x")), .takeArrival, .proceed,
        .proceed, .work "w", .work "w", .work "w"]).map
      (fun d => (d.step? .takeReport).map fun d' =>
        (d'.toldLast?, d'.router.journal.length - d.router.journal.length)) =
      some (some (some false, 2)) := by
    simp only [Daemon.step?, Router.onReport, Router.reply, Codec.encode, Chunk.ofRequest,
      Json.Value.bytes_eq]
    decide +kernel
  obtain ⟨trace, d, run, after⟩ := Run.exists_of_run? moved
  obtain ⟨d', taken, same⟩ := Option.map_eq_some_iff.mp after
  simp only [Prod.mk.injEq] at same
  obtain ⟨told, grown⟩ := same
  obtain ⟨client, frame, before, last⟩ := Daemon.journal_of_toldLast? told
  obtain ⟨added, journal, sources⟩ :=
    failed_send_leaves_backend (Setup.fresh_forOne "w") run taken
  rw [journal] at last grown
  cases added with
  | nil => simp at grown
  | cons effect older =>
    obtain ⟨rfl, -⟩ := List.cons.inj last
    exact ⟨trace, d, d', client, frame, older, run, taken, told, journal,
      sources [] client frame older rfl⟩

/-- The setup of a broker that can hire one worker, and whose frames are short. -/
def Setup.narrow : Setup Family :=
  .relay "127.0.0.1:0" 169 (fun n => if n = 0 then .ok "w" else .error "nobody is left") 10 10

/-- A run in which a worker is hired and connects to a queue manager. -/
def connecting : List Move :=
  let request := Request.new "CONN" ⟨[("url", .string "mq://h:1/?QueueManager=M&Channel=C")]⟩
  [.connect "127.0.0.1:1", .read 1 (.ofRequest request), .takeArrival, .proceed, .proceed,
    .work "w", .work "w", .work "w", .work "w", .takeReport, .proceed, .proceed]

/-- The request to put fits a frame. Its answer does not, or its worker crashes before it answers:
the client is told a failure, and the message is in the queue. -/
theorem stored_message_reported_as_failed :
    ∃ trace d, Run (.start .narrow .empty 0) trace d ∧ d.backend.memory.depth "M" "Q" = 0 ∧
      (∃ d', d.run? [.read 1 (.ofRequest (putText "w" "xx")),
          .takeArrival, .proceed, .proceed, .work "w", .work "w", .work "w", .takeReport] =
            some d' ∧
        (putText "w" "xx").toValue.bytes.length ≤ 169 ∧
        d'.toldLast? = some false ∧ d'.backend.memory.depth "M" "Q" = 1) ∧
      (∃ d', d.run? [.read 1 (.ofRequest (putText "w" "x")), .takeArrival, .proceed, .proceed,
          .work "w", .work "w", .crash "w", .idle, .proceed, .proceed, .proceed] = some d' ∧
        d'.toldLast? = some false ∧ d'.backend.memory.depth "M" "Q" = 1) := by
  have moved : ((Daemon.start .narrow .empty 0).run? connecting).map (fun d =>
      (d.backend.memory.depth "M" "Q",
        (d.run? [.read 1 (.ofRequest (putText "w" "xx")),
          .takeArrival, .proceed, .proceed, .work "w", .work "w", .work "w", .takeReport]).map
            fun d' => (d'.toldLast?, d'.backend.memory.depth "M" "Q"),
        (d.run? [.read 1 (.ofRequest (putText "w" "x")), .takeArrival, .proceed, .proceed,
          .work "w", .work "w", .crash "w", .idle, .proceed, .proceed, .proceed]).map
            fun d' => (d'.toldLast?, d'.backend.memory.depth "M" "Q"))) =
      some (0, some (some false, 1), some (some false, 1)) := by
    simp only [connecting, Daemon.run?, Daemon.step?, Daemon.proceed?, Router.onReport,
      Router.dismiss, Router.abandon, Router.reply, Codec.encode, Chunk.ofRequest,
      Json.Value.bytes_eq]
    decide +kernel
  have fits : (putText "w" "xx").toValue.bytes.length ≤ 169 := by
    rw [Json.Value.bytes_eq]
    decide +kernel
  obtain ⟨trace, d, run, same⟩ := Run.exists_of_run? moved
  simp only [Prod.mk.injEq, Option.map_eq_some_iff] at same
  obtain ⟨empty, ⟨d', served, told, stored⟩, ⟨d'', crashed, told', stored'⟩⟩ := same
  exact ⟨trace, d, run, empty, ⟨d', served, fits, told, stored⟩, ⟨d'', crashed, told', stored'⟩⟩

end SessionRelay.Broker
