import SessionRelay.Proofs.Broker.Pending
import SessionRelay.Proofs.Broker.Staff
import SessionRelay.Proofs.Integration.Reasons

/-!
Where answers come from. In one move of the broker each frame that leaves is that of an answer which
is decided on in the same move; and each answer is that of a worker's report, or the broker's own to
something that it heard and handed to nobody, or its own for a job that a crash has lost.
-/

namespace SessionRelay.Broker

open Backend Wire Worker Integration

variable {α : Type}

theorem lastAnswer?_append {journal : List Effect} {last : Nat × Response}
    (h : lastAnswer? journal = some last) (older : List Effect) :
    lastAnswer? (journal ++ older) = some last := by
  induction journal with
  | nil => cases h
  | cons effect rest ih =>
    cases effect with
    | answered client response => exact h
    | _ => exact ih h

theorem Framed.append {codec : Codec} {added journal : List Effect} (h : Framed codec added)
    (h' : Framed codec journal) : Framed codec (added ++ journal) := by
  induction added with
  | nil => exact h'
  | cons effect rest ih =>
    cases effect with
    | sent client frame =>
      obtain ⟨⟨answer, response, last, stands⟩, earlier⟩ := h
      exact ⟨⟨answer, response, lastAnswer?_append last journal, stands⟩, ih earlier⟩
    | _ => exact ih h

/-- What comes with an answer is framed by it alone. -/
theorem Framed.of_answered {codec : Codec} {added journal : List Effect} {client : Nat}
    {response : Response} (incidental : ∀ e ∈ added, e.IsIncidental)
    (h : Framed codec (added ++ .answered client response :: journal)) :
    Framed codec (added ++ [.answered client response]) := by
  have last (added : List Effect) (incidental : ∀ e ∈ added, e.IsIncidental)
      (older : List Effect) :
      lastAnswer? (added ++ .answered client response :: older) = some (client, response) := by
    induction added with
    | nil => rfl
    | cons effect rest ih =>
      have first := incidental effect List.mem_cons_self
      have later := ih fun e member => incidental e (List.mem_cons_of_mem _ member)
      cases effect with
      | answered _ _ => exact first.elim
      | _ => exact later
  induction added with
  | nil => trivial
  | cons effect rest ih =>
    have others : ∀ e ∈ rest, e.IsIncidental := fun e member =>
      incidental e (List.mem_cons_of_mem _ member)
    cases effect with
    | sent client frame =>
      obtain ⟨⟨answer, written, decided, stands⟩, earlier⟩ := h
      have same := (last rest others journal).symm.trans decided
      exact ⟨⟨answer, written, (last rest others []).trans same, stands⟩, ih others earlier⟩
    | _ => exact ih others h

/-- Every frame among these effects is that of one of the answers among them. -/
theorem Framed.answer_mem {codec : Codec} {added later older : List Effect} {client : Nat}
    {frame : Bytes} (h : Framed codec added)
    (split : added = later ++ .sent client frame :: older) :
    ∃ answer response, .answered client answer ∈ added ∧ StandsFor codec answer response ∧
      codec.encode response.toValue = .ok frame := by
  obtain ⟨answer, response, last, stands, encoded⟩ := h.of_sent split
  have inside (journal : List Effect) (last : lastAnswer? journal = some (client, answer)) :
      .answered client answer ∈ journal := by
    induction journal with
    | nil => cases last
    | cons effect rest ih =>
      cases effect with
      | answered _ _ =>
        cases last
        exact List.mem_cons_self
      | _ => exact List.mem_cons_of_mem _ (ih last)
  refine ⟨answer, response, ?_, stands, encoded⟩
  rw [split]
  exact List.mem_append_right _ (List.mem_cons_of_mem _ (inside older last))

/-- What is heard of a client brings about an answer: one that names the request, if it is one, and
else the broker's refusal, which names none. -/
inductive Arrival.Prompts : Arrival → Nat → Response → Prop where
  | request {client : Nat} {payload : Bytes} {request : Request} {answer : Response} :
    Codec.decodePayload Request.take payload = .ok request →
    answer.requestId = reference request.requestId → Prompts (.frame client payload) client answer
  | unreadable {client : Nat} {payload : Bytes} {e : CodecError} :
    Codec.decodePayload Request.take payload = .error e →
    Prompts (.frame client payload) client (.failed "" s!"invalid request: {e.message}")
  | malformed {client : Nat} {reason : String} :
    Prompts (.malformed client reason) client (.failed "" s!"invalid request: {reason}")

theorem Arrival.Prompts.demand?_eq {a : Arrival} {client : Nat} {answer : Response}
    (prompts : a.Prompts client answer) : a.demand? = some (client, answer.requestId) := by
  cases prompts with
  | request decoded named => rw [demand?, decoded, named]
  | unreadable refused =>
    rw [demand?, refused]
    rfl
  | malformed => rfl

namespace Router

/-- All answers that are decided on between two states of the tables satisfy `P`, and the frames
that leave are framed by them. -/
structure Says (P : Nat → Response → Prop) (r r' : Router α) : Prop where
  setup : r'.setup = r.setup
  said : ∃ added, r'.journal = added ++ r.journal ∧ Framed r.setup.codec added ∧
    ∀ client answer, .answered client answer ∈ added → P client answer

variable {P : Nat → Response → Prop} {r r' r'' : Router α}

theorem says_of_journal (setup : r'.setup = r.setup) (journal : r'.journal = r.journal) :
    r.Says P r' :=
  ⟨setup, [], journal, trivial, fun _ _ => nofun⟩

theorem Says.trans (h : r.Says P r') (h' : r'.Says P r'') : r.Says P r'' := by
  obtain ⟨added, first, framed, all⟩ := h.said
  obtain ⟨more, second, framed', all'⟩ := h'.said
  rw [h.setup] at framed'
  refine ⟨h'.setup.trans h.setup, more ++ added, ?_, framed'.append framed, ?_⟩
  · rw [second, first, List.append_assoc]
  · intro client answer member
    rcases List.mem_append.mp member with later | earlier
    · exact all' client answer later
    · exact all client answer earlier

theorem Says.framed (h : r.Says P r') (before : Framed r.setup.codec r.journal) :
    Framed r'.setup.codec r'.journal := by
  obtain ⟨added, journal, framed, -⟩ := h.said
  rw [h.setup, journal]
  exact framed.append before

theorem Silent.says_nothing (h : r.Silent r') : r.Says P r' := by
  obtain ⟨connections, added, quiet, rfl⟩ := h
  have framed := (framed_quiet quiet [] r.setup.codec).mpr trivial
  rw [List.append_nil] at framed
  exact ⟨rfl, added, rfl, framed, fun client answer member => (quiet _ member).elim⟩

theorem says_reply (framed : Framed r.setup.codec r.journal) {client : Nat} {response : Response}
    (right : P client response) : r.Says P (r.reply client response) := by
  obtain ⟨_, journal', replied, -, keeps⟩ := r.reply_answers client response
  obtain ⟨connections, added, incidental, same⟩ := r.gains_reply client response
  have setup : (r.reply client response).setup = r.setup := by
    rw [same]
    rfl
  have journal : (r.reply client response).journal =
      added ++ .answered client response :: r.journal := by
    rw [same]
    rfl
  have written : journal' = added ++ .answered client response :: r.journal :=
    (congrArg Router.journal replied).symm.trans journal
  have whole := keeps framed
  rw [written] at whole
  refine ⟨setup, added ++ [.answered client response], ?_, .of_answered incidental whole, ?_⟩
  · rw [journal, List.append_assoc]
    rfl
  · intro receiver answer member
    rcases List.mem_append.mp member with beside | own
    · exact (incidental _ beside).elim
    · cases List.mem_singleton.mp own
      exact right

theorem says_foldl {β : Type} {f : Router α → β → Router α} {items : List β}
    (step : ∀ r : Router α, Framed r.setup.codec r.journal → ∀ b ∈ items, r.Says P (f r b))
    (framed : Framed r.setup.codec r.journal) : r.Says P (items.foldl f r) := by
  induction items generalizing r with
  | nil => exact says_of_journal rfl rfl
  | cons b rest ih =>
    have first := step r framed b List.mem_cons_self
    exact first.trans
      (ih (fun r framed b member => step r framed b (List.mem_cons_of_mem _ member))
        (first.framed framed))

theorem says_retire (r : Router α) (identity : String) : r.Says P (r.retire identity) := by
  unfold Router.retire
  split <;> exact says_of_journal rfl rfl

theorem says_foldl_retire (identities : List String) (r : Router α) :
    r.Says P (identities.foldl retire r) := by
  induction identities generalizing r with
  | nil => exact says_of_journal rfl rfl
  | cons identity rest ih => exact (r.says_retire identity).trans (ih _)

/-- A report is passed on. -/
theorem says_onReport (framed : Framed r.setup.codec r.journal) {e : Event}
    (right : ∀ worker client response, e = .reply worker client response → P client response) :
    r.Says P (r.onReport e) := by
  cases e with
  | reply worker client response =>
    have struck : r.Says P (r.strikeOff worker) := by
      unfold Router.strikeOff
      split <;> exact says_of_journal rfl rfl
    exact struck.trans (says_reply (struck.framed framed) (right worker client response rfl))
  | stopped worker =>
    have logged := r.silent_log .info "Worker stopped, session removed"
      [("worker", .string worker)]
    exact logged.says_nothing.trans (says_retire _ worker)

/-- A refusal of the broker says in a phrase why. -/
theorem forthright_refusal (worker requestId : String) {reason : String}
    (phrase : IsPhrase reason) :
    ((Response.failed worker reason).forRequest requestId).Forthright :=
  (Response.forthright_failed worker phrase).forRequest requestId

/-- A job is handed over, or its request is answered. -/
theorem says_dispatch (framed : Framed r.setup.codec r.journal) {identity : String} {job : Job}
    (right : r.handed? identity job = none → ∀ answer : Response, answer.Forthright →
      answer.requestId = reference job.request.requestId → P job.client answer) :
    r.Says P (r.dispatch identity job) := by
  unfold Router.dispatch
  unfold handed? at right
  cases taken : r.handOver? identity job with
  | some r' =>
    obtain ⟨t, -, -, rfl⟩ := handOver?_eq_some taken
    exact says_of_journal rfl rfl
  | none =>
    have retired := r.says_retire (P := P) identity
    rw [taken] at right
    refine retired.trans (says_reply (retired.framed framed)
      (right rfl _ (forthright_refusal _ _ ?_) (Response.failed_forRequest_requestId _ _ _)))
    repeat first | decide | apply IsPhrase.append

/-- A request is answered if nobody gets it as a job. -/
theorem says_route (framed : Framed r.setup.codec r.journal) {client : Nat} {payload : Bytes}
    {request : Request} (decoded : Codec.decodePayload Request.take payload = .ok request)
    (right : r.handsOver? (.frame client payload) = none → ∀ answer : Response,
      answer.Forthright → answer.requestId = reference request.requestId → P client answer) :
    r.Says P (r.route client request) := by
  have refused (nobody : r.handsOver? (.frame client payload) = none) {reason : String}
      (phrase : IsPhrase reason) :
      P client ((Response.failed "" reason).forRequest request.requestId) :=
    right nobody _ (forthright_refusal "" _ phrase)
      (Response.failed_forRequest_requestId "" reason request.requestId)
  cases named : request.worker with
  | some identity =>
    simp only [Router.route, named]
    refine says_dispatch framed fun nobody => right ?_
    simpa only [handsOver?, decoded, named] using nobody
  | none =>
    simp only [Router.route, named]
    split
    · next draining =>
      have nobody : r.handsOver? (.frame client payload) = none := by
        simp only [handsOver?, decoded, named, mint?, draining, if_true]
      exact says_reply framed (refused nobody (by decide))
    · next running =>
      cases next : r.setup.recruit r.recruited with
      | error reason =>
        have minted : r.mint? = none := by
          rw [mint?, if_neg running, next]
          rfl
        have nobody : r.handsOver? (.frame client payload) = none := by
          simp only [handsOver?, decoded, named, minted]
        have grown : r.Says P { r with recruited := r.recruited + 1 } := says_of_journal rfl rfl
        refine grown.trans (says_reply (grown.framed framed) (refused nobody ?_))
        repeat first | decide | apply IsPhrase.append
      | ok identity =>
        have minted : r.mint? = some identity := by
          rw [mint?, if_neg running, next]
          rfl
        have logged := Silent.says_nothing (P := P)
          (silent_log { r with recruited := r.recruited + 1 } .debug
            "Spawned worker for new session"
            [("client_id", .nat client), ("worker", .string identity)])
        have hired : r.Says P (hire { r with recruited := r.recruited + 1 } client identity) :=
          ⟨logged.setup, logged.said⟩
        refine hired.trans (says_dispatch (hired.framed framed) fun nobody => right ?_)
        simp only [handsOver?, decoded, named, minted]
        exact nobody

/-- What is heard of a client is answered if nobody gets a job for it. -/
theorem says_onArrival (framed : Framed r.setup.codec r.journal) {a : Arrival}
    (right : r.handsOver? a = none → ∀ client (answer : Response), answer.Forthright →
      a.Prompts client answer → P client answer) :
    r.Says P (r.onArrival a) := by
  have invalid (reason : String) :
      (Response.failed "" s!"invalid request: {reason}").Forthright := by
    apply Response.forthright_failed
    repeat first | decide | apply IsPhrase.append
  cases a with
  | frame client payload =>
    cases decoded : Codec.decodePayload Request.take payload with
    | error e =>
      have nobody : r.handsOver? (.frame client payload) = none := by
        simp only [handsOver?, decoded]
      simp only [Router.onArrival, decoded]
      exact says_reply framed (right nobody client _ (invalid _) (.unreadable decoded))
    | ok request =>
      rw [onArrival_request decoded]
      exact says_route framed decoded fun nobody answer forthright same =>
        right nobody client answer forthright (.request decoded same)
  | malformed client reason =>
    have replied : r.Says P (r.reply client (.failed "" s!"invalid request: {reason}")) :=
      says_reply framed (right rfl client _ (invalid reason) .malformed)
    exact replied.trans (silent_disconnect _ client).says_nothing
  | disconnected client =>
    exact ((r.silent_log _ _ _).trans (silent_disconnect _ client)).says_nothing

/-- The answer in the place of a worker for each job that is pending at it. -/
def AnswersFor (P : Nat → Response → Prop) (worker : String) (jobs : List PendingJob) : Prop :=
  ∀ job ∈ jobs, ∀ answer : Response, answer.Forthright → answer.worker = worker →
    answer.requestId = reference job.requestId → P job.client answer

theorem says_abandon (framed : Framed r.setup.codec r.journal) {worker : String}
    (right : AnswersFor P worker (waiting worker r.pending)) : r.Says P (r.abandon worker) := by
  unfold Router.abandon
  unfold waiting at right
  split
  · exact says_of_journal rfl rfl
  · next jobs found =>
    rw [found] at right
    have cleared : r.Says P { r with pending := KeyTable.without worker r.pending } :=
      says_of_journal rfl rfl
    refine cleared.trans (says_foldl (fun r framed job member => ?_) (cleared.framed framed))
    refine says_reply framed (right job member _ (forthright_refusal _ _ ?_)
      (Response.forRequest_worker _ _) (Response.failed_forRequest_requestId _ _ _))
    repeat first | decide | apply IsPhrase.append

theorem mem_waiting_without {worker name : String} {pending : KeyTable (List PendingJob)}
    {job : PendingJob} (member : job ∈ waiting worker (KeyTable.without name pending)) :
    job ∈ waiting worker pending := by
  unfold waiting at member ⊢
  by_cases same : worker = name
  · subst same
    have none : KeyTable.value? worker (KeyTable.without worker pending) = none :=
      KeyTable.value?_eq_none_iff.mpr fun inside => by
        obtain ⟨entry, kept, named⟩ := List.mem_map.mp inside
        exact (KeyTable.mem_without.mp kept).2 named
    rw [none] at member
    cases member
  · rwa [KeyTable.value?_without_ne same] at member

/-- Whoever abandons workers one after the other answers for each of them. -/
theorem says_foldl_abandon {β : Type} {f : Router α → β → Router α} {name : β → String}
    (step : ∀ (r : Router α) b, ∃ r₀, r.Silent r₀ ∧ f r b = r₀.abandon (name b)) {items : List β}
    (framed : Framed r.setup.codec r.journal)
    (right : ∀ b ∈ items, AnswersFor P (name b) (waiting (name b) r.pending)) :
    r.Says P (items.foldl f r) := by
  induction items generalizing r with
  | nil => exact says_of_journal rfl rfl
  | cons b rest ih =>
    obtain ⟨r₀, silent, abandons⟩ := step r b
    have quiet := silent.says_nothing (P := P)
    have pending := silent.answers.pending
    have first : r.Says P (f r b) := by
      rw [abandons]
      refine quiet.trans (says_abandon (quiet.framed framed) ?_)
      rw [pending]
      exact right b List.mem_cons_self
    refine first.trans (ih (first.framed framed) fun b' member job owed => ?_)
    rw [abandons, (abandon_answers r₀ (name b)).pending] at owed
    refine right b' (List.mem_cons_of_mem _ member) job ?_
    rw [← pending]
    exact mem_waiting_without owed

theorem says_dismiss (framed : Framed r.setup.codec r.journal) {threads : List (Thread α)}
    (right : ∀ t ∈ threads, AnswersFor P t.identity (waiting t.identity r.pending)) :
    r.Says P (r.dismiss threads) :=
  says_foldl_abandon (fun r t => ⟨r.join t, r.silent_join t, rfl⟩) framed right

theorem says_abandonAll (framed : Framed r.setup.codec r.journal)
    (right : ∀ worker, AnswersFor P worker (waiting worker r.pending)) :
    r.Says P r.abandonAll :=
  says_foldl_abandon (fun r _ => ⟨r, .refl r, rfl⟩) framed fun worker _ => right worker

end Router

namespace Daemon

/-- Where an answer comes from. -/
inductive Gives (d : Daemon α) (m : Move) (client : Nat) (answer : Response) : Prop where
  | refused (arrival : Arrival) : d.taken? m = some arrival → d.handsOver? m = none →
    arrival.demand? = some (client, answer.requestId) → Gives d m client answer
  | reported (worker : String) : d.heeds? m = some (.reply worker client answer) →
    Gives d m client answer
  | lost (t : Thread α) (job : Job) : t ∈ d.stage.leaving → t.crashed = true →
    job ∈ t.unanswered → job.client = client → answer.worker = t.identity →
    answer.requestId = reference job.request.requestId → Gives d m client answer

/-- Whoever is leaving has ended. -/
def Left (d : Daemon α) : Prop := ∀ t ∈ d.stage.leaving, t.isFinished = true

theorem left_of_nobody {d : Daemon α} (none : d.stage.leaving = []) : d.Left := by
  intro t member
  rw [none] at member
  cases member

theorem left_reap (d : Daemon α) : d.reap.Left := by
  intro t member
  simp only [reap, List.partition_eq_filter_filter] at member
  split at member
  · cases member
  · exact (List.mem_filter.mp member).2

variable [Service α] {d d' : Daemon α} {m : Move}

theorem Left.step (h : d.Left) (moved : d.step? m = some d') : d'.Left := by
  cases moves_of_step? moved with
  | quiet _ _ _ leaving _ =>
    unfold Left
    rw [leaving]
    exact h
  | work _ _ => exact h
  | crash _ _ => exact h
  | arrive _ _ => exact left_of_nobody rfl
  | hear _ _ => exact left_of_nobody rfl
  | check _ => exact left_of_nobody d.leaving_check
  | reap _ => exact d.left_reap
  | heed _ _ => exact h
  | dismiss _ _ => exact left_of_nobody rfl
  | join _ all => exact List.all_eq_true.mp all
  | conclude _ _ => exact left_of_nobody rfl

variable [Accountable α]

/-- What is due from a worker that is leaving was lost in a crash. -/
theorem Sound.answersFor_leaving (h : d.Sound) (left : d.Left) (heard : d.reports = [])
    {t : Thread α} (leaves : t ∈ d.stage.leaving) (m : Move) :
    Router.AnswersFor (d.Gives m) t.identity (waiting t.identity d.router.pending) := by
  have inside : t ∈ d.staff := List.mem_append_right _ leaves
  have owed := h.mirrored.queues t inside
  rw [heard, ticketsFrom_nil, List.map_nil, List.nil_append] at owed
  rw [owed]
  intro pending member answer _ sender named
  obtain ⟨job, unanswered, rfl⟩ := List.mem_map.mp member
  refine .lost t job leaves ?_ unanswered rfl sender named
  have settled := h.mirrored.loses t inside
  have ended := left t leaves
  unfold Thread.crashed
  unfold Thread.isFinished at ended
  unfold Thread.unanswered at unanswered
  split at ended
  · next clean lost phase =>
    rw [phase] at unanswered settled
    cases clean with
    | false => rfl
    | true =>
      rw [settled lost rfl] at unanswered
      cases unanswered
  · cases ended

/-- At the end all that is due was lost in a crash. -/
theorem Sound.answersFor_emptying (h : d.Sound) (left : d.Left) {count : Nat}
    {joined : List (Thread α)} (emptying : d.stage = .emptying count joined) (heard : d.reports = [])
    (worker : String) (m : Move) :
    Router.AnswersFor (d.Gives m) worker (waiting worker d.router.pending) := by
  have cleared := h.cleared
  unfold Cleared at cleared
  rw [emptying] at cleared
  have everybody : d.staff = d.stage.leaving := by
    rw [staff, Router.threads, cleared.1, cleared.2]
    rfl
  by_cases known : worker ∈ d.staff.map Thread.identity
  · rw [everybody] at known
    obtain ⟨t, leaves, rfl⟩ := List.mem_map.mp known
    exact h.answersFor_leaving left heard leaves m
  · rw [(h.mirrored.strangers worker known).1]
    exact List.forall_mem_nil _

omit [Service α] [Accountable α] in
theorem says_check (d : Daemon α) {P : Nat → Response → Prop} :
    d.router.Says P d.check.router := by
  have noticed : d.router.Says P d.notice.router := by
    unfold notice
    split
    · have begun : d.router.Says P { d.router with draining := true } :=
        Router.says_of_journal rfl rfl
      exact begun.trans (Router.silent_log _ _ _ _).says_nothing
    · exact Router.says_of_journal rfl rfl
  have retired (r : Router α) : r.Says P r.retireAll := Router.says_foldl_retire _ r
  unfold check
  dsimp only
  split
  · exact noticed
  · split
    · exact noticed.trans (retired _)
    · split
      · exact (noticed.trans (Router.silent_log _ _ _ _).says_nothing).trans (retired _)
      · exact noticed

omit [Accountable α] in
/-- What is said in one move: refusals of what was taken, the reports that are heeded, and answers
in the place of workers that left. -/
theorem says_of_step? {P : Nat → Response → Prop}
    (framed : Framed d.router.setup.codec d.router.journal) (moved : d.step? m = some d')
    (refuses : ∀ arrival, d.taken? m = some arrival → d.handsOver? m = none →
      ∀ client (answer : Response), answer.Forthright → arrival.Prompts client answer →
        P client answer)
    (reports : ∀ worker client response, d.heeds? m = some (.reply worker client response) →
      P client response)
    (dismisses : ∀ finished, d.stage = .collecting finished → d.reports = [] →
      ∀ t ∈ finished, Router.AnswersFor P t.identity (waiting t.identity d.router.pending))
    (concludes : ∀ count joined, d.stage = .emptying count joined → d.reports = [] →
      ∀ worker, Router.AnswersFor P worker (waiting worker d.router.pending)) :
    d.router.Says P d'.router := by
  cases moves_of_step? moved with
  | quiet _ silent _ _ _ => exact silent.says_nothing
  | @work worker _ step _ _ =>
    have logged := (d.router.adjust worker fun _ => step.thread).silent_entries step.entries
    have said := logged.says_nothing (P := P)
    exact ⟨said.setup, said.said⟩
  | crash _ _ => exact Router.says_of_journal rfl rfl
  | @arrive arrival _ _ first =>
    have taken : d.taken? .takeArrival = some arrival := by
      rw [taken?, first]
      rfl
    refine Router.says_onArrival framed fun nobody client answer => ?_
    exact refuses arrival taken (by rw [handsOver?, taken]; exact nobody) client answer
  | @hear report _ _ first =>
    refine Router.says_onReport framed fun worker client response same => ?_
    exact reports worker client response (by rw [heeds?, first, same]; rfl)
  | check _ => exact d.says_check
  | reap _ =>
    obtain ⟨running, finished, same, -⟩ := d.reap_eq
    have retired : d.router.Says P d.router.retireFinished := Router.says_foldl_retire _ d.router
    rw [same]
    exact ⟨retired.setup, retired.said⟩
  | heed taken _ =>
    refine Router.says_onReport framed fun worker client response same => ?_
    exact reports worker client response (by rw [taken, same])
  | dismiss collecting none => exact Router.says_dismiss framed (dismisses _ collecting none)
  | join _ _ =>
    have joined := (Router.silent_foldl Router.silent_join d.router.retired
      { d.router with retired := [] }).says_nothing (P := P)
    exact ⟨joined.setup, joined.said⟩
  | @conclude count _ emptying none =>
    have abandoned : d.router.Says P d.router.abandonAll :=
      Router.says_abandonAll framed (concludes _ _ emptying none)
    exact abandoned.trans (d.silent_conclude count).says_nothing

/-- In one move every answer comes from somewhere, and every frame is that of an answer. -/
theorem Sound.gives (h : d.Sound) (left : d.Left) (moved : d.step? m = some d') :
    d.router.Says (d.Gives m) d'.router := by
  refine says_of_step? h.consistent.framed moved ?_ ?_ ?_ ?_
  · exact fun arrival taken nobody client answer _ prompts =>
      .refused arrival taken nobody prompts.demand?_eq
  · exact fun worker client response heeded => .reported worker heeded
  · intro finished collecting none t member
    refine h.answersFor_leaving left none ?_ _
    rw [collecting]
    exact member
  · exact fun count joined emptying none worker =>
      h.answersFor_emptying left emptying none worker _

end Daemon

end SessionRelay.Broker
