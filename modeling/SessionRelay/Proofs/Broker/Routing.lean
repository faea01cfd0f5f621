import SessionRelay.Proofs.Broker.Answering

/-!
Every session stays with its worker: the name of a session is the identity of its worker, a worker
gets only jobs that name it, and every answer bears the name of the worker that the request was
for, be it named in the request or hired for it.
-/

namespace SessionRelay.Broker

open Backend Wire Worker Integration

variable {α : Type}

/-- The identity that is minted for what is heard of a client. -/
def Router.minted? (r : Router α) : Arrival → Option String
  | .frame _ payload =>
    match Codec.decodePayload Request.take payload with
    | .ok request => if request.worker.isNone then r.mint? else none
    | .error _ => none
  | _ => none

/-- The identity that is minted in a move. -/
def Daemon.minted? (d : Daemon α) (m : Move) : Option String :=
  (d.taken? m).bind d.router.minted?

/-- The identities that were minted in a run, the last one first. -/
def identitiesMinted (trace : List (Daemon α × Move)) : List String :=
  trace.filterMap fun (d, m) => d.minted? m

/-- If a move takes a request, its ticket bears the worker that the request names, or the one that
is minted for it. -/
def NamesWorker (d : Daemon α) (m : Move) : Prop :=
  ∀ client payload request, d.taken? m = some (.frame client payload) →
    Codec.decodePayload Request.take payload = .ok request →
    ∃ worker, d.takenOn? m = some ⟨client, reference request.requestId, worker⟩ ∧
      (∀ w, request.worker = some w → worker = w) ∧
      (request.worker = none → ∀ identity, d.minted? m = some identity → worker = identity)

theorem namesWorker (d : Daemon α) (m : Move) : NamesWorker d m := by
  intro client payload request taken decoded
  refine ⟨d.router.assigned request, ?_, ?_, ?_⟩
  · rw [Daemon.takenOn?, taken, Option.bind_some, Router.ticket?, decoded]
  · intro w named
    rw [Router.assigned, named]
  · intro unnamed identity minted
    rw [Daemon.minted?, taken, Option.bind_some, Router.minted?, decoded] at minted
    simp only [unnamed, Option.isNone_none, if_true] at minted
    rw [Router.assigned, unnamed]
    simp only [minted, Option.getD_some]

/-! ### Minted identities -/

theorem Router.recruited_dispatch (r : Router α) (identity : String) (job : Job) :
    (r.dispatch identity job).recruited = r.recruited := by
  unfold Router.dispatch
  split
  · next taken =>
    unfold Router.handOver? at taken
    split at taken
    · cases taken
    · cases taken
      rfl
  · obtain ⟨connections, journal, same, -⟩ := (r.retire identity).reply_answers job.client
      ((Response.failed identity s!"worker {identity} is no longer available").forRequest
        job.request.requestId)
    dsimp only
    rw [same]
    unfold Router.retire
    split
    · rfl
    · rfl

/-- What is minted is the next identity, and the one after it comes next. -/
theorem Router.minted?_eq_some {r : Router α} {a : Arrival} {identity : String}
    (minted : r.minted? a = some identity) :
    r.setup.recruit r.recruited = .ok identity ∧
      (r.onArrival a).recruited = r.recruited + 1 := by
  cases a with
  | frame client payload =>
    simp only [Router.minted?] at minted
    split at minted
    · next request decoded =>
      split at minted
      · next unnamed =>
        rw [Option.isNone_iff_eq_none] at unnamed
        unfold Router.mint? at minted
        split at minted
        · cases minted
        · next running =>
          cases next : r.setup.recruit r.recruited with
          | error reason =>
            rw [next] at minted
            cases minted
          | ok fresh =>
            rw [next] at minted
            cases minted
            refine ⟨rfl, ?_⟩
            simp only [Router.onArrival, decoded, Router.route, unnamed, running, next,
              Router.recruited_dispatch, Bool.false_eq_true, if_false]
            rfl
      · cases minted
    · cases minted
  | malformed client reason => cases minted
  | disconnected client => cases minted

variable [Service α] [Accountable α] {first d d' : Daemon α} {trace : List (Daemon α × Move)}

omit [Accountable α] in
theorem Daemon.minted?_step {m : Move} (moved : d.step? m = some d') {identity : String}
    (minted : d.minted? m = some identity) :
    d.router.setup.recruit d.router.recruited = .ok identity ∧
      d'.router.recruited = d.router.recruited + 1 := by
  cases m with
  | takeArrival =>
    simp only [Daemon.step?] at moved
    split at moved
    · next arrival arrivals selecting first =>
      cases moved
      rw [Daemon.minted?, Daemon.taken?, first] at minted
      exact Router.minted?_eq_some minted
    · cases moved
  | _ => cases minted

/-- No identity is minted twice in a run. -/
theorem Run.minted_nodup (run : Run first trace d) (sound : first.Sound) :
    (identitiesMinted trace).Nodup ∧ ∀ identity ∈ identitiesMinted trace,
      ∃ n < d.router.recruited, d.router.setup.recruit n = .ok identity := by
  induction run with
  | start => exact ⟨List.nodup_nil, fun _ none => nomatch none⟩
  | @step trace d d' m run moved ih =>
    obtain ⟨distinct, known⟩ := ih
    obtain ⟨before, -⟩ := run.sound sound
    obtain ⟨-, taken⟩ := before.step moved
    have still : ∀ identity ∈ identitiesMinted trace,
        ∃ n < d'.router.recruited, d'.router.setup.recruit n = .ok identity := by
      intro identity member
      obtain ⟨n, early, recruit⟩ := known identity member
      exact ⟨n, Nat.lt_of_lt_of_le early taken.recruited, taken.setup ▸ recruit⟩
    cases minted : d.minted? m with
    | none =>
      have same : identitiesMinted ((d, m) :: trace) = identitiesMinted trace := by
        rw [identitiesMinted, List.filterMap_cons]
        simp only [minted]
        rfl
      rw [same]
      exact ⟨distinct, still⟩
    | some identity =>
      obtain ⟨recruit, counted⟩ := Daemon.minted?_step moved minted
      have all : identitiesMinted ((d, m) :: trace) = identity :: identitiesMinted trace := by
        rw [identitiesMinted, List.filterMap_cons]
        simp only [minted]
        rfl
      rw [all]
      refine ⟨List.nodup_cons.mpr ⟨?_, distinct⟩, ?_⟩
      · intro again
        obtain ⟨n, early, same⟩ := known identity again
        have equal := before.consistent.fresh _ _ _ same recruit
        omega
      · intro other member
        rcases List.mem_cons.mp member with rfl | old
        · exact ⟨d.router.recruited, by omega, taken.setup ▸ recruit⟩
        · exact still other old

/-- A worker that takes its next job does not refuse it for being another's. -/
theorem accept_ne_mismatch {t : Thread α} (h : t.Sound) {w : Worker α} (ready : t.phase = .ready w)
    {job : Job} {inbox : List Job} (waiting : t.inbox = job :: inbox) (x y : String) :
    w.accept job.request ≠ .error s!"got {x}, expected {y}" := by
  have phase := h.phase
  rw [ready] at phase
  apply phase.accept_ne_mismatch (h.named job ?_)
  rw [Thread.unanswered, ready, waiting]
  exact List.mem_cons_self

/-- Sessions are named after their workers. A worker gets only jobs that name it and so refuses none
as another's. Every answer bears the worker that its request names or that was hired for it, and so
does the frame that leaves for it, whatever had to take the place of the answer. No worker is hired
under an identity that was minted before. -/
theorem sticky_routing {address : String} {limit pollInterval drainTimeout : Nat}
    {recruit : Nat → Except String String} {backend : Rehearsal} {epoch : Int}
    (fresh : (Setup.relay address limit recruit pollInterval drainTimeout).Fresh)
    {trace : List (Daemon Family × Move)} {d : Daemon Family}
    (run : Run (.start (.relay address limit recruit pollInterval drainTimeout) backend epoch)
      trace d) :
    (∀ entry ∈ d.router.sessions,
      entry.2.identity = entry.1 ∧ entry.2.phase.Sound entry.1) ∧
    (∀ t ∈ d.staff, ∀ job ∈ t.unanswered, job.request.worker = some t.identity) ∧
    (∀ t ∈ d.staff, ∀ w job inbox, t.phase = .ready w → t.inbox = job :: inbox →
      ∀ x y : String, w.accept job.request ≠ .error s!"got {x}, expected {y}") ∧
    (∀ entry ∈ trace, NamesWorker entry.1 entry.2) ∧
    (answered d.router.journal ++ due d.router.pending).Perm (ticketsTaken trace) ∧
    (∀ later older client frame, d.router.journal = later ++ .sent client frame :: older →
      ∃ answer response : Response, lastAnswer? older = some (client, answer) ∧
        response.worker = answer.worker ∧ response.requestId = answer.requestId ∧
        d.router.setup.codec.encode response.toValue = .ok frame) ∧
    (identitiesMinted trace).Nodup := by
  have start := Daemon.sound_start fresh (Family.registry_assigns limit) backend epoch
  obtain ⟨sound, taken⟩ := run.sound start
  have consistent := sound.consistent
  have staff := consistent.mirrors.sound
  refine ⟨?_, ?_, ?_, ?_, taken.accounts rfl rfl, ?_, (run.minted_nodup start).1⟩
  · intro entry member
    have key := consistent.keys entry member
    refine ⟨key, key ▸ (staff entry.2 ?_).phase⟩
    exact List.mem_append_left _ (List.mem_append_left _ (List.mem_map_of_mem member))
  · intro t member
    exact (staff t member).named
  · intro t member w job inbox ready waiting
    exact accept_ne_mismatch (staff t member) ready waiting
  · intro entry _
    exact namesWorker entry.1 entry.2
  · intro later older client frame split
    obtain ⟨answer, response, last, stands, encoded⟩ := consistent.framed.of_sent split
    exact ⟨answer, response, last, stands.worker_eq, stands.requestId_eq, encoded⟩

/-- A worker that was hired for a request answers it in its own name. -/
theorem hired_worker_answers :
    ∃ trace d, Run (.start (.forOne "w") .empty 0) trace d ∧
      KeyTable.names d.router.sessions = ["w"] ∧
      answered d.router.journal = [⟨1, some "r", "w"⟩] ∧
      (∀ entry ∈ d.router.sessions, entry.2.identity = entry.1 ∧ entry.2.phase.Sound entry.1) ∧
      (identitiesMinted trace).Nodup := by
  have moved : ((Daemon.start (.forOne "w") .empty 0).run?
      [.connect "127.0.0.1:1",
        .read 1 (.ofRequest { Request.new "peek" .empty with requestId := "r" }),
        .takeArrival, .proceed, .proceed, .work "w", .work "w", .work "w", .takeReport]).map
      (fun d => (KeyTable.names d.router.sessions, answered d.router.journal)) =
      some (["w"], [⟨1, some "r", "w"⟩]) := by
    simp only [Daemon.run?, Daemon.step?, Router.onReport, Router.reply, Codec.encode,
      Chunk.ofRequest, Json.Value.bytes_eq]
    decide +kernel
  obtain ⟨trace, d, run, same⟩ := Run.exists_of_run? moved
  obtain ⟨sessions, answer⟩ := Prod.mk.inj same
  obtain ⟨keys, -, -, -, -, -, distinct⟩ := sticky_routing (Setup.fresh_forOne "w") run
  exact ⟨trace, d, run, sessions, answer, keys, distinct⟩

end SessionRelay.Broker
