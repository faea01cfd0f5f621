import SessionRelay.Proofs.Broker.Tables

/-!
Every operation of the broker keeps its tables consistent and its books balanced: the tickets that
it takes on are answered or become due, each once, and no other ticket comes or goes.
-/

namespace SessionRelay.Broker

open Wire Worker Integration

/-- No identity is given out twice. -/
def Setup.Fresh {α : Type} (setup : Setup α) : Prop :=
  ∀ m n identity, setup.recruit m = .ok identity → setup.recruit n = .ok identity → m = n

namespace Router

variable {α : Type}

/-- Was a worker of this identity hired so far? -/
def Hired (r : Router α) (identity : String) : Prop :=
  ∃ n < r.recruited, r.setup.recruit n = .ok identity

/-- Between two states of the tables the tickets were taken on: what is answered or due afterwards
is that, and what was answered or due before. Who left the tables does not come back. -/
structure TakesOn (tickets : List Ticket) (r r' : Router α) : Prop where
  setup : r'.setup = r.setup
  recruited : r.recruited ≤ r'.recruited
  balance : (answered r'.journal ++ due r'.pending).Perm
    (tickets ++ (answered r.journal ++ due r.pending))
  stays : ∀ worker ∈ r'.threads.map Thread.identity,
    r.Hired worker → worker ∈ r.threads.map Thread.identity

theorem TakesOn.refl (r : Router α) : TakesOn [] r r :=
  ⟨rfl, Nat.le_refl _, List.Perm.refl _, fun _ member _ => member⟩

theorem TakesOn.hired {tickets : List Ticket} {r r' : Router α} (h : TakesOn tickets r r')
    {identity : String} (hired : r.Hired identity) : r'.Hired identity := by
  obtain ⟨n, early, recruit⟩ := hired
  exact ⟨n, Nat.lt_of_lt_of_le early h.recruited, h.setup ▸ recruit⟩

theorem TakesOn.trans {tickets more : List Ticket} {r r' r'' : Router α}
    (h : TakesOn tickets r r') (h' : TakesOn more r' r'') : TakesOn (more ++ tickets) r r'' := by
  refine ⟨h'.setup.trans h.setup, Nat.le_trans h.recruited h'.recruited, ?_, ?_⟩
  · refine h'.balance.trans ?_
    rw [List.append_assoc]
    exact h.balance.append_left more
  · intro worker member hired
    exact h.stays worker (h'.stays worker member (h.hired hired)) hired

theorem Answers.takesOn {tickets : List Ticket} {r r' : Router α} (h : r.Answers tickets r') :
    TakesOn tickets r r' := by
  obtain ⟨connections, journal, rfl, counted, -⟩ := h
  refine ⟨rfl, Nat.le_refl _, ?_, fun _ member _ => member⟩
  rw [counted, List.append_assoc]

theorem length_due_pending (r : Router α) : (due r.pending).length = r.inFlight :=
  length_due r.pending

variable [Service α] [Accountable α]

/-- The tables fit together, and fit the workers that are leaving and the reports that are not
taken yet. -/
structure Consistent (r : Router α) (leaving : List (Thread α)) (reports : List Event) : Prop where
  fresh : r.setup.Fresh
  assigns : r.setup.registry.Assigns
  sessions : KeyTable.Ascending r.sessions
  pending : KeyTable.Ascending r.pending
  keys : ∀ entry ∈ r.sessions, entry.2.identity = entry.1
  hired : ∀ t ∈ r.threads ++ leaving, r.Hired t.identity
  framed : Framed r.setup.codec r.journal
  mirrors : Mirrors (r.threads ++ leaving) (dueFrom · r.pending) reports

variable {r r' : Router α} {leaving : List (Thread α)} {reports : List Event}

theorem Consistent.answers (h : Consistent r leaving reports) {tickets : List Ticket}
    (ha : r.Answers tickets r') : Consistent r' leaving reports := by
  obtain ⟨connections, journal, rfl, -, framed⟩ := ha
  exact ⟨h.fresh, h.assigns, h.sessions, h.pending, h.keys, h.hired, framed h.framed, h.mirrors⟩

/-! ### One worker among the others -/

omit [Service α] [Accountable α] in
/-- The worker of a session stands first among all, up to order. -/
theorem threads_perm_of_session (sessions : KeyTable.Ascending r.sessions) {identity : String}
    {t : Thread α} (leaving : List (Thread α))
    (found : KeyTable.value? identity r.sessions = some t) :
    (r.threads ++ leaving).Perm
      (t :: ((KeyTable.without identity r.sessions).map Prod.snd ++ r.retired ++ leaving)) :=
  (((KeyTable.perm_of_value? sessions found).map Prod.snd).append_right r.retired).append_right
    leaving

omit [Service α] [Accountable α] in
theorem names_perm_of_session (sessions : KeyTable.Ascending r.sessions) {identity : String}
    {t : Thread α} (found : KeyTable.value? identity r.sessions = some t) :
    (r.threads.map Thread.identity).Perm
      (t.identity :: ((KeyTable.without identity r.sessions).map Prod.snd ++ r.retired).map
        Thread.identity) :=
  (((KeyTable.perm_of_value? sessions found).map Prod.snd).append_right r.retired).map
    Thread.identity

/-- A session gets its worker anew: the others stay as they are. -/
theorem Consistent.put_session (h : Consistent r leaving reports) {identity : String}
    {t t' : Thread α} (found : KeyTable.value? identity r.sessions = some t)
    (same : t'.identity = t.identity) :
    t.identity = identity ∧ KeyTable.Ascending (KeyTable.put identity t' r.sessions) ∧
    (∀ entry ∈ KeyTable.put identity t' r.sessions, entry.2.identity = entry.1) ∧
    ((KeyTable.put identity t' r.sessions).map Prod.snd ++ r.retired ++ leaving).Perm
      (t' :: ((KeyTable.without identity r.sessions).map Prod.snd ++ r.retired ++ leaving)) := by
  have key : t.identity = identity := h.keys _ (KeyTable.mem_of_value? found)
  refine ⟨key, h.sessions.put identity t', ?_, ?_⟩
  · intro entry member
    rcases KeyTable.mem_put member with rfl | old
    · exact same.trans key
    · exact h.keys entry old
  · exact (((KeyTable.put_perm h.sessions identity t').map Prod.snd).append_right
      r.retired).append_right leaving

theorem Consistent.retire (h : Consistent r leaving reports) (identity : String) :
    Consistent (r.retire identity) leaving reports ∧ TakesOn [] r (r.retire identity) := by
  unfold Router.retire
  split
  · exact ⟨h, .refl r⟩
  · next t found =>
    have first := threads_perm_of_session h.sessions leaving found
    have moved : ((KeyTable.without identity r.sessions).map Prod.snd ++
        (r.retired ++ [t.retire]) ++ leaving).Perm
        (t.retire :: ((KeyTable.without identity r.sessions).map Prod.snd ++ r.retired ++
          leaving)) := by
      rw [← List.append_assoc, List.append_assoc _ [t.retire]]
      exact List.perm_middle
    have mirrors := h.mirrors.perm first
    have retired := mirrors.continue (mirrors.sound t List.mem_cons_self).retire
    rw [List.append_nil] at retired
    refine ⟨⟨h.fresh, h.assigns, h.sessions.without identity, h.pending, ?_, ?_, h.framed,
      retired.perm moved.symm⟩, ⟨rfl, Nat.le_refl _, List.Perm.refl _, ?_⟩⟩
    · intro entry member
      exact h.keys entry (KeyTable.mem_without.mp member).1
    · intro u member
      rcases List.mem_cons.mp (moved.mem_iff.mp member) with rfl | other
      · exact h.hired t (first.mem_iff.mpr List.mem_cons_self)
      · exact h.hired u (first.mem_iff.mpr (List.mem_cons_of_mem _ other))
    · intro worker member _
      have last : ((KeyTable.without identity r.sessions).map Prod.snd ++
          (r.retired ++ [t.retire])).Perm
          (t.retire :: ((KeyTable.without identity r.sessions).map Prod.snd ++ r.retired)) := by
        rw [← List.append_assoc]
        exact List.perm_append_singleton _ _
      exact (names_perm_of_session h.sessions found).mem_iff.mpr
        ((last.map Thread.identity).mem_iff.mp member)

/-- Operations that keep the tables consistent may be repeated. -/
theorem Consistent.foldl {β : Type} {f : Router α → β → Router α}
    (step : ∀ r b, Consistent r leaving reports →
      Consistent (f r b) leaving reports ∧ TakesOn [] r (f r b))
    (items : List β) (h : Consistent r leaving reports) :
    Consistent (items.foldl f r) leaving reports ∧ TakesOn [] r (items.foldl f r) := by
  induction items generalizing r with
  | nil => exact ⟨h, .refl r⟩
  | cons b rest ih =>
    obtain ⟨consistent, first⟩ := step r b h
    obtain ⟨last, more⟩ := ih consistent
    exact ⟨last, first.trans more⟩

theorem Consistent.retireFinished (h : Consistent r leaving reports) :
    Consistent r.retireFinished leaving reports ∧ TakesOn [] r r.retireFinished :=
  h.foldl (fun _ identity h => h.retire identity) _

theorem Consistent.retireAll (h : Consistent r leaving reports) :
    Consistent r.retireAll leaving reports ∧ TakesOn [] r r.retireAll :=
  h.foldl (fun _ identity h => h.retire identity) _

/-! ### Requests -/

/-- A job that a worker takes becomes due. -/
theorem Consistent.handOver (h : Consistent r leaving reports) {identity : String} {job : Job}
    (named : job.request.worker = some identity) (taken : r.handOver? identity job = some r') :
    Consistent r' leaving reports ∧ TakesOn [job.ticket identity] r r' := by
  unfold handOver? at taken
  split at taken
  · cases taken
  · next t' bound =>
    cases taken
    obtain ⟨t, found, dispatched⟩ := Option.bind_eq_some_iff.mp bound
    have first := threads_perm_of_session h.sessions leaving found
    have mirrors := h.mirrors.perm first
    have key : t.identity = identity := h.keys _ (KeyTable.mem_of_value? found)
    obtain ⟨same, sound, last⟩ :=
      (mirrors.sound t List.mem_cons_self).dispatch (key ▸ named) dispatched
    obtain ⟨-, sessions, keys, staff⟩ := h.put_session found same
    let waiting := (KeyTable.value? identity r.pending).getD []
    have self : dueFrom identity (KeyTable.put identity
        (waiting ++ [⟨job.client, job.request.requestId⟩]) r.pending) =
        dueFrom identity r.pending ++ [job.ticket identity] := by
      rw [dueFrom_put_self, List.map_append]
      rfl
    refine ⟨⟨h.fresh, h.assigns, sessions, h.pending.put _ _, keys, ?_, h.framed, ?_⟩,
      ⟨rfl, Nat.le_refl _, ?_, ?_⟩⟩
    · intro u member
      rcases List.mem_cons.mp (staff.mem_iff.mp member) with rfl | other
      · rw [same]
        exact h.hired t (first.mem_iff.mpr List.mem_cons_self)
      · exact h.hired u (first.mem_iff.mpr (List.mem_cons_of_mem _ other))
    · refine Mirrors.perm ?_ staff.symm
      refine mirrors.handOver same sound last ?_ ?_
      · rw [key]
        exact self
      · intro worker other
        exact dueFrom_put_ne _ _ _ (key ▸ other)
    · exact ((due_push_perm identity h.pending _).append_left _).trans List.perm_middle
    · intro worker member _
      have put : ((KeyTable.put identity t' r.sessions).map Prod.snd ++ r.retired).Perm
          (t' :: ((KeyTable.without identity r.sessions).map Prod.snd ++ r.retired)) :=
        ((KeyTable.put_perm h.sessions identity t').map Prod.snd).append_right r.retired
      have names := (put.map Thread.identity).mem_iff.mp member
      rw [List.map_cons, same] at names
      exact (names_perm_of_session h.sessions found).mem_iff.mpr names

omit [Service α] [Accountable α] in
/-- The ticket of a failure that names its request. -/
theorem ticketOf_failed (client : Nat) (worker message requestId : String) :
    ticketOf client ((Response.failed worker message).forRequest requestId) =
      ⟨client, reference requestId, worker⟩ := by
  rw [ticketOf, Response.forRequest_worker, Response.failed_forRequest_requestId,
    Response.failed_worker]

omit [Service α] [Accountable α] in
theorem refuse_answers (r : Router α) (client : Nat) (worker message requestId : String) :
    r.Answers [⟨client, reference requestId, worker⟩]
      (r.reply client ((Response.failed worker message).forRequest requestId)) := by
  rw [← ticketOf_failed client worker message requestId]
  exact r.reply_answers client _

/-- A request for a worker is handed over, or refused in the worker's name. -/
theorem Consistent.dispatch (h : Consistent r leaving reports) {identity : String} (job : Job)
    (named : job.request.worker = some identity) :
    Consistent (r.dispatch identity job) leaving reports ∧
      TakesOn [job.ticket identity] r (r.dispatch identity job) := by
  unfold Router.dispatch
  split
  · next taken => exact h.handOver named taken
  · obtain ⟨consistent, first⟩ := h.retire identity
    have refused := refuse_answers (r.retire identity) job.client identity
      s!"worker {identity} is no longer available" job.request.requestId
    exact ⟨consistent.answers refused, first.trans refused.takesOn⟩

theorem Consistent.recruit (h : Consistent r leaving reports) :
    Consistent { r with recruited := r.recruited + 1 } leaving reports := by
  refine ⟨h.fresh, h.assigns, h.sessions, h.pending, h.keys, ?_, h.framed, h.mirrors⟩
  intro t member
  obtain ⟨n, early, identity⟩ := h.hired t member
  exact ⟨n, Nat.lt_succ_of_lt early, identity⟩

/-- The next identity is nobody's. -/
theorem Consistent.next_unhired (h : Consistent r leaving reports) {identity : String}
    (next : r.setup.recruit r.recruited = .ok identity) :
    identity ∉ (r.threads ++ leaving).map Thread.identity := by
  intro member
  obtain ⟨t, hired, rfl⟩ := List.mem_map.mp member
  obtain ⟨n, early, same⟩ := h.hired t hired
  have equal := h.fresh _ _ _ same next
  omega

theorem Consistent.hire (h : Consistent r leaving reports) {identity : String} {n : Nat}
    (early : n < r.recruited) (recruit : r.setup.recruit n = .ok identity)
    (new : identity ∉ (r.threads ++ leaving).map Thread.identity) (client : Nat) :
    Consistent (r.hire client identity) leaving reports := by
  have logged := h.answers (r.silent_log .debug "Spawned worker for new session"
    [("client_id", .nat client), ("worker", .string identity)]).answers
  let thread : Thread α := .spawn (Worker.new identity r.setup.registry)
  have unnamed : identity ∉ KeyTable.names r.sessions := by
    intro member
    obtain ⟨entry, inside, rfl⟩ := List.mem_map.mp member
    apply new
    rw [← h.keys entry inside]
    exact List.mem_map_of_mem
      (List.mem_append_left _ (List.mem_append_left _ (List.mem_map_of_mem inside)))
  have added := KeyTable.put_perm h.sessions identity thread
  rw [KeyTable.without_eq_self unnamed] at added
  have staff : ((KeyTable.put identity thread r.sessions).map Prod.snd ++ r.retired ++
      leaving).Perm (thread :: (r.threads ++ leaving)) :=
    ((added.map Prod.snd).append_right r.retired).append_right leaving
  refine ⟨h.fresh, h.assigns, h.sessions.put identity thread, h.pending, ?_, ?_, logged.framed, ?_⟩
  · intro entry member
    rcases KeyTable.mem_put member with rfl | old
    · rfl
    · exact h.keys entry old
  · intro t member
    rcases List.mem_cons.mp (staff.mem_iff.mp member) with rfl | old
    · exact ⟨n, early, recruit⟩
    · exact h.hired t old
  · exact (h.mirrors.hire (Thread.sound_spawn identity h.assigns) new rfl).perm staff.symm

omit [Service α] [Accountable α] in
theorem names_hire {client : Nat} {identity worker : String}
    (member : worker ∈ (r.hire client identity).threads.map Thread.identity) :
    worker = identity ∨ worker ∈ r.threads.map Thread.identity := by
  obtain ⟨t, inside, rfl⟩ := List.mem_map.mp member
  rcases List.mem_append.mp inside with session | retired
  · obtain ⟨entry, put, rfl⟩ := List.mem_map.mp session
    rcases KeyTable.mem_put put with rfl | old
    · exact Or.inl rfl
    · exact Or.inr (List.mem_map_of_mem (List.mem_append_left _ (List.mem_map_of_mem old)))
  · exact Or.inr (List.mem_map_of_mem (List.mem_append_right _ retired))

/-- The identity that is minted for a request without one: that of the worker which is hired. -/
def mint? (r : Router α) : Option String :=
  if r.draining then none else (r.setup.recruit r.recruited).toOption

/-- The worker whose name the answer to a request bears: the one that it names, or the one that is
hired for it, or none. -/
def assigned (r : Router α) (request : Request) : String :=
  match request.worker with
  | some identity => identity
  | none => r.mint?.getD ""

/-- The ticket of the answer that is owed for what is heard of a client. -/
def ticket? (r : Router α) : Arrival → Option Ticket
  | .frame client payload =>
    match Codec.decodePayload Request.take payload with
    | .ok request => some ⟨client, reference request.requestId, r.assigned request⟩
    | .error _ => some ⟨client, none, ""⟩
  | .malformed client _ => some ⟨client, none, ""⟩
  | .disconnected _ => none

theorem Consistent.route (h : Consistent r leaving reports) (client : Nat) (request : Request) :
    Consistent (r.route client request) leaving reports ∧
      TakesOn [⟨client, reference request.requestId, r.assigned request⟩] r
        (r.route client request) := by
  cases named : request.worker with
  | some identity =>
    simp only [Router.route, assigned, named]
    exact h.dispatch ⟨client, request⟩ named
  | none =>
    simp only [Router.route, assigned, named, mint?]
    split
    · have refused := refuse_answers r client "" "daemon is shutting down" request.requestId
      exact ⟨h.answers refused, refused.takesOn⟩
    · have grown : TakesOn [] r { r with recruited := r.recruited + 1 } :=
        ⟨rfl, Nat.le_succ _, List.Perm.refl _, fun _ member _ => member⟩
      cases next : r.setup.recruit r.recruited with
      | error reason =>
        have refused := refuse_answers { r with recruited := r.recruited + 1 } client ""
          s!"failed to spawn worker: {reason}" request.requestId
        exact ⟨h.recruit.answers refused, grown.trans refused.takesOn⟩
      | ok identity =>
        have hired := h.recruit.hire (Nat.lt_succ_self _) next (h.next_unhired next) client
        obtain ⟨consistent, taken⟩ := hired.dispatch ⟨client, request.withWorker identity⟩ rfl
        refine ⟨consistent, ⟨taken.setup, ?_, taken.balance, ?_⟩⟩
        · exact Nat.le_trans (Nat.le_succ _) taken.recruited
        · intro worker member early
          have joined := taken.stays worker member (grown.hired early)
          rcases names_hire joined with rfl | old
          · obtain ⟨n, before, same⟩ := early
            have equal := h.fresh _ _ _ same next
            omega
          · exact old

theorem Consistent.onArrival (h : Consistent r leaving reports) (a : Arrival) :
    Consistent (r.onArrival a) leaving reports ∧
      TakesOn (r.ticket? a).toList r (r.onArrival a) := by
  cases a with
  | frame client payload =>
    cases decoded : Codec.decodePayload Request.take payload with
    | ok request =>
      simp only [Router.onArrival, ticket?, decoded]
      exact h.route client request
    | error e =>
      have refused := r.reply_answers client
        (Response.failed "" s!"invalid request: {e.message}")
      simp only [Router.onArrival, ticket?, decoded]
      exact ⟨h.answers refused, refused.takesOn⟩
  | malformed client reason =>
    have refused := (r.reply_answers client
      (Response.failed "" s!"invalid request: {reason}")).trans (silent_disconnect _ client).answers
    exact ⟨h.answers refused, refused.takesOn⟩
  | disconnected client =>
    have gone := ((r.silent_log .debug "Client disconnected"
      [("client_id", .nat client)]).trans (silent_disconnect _ client)).answers
    exact ⟨h.answers gone, gone.takesOn⟩

/-! ### Reports -/

omit [Service α] [Accountable α] in
/-- Striking off takes the first ticket that is due from a worker. -/
theorem strikeOff_eq (pending : KeyTable.Ascending r.pending) (worker : String) :
    ∃ left, r.strikeOff worker = { r with pending := left } ∧ KeyTable.Ascending left ∧
      dueFrom worker left = (dueFrom worker r.pending).tail ∧
      (∀ other, other ≠ worker → dueFrom other left = dueFrom other r.pending) ∧
      (due r.pending).Perm ((dueFrom worker r.pending).head?.toList ++ due left) := by
  have split := due_perm worker pending
  unfold strikeOff
  cases found : KeyTable.value? worker r.pending with
  | none =>
    have none : dueFrom worker r.pending = [] := by
      rw [dueFrom, found]
      rfl
    refine ⟨r.pending, rfl, pending, ?_, fun _ _ => rfl, ?_⟩
    · rw [none, List.tail_nil]
    · rw [none]
      exact List.Perm.refl _
  | some jobs =>
    have all : dueFrom worker r.pending = jobs.map (PendingJob.ticket worker) := by
      rw [dueFrom, found, Option.getD_some]
    rw [all] at split ⊢
    cases jobs with
    | nil =>
      exact ⟨_, rfl, pending.without _, dueFrom_without_self _ _,
        fun other different => dueFrom_without_ne _ _ different, split⟩
    | cons first tail =>
      cases tail with
      | nil =>
        exact ⟨_, rfl, pending.without _, dueFrom_without_self _ _,
          fun other different => dueFrom_without_ne _ _ different, split⟩
      | cons later rest =>
        refine ⟨_, rfl, pending.put _ _, dueFrom_put_self _ _ _,
          fun other different => dueFrom_put_ne _ _ _ different, ?_⟩
        exact split.trans ((due_put_perm worker (later :: rest) pending).symm.cons _)

/-- A report that is an answer settles the job that it answers. -/
theorem Consistent.onReport {e : Event} (h : Consistent r leaving (e :: reports)) :
    Consistent (r.onReport e) leaving reports ∧ TakesOn [] r (r.onReport e) := by
  cases e with
  | reply worker client response =>
    obtain ⟨rest, first⟩ := h.mirrors.first_due
    obtain ⟨left, struck, ascending, self, others, settled⟩ := strikeOff_eq h.pending worker
    have replied := reply_answers { r with pending := left } client response
    rw [first] at settled
    have before : Consistent { r with pending := left } leaving reports :=
      ⟨h.fresh, h.assigns, h.sessions, ascending, h.keys, h.hired, h.framed,
        h.mirrors.strike self others⟩
    have moved : (ticketOf client response :: (answered r.journal ++ due left)).Perm
        (answered r.journal ++ due r.pending) :=
      List.perm_middle.symm.trans (settled.symm.append_left _)
    obtain ⟨setup, recruited, balance, stays⟩ := replied.takesOn
    simp only [Router.onReport, struck]
    exact ⟨before.answers replied, ⟨setup, recruited, balance.trans moved, stays⟩⟩
  | stopped worker =>
    have logged := (r.silent_log .info "Worker stopped, session removed"
      [("worker", .string worker)]).answers
    have quiet : Consistent r leaving reports :=
      ⟨h.fresh, h.assigns, h.sessions, h.pending, h.keys, h.hired, h.framed, h.mirrors.stopped⟩
    obtain ⟨consistent, moved⟩ := (quiet.answers logged).retire worker
    exact ⟨consistent, logged.takesOn.trans moved⟩

/-! ### Workers that leave -/

omit [Service α] [Accountable α] in
theorem foldl_reply_answers (worker : String) (lost : Response)
    (jobs : List PendingJob) (r : Router α) (from_ : lost.worker = worker)
    (unnamed : lost.requestId = none) :
    r.Answers (jobs.map (PendingJob.ticket worker)).reverse
      (jobs.foldl (fun r job => r.reply job.client (lost.forRequest job.requestId)) r) := by
  induction jobs generalizing r with
  | nil => exact (Silent.refl r).answers
  | cons job rest ih =>
    have ticket : ticketOf job.client (lost.forRequest job.requestId) = job.ticket worker := by
      rw [ticketOf, Response.forRequest_worker, Response.forRequest_requestId unnamed, from_]
      rfl
    have first := r.reply_answers job.client (lost.forRequest job.requestId)
    rw [ticket] at first
    rw [List.map_cons, List.reverse_cons]
    exact first.trans (ih _)

omit [Service α] [Accountable α] in
/-- Abandoning a worker answers all that is due from it. -/
theorem abandon_answers (r : Router α) (worker : String) :
    Answers { r with pending := KeyTable.without worker r.pending }
      (dueFrom worker r.pending).reverse (r.abandon worker) := by
  unfold abandon dueFrom
  cases found : KeyTable.value? worker r.pending with
  | none =>
    rw [KeyTable.without_eq_self (KeyTable.value?_eq_none_iff.mp found)]
    exact (Silent.refl r).answers
  | some jobs => exact foldl_reply_answers worker _ jobs _ rfl rfl

omit [Service α] [Accountable α] in
theorem abandon_takesOn (pending : KeyTable.Ascending r.pending) (worker : String) :
    TakesOn [] r (r.abandon worker) := by
  obtain ⟨setup, recruited, balance, stays⟩ := (abandon_answers r worker).takesOn
  refine ⟨setup, recruited, balance.trans ?_, stays⟩
  have split := due_perm worker pending
  have turned := (List.reverse_perm (dueFrom worker r.pending)).append_right
    (due (KeyTable.without worker r.pending))
  exact List.perm_append_comm_assoc _ _ _ |>.trans ((turned.trans split.symm).append_left _)

/-- A worker leaves when all reports are taken, and what is due from it is answered for it. -/
theorem Consistent.leave {t : Thread α} (h : Consistent r (t :: leaving) []) :
    Consistent ((r.join t).abandon t.identity) leaving [] ∧
      TakesOn [] r ((r.join t).abandon t.identity) := by
  have joined := r.silent_join t
  have present := h.answers joined.answers
  have first : ((r.join t).threads ++ t :: leaving).Perm
      (t :: ((r.join t).threads ++ leaving)) := List.perm_middle
  have gone : Consistent
      { r.join t with pending := KeyTable.without t.identity (r.join t).pending } leaving [] := by
    refine ⟨present.fresh, present.assigns, present.sessions, present.pending.without _,
      present.keys, ?_, present.framed, ?_⟩
    · intro u member
      exact present.hired u (first.mem_iff.mpr (List.mem_cons_of_mem _ member))
    · exact (present.mirrors.perm first).leave (dueFrom_without_self _ _)
        fun worker other => dueFrom_without_ne _ _ other
  exact ⟨gone.answers (abandon_answers _ _),
    joined.answers.takesOn.trans (abandon_takesOn present.pending _)⟩

theorem Consistent.dismiss {finished : List (Thread α)}
    (h : Consistent r (finished ++ leaving) []) :
    Consistent (r.dismiss finished) leaving [] ∧ TakesOn [] r (r.dismiss finished) := by
  induction finished generalizing r with
  | nil => exact ⟨h, .refl r⟩
  | cons t rest ih =>
    obtain ⟨consistent, first⟩ := h.leave
    obtain ⟨last, more⟩ := ih consistent
    exact ⟨last, first.trans more⟩

/-- Workers go from one group to another. -/
theorem Consistent.regroup (h : Consistent r leaving reports) {retired leaving' : List (Thread α)}
    (p : (r.retired ++ leaving).Perm (retired ++ leaving')) :
    Consistent { r with retired := retired } leaving' reports := by
  have staff : (r.threads ++ leaving).Perm
      (r.sessions.map Prod.snd ++ retired ++ leaving') := by
    rw [threads, List.append_assoc, List.append_assoc]
    exact p.append_left _
  refine ⟨h.fresh, h.assigns, h.sessions, h.pending, h.keys, ?_, h.framed, h.mirrors.perm staff⟩
  intro t member
  exact h.hired t (staff.mem_iff.mpr member)

omit [Service α] [Accountable α] in
theorem foldl_abandon_eq (identities : List String) {r : Router α}
    (pending : KeyTable.Ascending r.pending) :
    ∃ connections journal, identities.foldl abandon r =
        { r with
          pending := identities.foldl (fun p name => KeyTable.without name p) r.pending
          connections := connections
          journal := journal } ∧
      (Framed r.setup.codec r.journal → Framed r.setup.codec journal) ∧
      TakesOn [] r (identities.foldl abandon r) := by
  induction identities generalizing r with
  | nil => exact ⟨r.connections, r.journal, rfl, id, .refl r⟩
  | cons identity rest ih =>
    have taken := abandon_takesOn pending identity
    obtain ⟨connections, journal, same, -, framed⟩ := abandon_answers r identity
    rw [List.foldl_cons, List.foldl_cons]
    rw [same] at taken ⊢
    have ascending : KeyTable.Ascending
        (Router.pending { r with
          pending := KeyTable.without identity r.pending
          connections := connections
          journal := journal }) := pending.without identity
    obtain ⟨connections', journal', same', framed', more⟩ := ih ascending
    exact ⟨connections', journal', same', fun before => framed' (framed before),
      taken.trans more⟩

/-- At the end all that is due is answered. -/
theorem Consistent.abandonAll (h : Consistent r leaving []) (sessions : r.sessions = [])
    (retired : r.retired = []) :
    Consistent r.abandonAll [] [] ∧ TakesOn [] r r.abandonAll ∧ r.abandonAll.pending = [] ∧
      r.abandonAll.sessions = [] ∧ r.abandonAll.retired = [] := by
  obtain ⟨connections, journal, same, framed, taken⟩ :=
    foldl_abandon_eq (KeyTable.names r.pending) h.pending
  rw [KeyTable.foldl_without_names] at same
  unfold Router.abandonAll
  rw [same] at taken ⊢
  have nobody : Router.threads { r with
      pending := [], connections := connections, journal := journal } ++ [] = [] := by
    rw [threads, sessions, retired]
    rfl
  refine ⟨⟨h.fresh, h.assigns, h.sessions, .nil, h.keys, ?_, framed h.framed, ?_⟩, taken, rfl,
    sessions, retired⟩
  · intro t member
    rw [nobody] at member
    cases member
  · rw [nobody]
    refine ⟨List.nodup_nil, ?_, ?_, fun _ _ => ⟨rfl, rfl⟩⟩
    · intro t member
      cases member
    · intro t member
      cases member

omit [Service α] [Accountable α] in
theorem sessions_retire (r : Router α) (identity : String) :
    (r.retire identity).sessions = KeyTable.without identity r.sessions := by
  unfold Router.retire
  split
  · next none => exact (KeyTable.without_eq_self (KeyTable.value?_eq_none_iff.mp none)).symm
  · rfl

omit [Service α] [Accountable α] in
theorem sessions_retireAll (r : Router α) : r.retireAll.sessions = [] := by
  have each (identities : List String) (r : Router α) :
      (identities.foldl retire r).sessions =
        identities.foldl (fun s name => KeyTable.without name s) r.sessions := by
    induction identities generalizing r with
    | nil => rfl
    | cons identity rest ih => rw [List.foldl_cons, ih, sessions_retire, List.foldl_cons]
  rw [Router.retireAll, each, KeyTable.foldl_without_names]

/-! ### Workers at work -/

omit [Service α] [Accountable α] in
theorem map_adjust_eq_self {part : List (Thread α)} {identity : String}
    (others : ∀ u ∈ part, u.identity ≠ identity) (f : Thread α → Thread α) :
    part.map (fun u => if u.identity = identity then f u else u) = part := by
  conv => rhs; rw [← List.map_id part]
  apply List.map_congr_left
  intro u member
  exact if_neg (others u member)

omit [Service α] [Accountable α] in
/-- Of a list without doubles only one is changed. -/
theorem map_adjust_eq {before after : List (Thread α)} {t : Thread α}
    (distinct : ((before ++ t :: after).map Thread.identity).Nodup) (f : Thread α → Thread α) :
    (before ++ t :: after).map (fun u => if u.identity = t.identity then f u else u) =
      before ++ f t :: after := by
  have first : ((before ++ t :: after).map Thread.identity).Perm
      ((t :: (before ++ after)).map Thread.identity) := List.perm_middle.map _
  have others : ∀ u ∈ before ++ after, u.identity ≠ t.identity := fun u member =>
    ne_of_distinct (first.nodup_iff.mp distinct) member
  rw [List.map_append, List.map_cons, if_pos rfl,
    map_adjust_eq_self fun u member => others u (List.mem_append_left _ member),
    map_adjust_eq_self fun u member => others u (List.mem_append_right _ member)]

/-- The worker of an identity can be taken from the others, and put back changed. -/
theorem Consistent.single_out (h : Consistent r leaving reports) {identity : String}
    {t : Thread α} (found : r.thread? identity = some t) :
    t.identity = identity ∧ ∃ others, (r.threads ++ leaving).Perm (t :: others) ∧
      ∀ f, ((r.adjust identity f).threads ++ leaving).Perm (f t :: others) := by
  unfold thread? at found
  cases session : KeyTable.value? identity r.sessions with
  | some u =>
    rw [session, Option.orElse_some] at found
    cases found
    have key : t.identity = identity := h.keys _ (KeyTable.mem_of_value? session)
    have first := threads_perm_of_session h.sessions leaving session
    refine ⟨key, _, first, ?_⟩
    intro f
    have distinct := (first.map Thread.identity).nodup_iff.mp h.mirrors.distinct
    have elsewhere : ∀ u ∈ r.retired, u.identity ≠ identity := by
      intro u member
      rw [← key]
      exact ne_of_distinct distinct
        (List.mem_append_left _ (List.mem_append_right _ member))
    unfold Router.adjust threads
    dsimp only
    rw [map_adjust_eq_self elsewhere f]
    exact (((KeyTable.adjust_perm h.sessions session f).map Prod.snd).append_right
      r.retired).append_right leaving
  | none =>
    rw [session, Option.orElse_none] at found
    have key : t.identity = identity := by
      simpa using List.find?_some found
    obtain ⟨-, before, after, split, -⟩ := List.find?_eq_some_iff_append.mp found
    subst key
    refine ⟨rfl, r.sessions.map Prod.snd ++ (before ++ after) ++ leaving, ?_, ?_⟩
    · rw [threads, split, ← List.append_assoc, List.append_assoc _ (t :: after)]
      refine List.perm_middle.trans ?_
      rw [← List.append_assoc _ before after, List.append_assoc _ after]
      exact List.Perm.refl _
    · intro f
      have distinct : ((before ++ t :: after).map Thread.identity).Nodup := by
        have all := h.mirrors.distinct
        rw [threads, split, List.map_append, List.map_append] at all
        exact (List.nodup_append.mp (List.nodup_append.mp all).1).2.1
      unfold Router.adjust threads
      dsimp only
      rw [KeyTable.adjust_eq_self (KeyTable.value?_eq_none_iff.mp session), split,
        map_adjust_eq distinct, ← List.append_assoc, List.append_assoc _ (f t :: after)]
      refine List.perm_middle.trans ?_
      rw [← List.append_assoc _ before after, List.append_assoc _ after]
      exact List.Perm.refl _

/-- One worker goes on, and reports what it does. -/
theorem Consistent.adjust (h : Consistent r leaving reports) {identity : String} {t : Thread α}
    (found : r.thread? identity = some t) {f : Thread α → Thread α} {events : List Event}
    (c : t.Continues events (f t)) :
    Consistent (r.adjust identity f) leaving (reports ++ events) ∧
      TakesOn [] r (r.adjust identity f) := by
  obtain ⟨key, others, first, put⟩ := h.single_out found
  refine ⟨⟨h.fresh, h.assigns, h.sessions.adjust identity f, h.pending, ?_, ?_, h.framed, ?_⟩,
    ⟨rfl, Nat.le_refl _, List.Perm.refl _, ?_⟩⟩
  · intro entry member
    rcases KeyTable.mem_adjust member with old | ⟨u, session, rfl⟩
    · exact h.keys entry old
    · unfold thread? at found
      rw [session, Option.orElse_some] at found
      cases found
      exact c.identity.trans key
  · intro u member
    rcases List.mem_cons.mp ((put f).mem_iff.mp member) with rfl | other
    · rw [c.identity]
      exact h.hired t (first.mem_iff.mpr List.mem_cons_self)
    · exact h.hired u (first.mem_iff.mpr (List.mem_cons_of_mem _ other))
  · exact ((h.mirrors.perm first).continue c).perm (put f).symm
  · intro worker member _
    have before := first.map Thread.identity
    have after := (put f).map Thread.identity
    rw [List.map_cons, List.map_append] at before after
    rw [c.identity] at after
    have same := (List.perm_append_right_iff _).mp (after.trans before.symm)
    exact same.mem_iff.mp member

end Router

end SessionRelay.Broker
