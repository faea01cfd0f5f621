import SessionRelay.Proofs.Broker.Lives
import SessionRelay.Proofs.Broker.Routing

/-!
The life cycle of sessions. In every run each worker goes from its session into retirement and is
then joined, once and in this order; at the end all that were hired are joined. A request for a
worker that has gone is refused and brings nobody back, and while the broker drains nobody is hired.
-/

namespace SessionRelay.Broker

open Backend Wire Worker Integration

variable {α : Type}

namespace Router

variable {r r' : Router α}

theorem onArrival_request {payload : Bytes} {request : Request}
    (decoded : Codec.decodePayload Request.take payload = .ok request) (client : Nat) :
    r.onArrival (.frame client payload) = r.route client request := by
  simp only [Router.onArrival, decoded]

/-- What is heard of a client may hire the worker that it mints, and may end sessions. -/
theorem Attended.onArrival (h : r.Attended) (a : Arrival)
    (new : ∀ identity, r.minted? a = some identity → identity ∉ KeyTable.names r.sessions) :
    (r.minted? a = none → r.Thins (r.onArrival a)) ∧
      ∀ identity, r.minted? a = some identity → r.Hires identity (r.onArrival a) := by
  cases a with
  | malformed client reason =>
    have replied := joins_reply r client (Response.failed "" s!"invalid request: {reason}")
    refine ⟨fun _ => (replied.trans (joins_disconnect _ client)).thins h, ?_⟩
    intro identity minted
    cases minted
  | disconnected client =>
    have logged := joins_log r .debug "Client disconnected" [("client_id", .nat client)]
    refine ⟨fun _ => (logged.trans (joins_disconnect _ client)).thins h, ?_⟩
    intro identity minted
    cases minted
  | frame client payload =>
    cases decoded : Codec.decodePayload Request.take payload with
    | error e =>
      simp only [Router.onArrival, minted?, decoded]
      refine ⟨fun _ => (joins_reply r client _).thins h, ?_⟩
      intro identity minted
      cases minted
    | ok request =>
      rw [onArrival_request decoded]
      simp only [minted?, decoded] at new ⊢
      cases named : request.worker with
      | some identity =>
        simp only [Router.route, named]
        refine ⟨fun _ => h.dispatch identity _, ?_⟩
        intro other minted
        cases minted
      | none =>
        simp only [named, Option.isNone_none, if_true] at new
        simp only [Router.route, named, Option.isNone_none, if_true]
        unfold mint? at new ⊢
        split
        · refine ⟨fun _ => (joins_reply r client _).thins h, ?_⟩
          intro identity minted
          cases minted
        · next running =>
          rw [if_neg running] at new
          have grown : r.Joins [] { r with recruited := r.recruited + 1 } :=
            ⟨rfl, rfl, rfl, id⟩
          cases next : r.setup.recruit r.recruited with
          | error reason =>
            refine ⟨fun _ => (grown.trans (joins_reply _ client _)).thins h, ?_⟩
            intro identity minted
            cases minted
          | ok identity =>
            rw [next] at new
            obtain ⟨attended, serving, retired, joined, draining⟩ :=
              (grown.attended h).hire (new identity rfl) client
                ⟨client, request.withWorker identity⟩
            constructor
            · intro none
              cases none
            · intro other same
              cases same
              exact ⟨attended, serving, retired, joined, draining⟩

theorem minted?_of_draining (draining : r.draining = true) (a : Arrival) : r.minted? a = none := by
  cases a with
  | frame client payload =>
    simp only [minted?, mint?, draining, if_true]
    split
    · split <;> rfl
    · rfl
  | malformed client reason => rfl
  | disconnected client => rfl

/-! ### Requests that are refused, and those that are not -/

/-- One answer is given, and no other. -/
def Tells (r : Router α) (client : Nat) (response : Response) (r' : Router α) : Prop :=
  ∃ added, answered added = [] ∧
    r'.journal = added ++ .answered client response :: r.journal

/-- A request is answered by the broker: nobody is hired for it, and nobody gets a job. -/
structure Refuses (r : Router α) (client : Nat) (response : Response) (r' : Router α) : Prop where
  tells : r.Tells client response r'
  recruited : r'.recruited = r.recruited
  pending : r'.pending = r.pending

theorem refuses_reply (r : Router α) (client : Nat) (response : Response) :
    r.Refuses client response (r.reply client response) := by
  obtain ⟨connections, added, incidental, same⟩ := gains_reply r client response
  rw [same]
  exact ⟨⟨added, answered_incidental incidental, rfl⟩, rfl, rfl⟩

/-- Who is not there gets no job, and no session of this name is left. -/
theorem Attended.route_of_gone (h : r.Attended) {client : Nat} {request : Request}
    {worker : String} (named : request.worker = some worker)
    (gone : ∀ t, KeyTable.value? worker r.sessions = some t → t.isFinished = true) :
    r.Refuses client ((Response.failed worker
        s!"worker {worker} is no longer available").forRequest request.requestId)
      (r.route client request) ∧
    (r.route client request).sessions = KeyTable.without worker r.sessions := by
  have nobody : r.handOver? worker ⟨client, request⟩ = none := h.handOver?_eq_none.mpr gone
  have refused := refuses_reply (r.retire worker) client ((Response.failed worker
    s!"worker {worker} is no longer available").forRequest request.requestId)
  have kept : (r.retire worker).journal = r.journal ∧ (r.retire worker).recruited = r.recruited ∧
      (r.retire worker).pending = r.pending := by
    unfold Router.retire
    split <;> exact ⟨rfl, rfl, rfl⟩
  have replied := joins_reply (r.retire worker) client ((Response.failed worker
    s!"worker {worker} is no longer available").forRequest request.requestId)
  simp only [Router.route, named, Router.dispatch, nobody]
  refine ⟨⟨?_, refused.recruited.trans kept.2.1, refused.pending.trans kept.2.2⟩, ?_⟩
  · unfold Tells
    rw [← kept.1]
    exact refused.tells
  · rw [replied.sessions, sessions_retire]

/-- Who is there gets the job, whether or not the broker drains. -/
theorem Attended.route_of_live (h : r.Attended) {client : Nat} {request : Request}
    {worker : String} (named : request.worker = some worker) {t : Thread α}
    (session : KeyTable.value? worker r.sessions = some t) (running : t.isFinished = false) :
    r.route client request = { r with
      sessions := KeyTable.put worker { t with inbox := t.inbox ++ [⟨client, request⟩] } r.sessions
      pending := KeyTable.put worker
        ((KeyTable.value? worker r.pending).getD [] ++ [⟨client, request.requestId⟩])
        r.pending } := by
  have taken : r.handOver? worker ⟨client, request⟩ ≠ none := by
    intro none
    have ended := h.handOver?_eq_none.mp none t session
    rw [running] at ended
    cases ended
  obtain ⟨r', handed⟩ := Option.ne_none_iff_exists'.mp taken
  obtain ⟨t', found, -, same⟩ := handOver?_eq_some handed
  rw [session] at found
  cases found
  simp only [Router.route, named, Router.dispatch, handed]
  exact same

/-- A broker that drains hires nobody. -/
theorem route_of_draining {client : Nat} {request : Request} (unnamed : request.worker = none)
    (draining : r.draining = true) :
    r.Refuses client ((Response.failed "" "daemon is shutting down").forRequest request.requestId)
      (r.route client request) ∧
    (r.route client request).sessions = r.sessions ∧
    (r.route client request).retired = r.retired := by
  have refused : r.route client request = r.reply client
      ((Response.failed "" "daemon is shutting down").forRequest request.requestId) := by
    simp only [Router.route, unnamed, draining, if_true]
  have replied := joins_reply r client
    ((Response.failed "" "daemon is shutting down").forRequest request.requestId)
  rw [refused]
  exact ⟨refuses_reply r client _, replied.sessions, replied.retired⟩

end Router

/-! ### Moves -/

namespace Daemon

/-- Who is where. Workers that have ended and wait to be joined are retired. -/
def roll (d : Daemon α) : Roll where
  serving := KeyTable.names d.router.sessions
  retired := (d.router.retired ++ d.stage.apart).map Thread.identity
  joined := departed d.router.journal

/-- A move hires the worker that it mints, or retires or joins some workers, and the broker does not
leave off draining. -/
structure Advances (d : Daemon α) (m : Move) (d' : Daemon α) : Prop where
  attended : d'.router.Attended
  changes : d.roll.Changes d'.roll (d.minted? m)
  draining : d.router.draining = true → d'.router.draining = true

variable {d d' : Daemon α} {m : Move}

theorem advances_of_thins (thins : d.router.Thins d'.router)
    (apart : d'.stage.apart = d.stage.apart) (minted : d.minted? m = none) : d.Advances m d' := by
  obtain ⟨workers, serving, retired⟩ := thins.moved
  have more : d'.roll.retired.Perm (workers ++ d.roll.retired) := by
    simp only [roll, List.map_append, apart]
    rw [← List.append_assoc]
    exact retired.append_right _
  refine ⟨thins.attended, ?_, thins.draining⟩
  rw [minted]
  exact .retire workers serving more thins.joined

theorem advances_of_joins {workers : List String} (attended : d.router.Attended)
    (joins : d.router.Joins workers { d'.router with retired := d.router.retired })
    (retired : d.roll.retired.Perm (workers ++ d'.roll.retired)) (minted : d.minted? m = none) :
    d.Advances m d' := by
  have after := joins.attended attended
  refine ⟨⟨after.ascending, after.keys, after.takes⟩, ?_, joins.draining⟩
  rw [minted]
  refine .join workers ?_ retired ?_
  · exact congrArg KeyTable.names joins.sessions
  · exact .of_eq joins.joined

/-- The broker looks whether it should end. -/
theorem thins_check (attended : d.router.Attended) :
    d.router.Thins d.check.router ∧ d.check.stage.apart = [] := by
  have noticed : d.router.Joins [] d.notice.router := by
    unfold notice
    split
    · have begun : d.router.Joins [] { d.router with draining := true } :=
        ⟨rfl, rfl, rfl, fun _ => rfl⟩
      exact begun.trans (Router.joins_log _ _ _ _)
    · exact .refl _
  have before := noticed.attended attended
  have retireAll {r : Router α} (h : r.Attended) : r.Thins r.retireAll :=
    h.foldl (fun _ identity h => h.retire identity) _
  unfold check
  dsimp only
  split
  · exact ⟨noticed.thins attended, rfl⟩
  · split
    · exact ⟨(noticed.thins attended).trans (retireAll before), rfl⟩
    · split
      · have warned := Router.joins_log d.notice.router .warn
          "Drain timeout reached, abandoning in-flight requests"
          [("in_flight", .nat d.notice.router.inFlight)]
        have both := (noticed.thins attended).trans (warned.thins before)
        exact ⟨both.trans (retireAll both.attended), rfl⟩
      · exact ⟨noticed.thins attended, rfl⟩

theorem advances_reap (attended : d.router.Attended) (reaping : d.stage = .reaping) :
    d.Advances .proceed d.reap := by
  have thins : d.router.Thins d.router.retireFinished :=
    attended.foldl (fun _ identity h => h.retire identity) _
  obtain ⟨running, finished, router, leaving, -, -, parted⟩ := d.reap_eq
  have apart : d.reap.stage.apart = finished := by
    rw [← leaving]
    unfold reap
    dsimp only
    split <;> rfl
  obtain ⟨workers, serving, retired⟩ := thins.moved
  have more : d.reap.roll.retired.Perm (workers ++ d.roll.retired) := by
    have same : d.reap.roll.retired = (running ++ finished).map Thread.identity := by
      simp only [roll, router, apart]
    have none : d.roll.retired = d.router.retired.map Thread.identity := by
      simp [roll, reaping, Stage.apart]
    rw [same, none]
    exact (parted.map Thread.identity).symm.trans retired
  have changes : d.roll.Changes d.reap.roll Option.none := by
    refine .retire workers ?_ more ?_
    · simp only [roll, router]
      exact serving
    · simp only [roll, router]
      exact thins.joined
  refine ⟨?_, changes, ?_⟩
  · rw [router]
    exact ⟨thins.attended.ascending, thins.attended.keys, thins.attended.takes⟩
  · rw [router]
    exact thins.draining

theorem minted?_of_isQuiet (quiet : m.IsQuiet) : d.minted? m = none := by
  rw [minted?, taken?_of_isQuiet quiet]
  rfl

variable [Service α] [Accountable α]

/-- What holds of the lives of workers in every state that the broker comes to. -/
structure Orderly (d : Daemon α) : Prop where
  sound : d.Sound
  attended : d.router.Attended
  hired : ∀ worker ∈ d.roll.all, d.router.Hired worker
  distinct : d.roll.all.Nodup

theorem orderly_start {setup : Setup α} (fresh : setup.Fresh) (assigns : setup.registry.Assigns)
    (backend : Rehearsal) (epoch : Int) : (start setup backend epoch).Orderly := by
  refine ⟨sound_start fresh assigns backend epoch, ⟨.nil, ?_, ?_⟩, ?_, List.nodup_nil⟩
  · exact fun _ member => nomatch member
  · exact fun _ member => nomatch member
  · exact fun _ member => nomatch member

/-- The identity that a move mints is nobody's. -/
theorem Orderly.minted_not_mem (h : d.Orderly) (moved : d.step? m = some d') {identity : String}
    (minted : d.minted? m = some identity) : identity ∉ d.roll.all := by
  obtain ⟨recruit, -⟩ := minted?_step moved minted
  intro member
  obtain ⟨n, early, same⟩ := h.hired identity member
  have equal := h.sound.consistent.fresh _ _ _ same recruit
  omega

theorem Orderly.advances (h : d.Orderly) (moved : d.step? m = some d') : d.Advances m d' := by
  have attended := h.attended
  cases moves_of_step? moved with
  | quiet outside silent _ _ _ joined apart =>
    obtain ⟨connections, added, -, same⟩ := silent
    have joins : d.router.Joins [] d'.router := by
      refine ⟨?_, ?_, joined, ?_⟩
      · rw [same]
      · rw [same]
      · rw [same]
        exact id
    exact advances_of_thins (joins.thins attended) apart (minted?_of_isQuiet outside)
  | @work worker t step found stepped =>
    obtain ⟨name, -⟩ := h.sound.consistent.single_out found
    obtain ⟨identity, inboxOpen⟩ := Thread.step?_keeps stepped
    have adjusted : d.router.Thins (d.router.adjust worker fun _ => step.thread) :=
      attended.adjust found (fun _ _ => identity.trans name) inboxOpen
    have logged := Router.joins_foldl (fun r e => (r.gains_note (e := .log e) trivial).joins)
      step.entries (d.router.adjust worker fun _ => step.thread)
    exact advances_of_thins (adjusted.trans (logged.thins adjusted.attended)) rfl rfl
  | @crash worker t found running =>
    have adjusted : d.router.Thins (d.router.adjust worker (·.endWith false)) :=
      attended.adjust found (fun _ name => name) rfl
    exact advances_of_thins adjusted rfl rfl
  | @arrive arrival arrivals selecting first =>
    have minted : d.minted? .takeArrival = d.router.minted? arrival := by
      rw [minted?, taken?, first]
      rfl
    have none : d.stage.apart = [] := by
      rw [selecting]
      rfl
    have new : ∀ identity, d.router.minted? arrival = some identity →
        identity ∉ KeyTable.names d.router.sessions := by
      intro identity same member
      exact h.minted_not_mem moved (minted.trans same)
        (Roll.mem_all.mpr (Or.inl member))
    obtain ⟨thins, hires⟩ := attended.onArrival arrival new
    cases hired : d.router.minted? arrival with
    | none => exact advances_of_thins (thins hired) none.symm (minted.trans hired)
    | some identity =>
      obtain ⟨after, serving, retired, joined, draining⟩ := hires identity hired
      refine ⟨after, ?_, draining⟩
      rw [minted, hired]
      refine .hire serving ?_ joined
      simp only [roll, none, retired]
      rfl
  | hear selecting first =>
    exact advances_of_thins (attended.onReport _) (by rw [selecting]; rfl) rfl
  | check checking =>
    obtain ⟨thins, apart⟩ := thins_check attended
    exact advances_of_thins thins (by rw [apart, checking]; rfl) rfl
  | reap reaping => exact advances_reap attended reaping
  | heed _ first => exact advances_of_thins (attended.onReport _) rfl rfl
  | @dismiss finished collecting _ =>
    have joins := Router.joins_dismiss d.router finished
    have joined : d.router.Joins (finished.map Thread.identity).reverse
        { d.router.dismiss finished with retired := d.router.retired } :=
      ⟨joins.sessions, rfl, joins.joined, joins.draining⟩
    refine advances_of_joins attended joined ?_ rfl
    simp only [roll, collecting, Stage.apart, joins.retired, List.append_nil, List.map_append]
    exact List.perm_append_comm.trans ((List.reverse_perm _).symm.append_right _)
  | @join count joining _ =>
    have joins := Router.joins_foldl_of_join Router.joins_join d.router.retired
      { d.router with retired := [] }
    have joined : d.router.Joins (d.router.retired.map Thread.identity).reverse
        { d.router.retired.foldl Router.join { d.router with retired := [] } with
          retired := d.router.retired } :=
      ⟨joins.sessions, rfl, joins.joined, joins.draining⟩
    refine advances_of_joins attended joined ?_ rfl
    simp only [roll, joining, Stage.apart, joins.retired, List.append_nil, List.map_nil]
    exact (List.reverse_perm _).symm
  | @conclude count joined emptying _ =>
    have abandoned := Router.joins_foldl Router.joins_abandon
      (KeyTable.names d.router.pending) d.router
    have counted := abandoned.trans
      (Router.joins_log d.router.abandonAll .debug "Workers stopped" [("sessions", .nat count)])
    have shut := counted.trans (Router.joins_foldl Router.joins_disconnect
      ((d.router.abandonAll.log .debug "Workers stopped"
        [("sessions", .nat count)]).connections.map Connection.client) _)
    have ended := shut.trans (Router.joins_log _ .info "Broker stopped" [])
    exact advances_of_thins (ended.thins attended) (by rw [emptying]; rfl) rfl

theorem Orderly.step (h : d.Orderly) (moved : d.step? m = some d') :
    d'.Orderly ∧ d.Advances m d' := by
  have advances := h.advances moved
  obtain ⟨sound, taken⟩ := h.sound.step moved
  have total := advances.changes.all_perm
  refine ⟨⟨sound, advances.attended, ?_, ?_⟩, advances⟩
  · intro worker member
    rcases List.mem_append.mp (total.mem_iff.mp member) with new | old
    · obtain ⟨recruit, counted⟩ := minted?_step moved (Option.mem_toList.mp new)
      have early : d.router.recruited < d'.router.recruited := by omega
      exact ⟨d.router.recruited, early, taken.setup ▸ recruit⟩
    · exact taken.hired (h.hired worker old)
  · refine total.nodup_iff.mpr ?_
    cases minted : d.minted? m with
    | none => exact h.distinct
    | some identity => exact List.nodup_cons.mpr ⟨h.minted_not_mem moved minted, h.distinct⟩

/-- A worker never goes back, however long the broker goes on. -/
theorem Orderly.rank_le (h : d.Orderly) {moves : List Move} (moved : d.run? moves = some d')
    {worker : String} {a b : Station} (before : d.roll.Has worker a)
    (after : d'.roll.Has worker b) : a.rank ≤ b.rank := by
  induction moves generalizing d a with
  | nil =>
    cases moved
    obtain ⟨station, -, only⟩ := Roll.existsUnique_has h.distinct worker
    have same : a = b := (only a before).trans (only b after).symm
    exact Nat.le_of_eq (congrArg Station.rank same)
  | cons m rest ih =>
    obtain ⟨next, one, others⟩ := Option.bind_eq_some_iff.mp moved
    obtain ⟨orderly, advances⟩ := h.step one
    obtain ⟨c, there, near⟩ := advances.changes.onward before
    have later : c.rank ≤ b.rank := ih orderly others there
    rcases near with rfl | further
    · exact later
    · omega

/-- While the broker drains, sessions only end. -/
theorem Orderly.serving_subset (h : d.Orderly) (draining : d.router.draining = true)
    {moves : List Move} (moved : d.run? moves = some d') :
    d'.router.draining = true ∧
      KeyTable.names d'.router.sessions ⊆ KeyTable.names d.router.sessions := by
  induction moves generalizing d with
  | nil =>
    cases moved
    exact ⟨draining, List.Subset.refl _⟩
  | cons m rest ih =>
    obtain ⟨next, one, others⟩ := Option.bind_eq_some_iff.mp moved
    obtain ⟨orderly, advances⟩ := h.step one
    have nobody : d.minted? m = none := by
      rw [minted?, Option.bind_eq_none_iff]
      exact fun a _ => Router.minted?_of_draining draining a
    have changes := advances.changes
    rw [nobody] at changes
    obtain ⟨still, fewer⟩ := ih orderly (advances.draining draining) others
    exact ⟨still, List.Subset.trans fewer changes.serving_subset⟩

end Daemon

/-! ### Runs -/

section Runs

variable [Service α] [Accountable α] {first d : Daemon α} {trace : List (Daemon α × Move)}

theorem Run.orderly (run : Run first trace d) (orderly : first.Orderly)
    (none : first.roll.all = []) :
    d.Orderly ∧ d.roll.all.Perm (identitiesMinted trace) := by
  induction run with
  | start =>
    rw [none]
    exact ⟨orderly, .refl _⟩
  | @step trace d d' m run moved ih =>
    obtain ⟨before, minted⟩ := ih
    obtain ⟨after, advances⟩ := before.step moved
    have all : identitiesMinted ((d, m) :: trace) =
        (d.minted? m).toList ++ identitiesMinted trace := by
      rw [identitiesMinted, List.filterMap_cons]
      dsimp only
      cases d.minted? m <;> rfl
    rw [all]
    exact ⟨after, advances.changes.all_perm.trans (minted.append_left _)⟩

end Runs

/-- The broker takes a request of a client. -/
def Daemon.Takes [Service α] (d : Daemon α) (client : Nat) (request : Request) (d' : Daemon α) :
    Prop :=
  ∃ payload arrivals, d.arrivals = .frame client payload :: arrivals ∧
    Codec.decodePayload Request.take payload = .ok request ∧
    d.step? .takeArrival = some d'

theorem Daemon.Takes.router_eq [Service α] {d d' : Daemon α} {client : Nat} {request : Request}
    (h : d.Takes client request d') : d'.router = d.router.route client request := by
  obtain ⟨payload, arrivals, first, decoded, moved⟩ := h
  simp only [Daemon.step?] at moved
  split at moved
  · next arrival rest _ found =>
    cases moved
    rw [first] at found
    cases found
    exact Router.onArrival_request decoded client
  · cases moved

/-- The lives of the workers that were hired in a run, as the books show them. -/
structure LifeCycle (trace : List (Daemon α × Move)) (d : Daemon α) : Prop where
  distinct : (identitiesMinted trace).Nodup
  accounted : d.roll.all.Perm (identitiesMinted trace)
  somewhere : ∀ worker, ∃ station, d.roll.Has worker station ∧
    ∀ other, d.roll.Has worker other → other = station
  unknown : ∀ worker, d.roll.Has worker .unknown ↔ worker ∉ identitiesMinted trace
  settled : d.stage = .ended → d.router.sessions = [] ∧ d.router.retired = [] ∧
    (departed d.router.journal).Perm (identitiesMinted trace)

theorem Daemon.Orderly.lifeCycle [Service α] [Accountable α] {d : Daemon α}
    {trace : List (Daemon α × Move)} (h : d.Orderly)
    (minted : d.roll.all.Perm (identitiesMinted trace)) : LifeCycle trace d := by
  refine ⟨minted.nodup_iff.mp h.distinct, minted, Roll.existsUnique_has h.distinct, ?_, ?_⟩
  · intro worker
    exact not_congr minted.mem_iff
  · intro ended
    have cleared := h.sound.cleared
    unfold Daemon.Cleared at cleared
    rw [ended] at cleared
    obtain ⟨sessions, retired, -, -⟩ := cleared
    have gone : d.roll.all = departed d.router.journal := by
      simp [Roll.all, Daemon.roll, sessions, retired, ended, Stage.apart, KeyTable.names]
    exact ⟨sessions, retired, gone ▸ minted⟩

/-- In every state of every run each worker is at one station of its life, those that were minted
are accounted for, and every move takes a worker at most to its next station; a run never takes it
back. When the broker has ended all of them are joined, each once. A request for a worker that has
gone is refused, one for a worker that has not gone is handed over, draining or not; and while the
broker drains nobody is hired. -/
theorem session_life_cycle {address : String} {limit pollInterval drainTimeout : Nat}
    {recruit : Nat → Except String String} {backend : Rehearsal} {epoch : Int}
    (fresh : (Setup.relay address limit recruit pollInterval drainTimeout).Fresh)
    {trace : List (Daemon Family × Move)} {d : Daemon Family}
    (run : Run (.start (.relay address limit recruit pollInterval drainTimeout) backend epoch)
      trace d) :
    LifeCycle trace d ∧
    (∀ m d', d.step? m = some d' → ∀ worker a b, d.roll.Has worker a → d'.roll.Has worker b →
      b = a ∨ b.rank = a.rank + 1) ∧
    (∀ moves d', d.run? moves = some d' → ∀ worker a b, d.roll.Has worker a →
      d'.roll.Has worker b → a.rank ≤ b.rank) ∧
    (∀ client request d' worker, d.Takes client request d' → request.worker = some worker →
      (∀ t, KeyTable.value? worker d.router.sessions = some t → t.isFinished = true) →
      d.router.Refuses client ((Response.failed worker
          s!"worker {worker} is no longer available").forRequest request.requestId) d'.router ∧
        d'.router.sessions = KeyTable.without worker d.router.sessions) ∧
    (∀ client request d' worker t, d.Takes client request d' → request.worker = some worker →
      KeyTable.value? worker d.router.sessions = some t → t.isFinished = false →
      d'.router = { d.router with
        sessions := KeyTable.put worker { t with inbox := t.inbox ++ [⟨client, request⟩] }
          d.router.sessions
        pending := KeyTable.put worker
          ((KeyTable.value? worker d.router.pending).getD [] ++ [⟨client, request.requestId⟩])
          d.router.pending }) ∧
    (d.router.draining = true →
      (∀ moves d', d.run? moves = some d' → d'.router.draining = true ∧
        KeyTable.names d'.router.sessions ⊆ KeyTable.names d.router.sessions) ∧
      ∀ client request d', d.Takes client request d' → request.worker = none →
        d.router.Refuses client
          ((Response.failed "" "daemon is shutting down").forRequest request.requestId) d'.router ∧
        d'.router.sessions = d.router.sessions ∧ d'.router.retired = d.router.retired) := by
  have start := Daemon.orderly_start fresh (Family.registry_assigns limit) backend epoch
  obtain ⟨orderly, minted⟩ := run.orderly start rfl
  have attended := orderly.attended
  refine ⟨orderly.lifeCycle minted, ?_, ?_, ?_, ?_, ?_⟩
  · intro m d' moved worker a b before after
    obtain ⟨next, advances⟩ := orderly.step moved
    obtain ⟨c, there, near⟩ := advances.changes.onward before
    obtain ⟨station, -, only⟩ := Roll.existsUnique_has next.distinct worker
    have same : b = c := (only b after).trans (only c there).symm
    rw [same]
    exact near
  · intro moves d' moved worker a b before after
    exact orderly.rank_le moved before after
  · intro client request d' worker taken named gone
    rw [taken.router_eq]
    exact attended.route_of_gone named gone
  · intro client request d' worker t taken named session running
    rw [taken.router_eq]
    exact attended.route_of_live named session running
  · intro draining
    refine ⟨fun moves d' moved => orderly.serving_subset draining moved, ?_⟩
    intro client request d' taken unnamed
    rw [taken.router_eq]
    exact Router.route_of_draining unnamed draining

/-- A worker is hired, crashes and is joined before the broker has ended. -/
theorem hired_worker_joined :
    ∃ trace d, Run (.start (.forOne "w") .empty 0) trace d ∧ d.stage = .ended ∧
      identitiesMinted trace = ["w"] ∧ departed d.router.journal = ["w"] ∧ LifeCycle trace d := by
  obtain ⟨trace, d, run, same⟩ := Run.exists_of_run? run?_crashing
  simp only [Prod.mk.injEq] at same
  obtain ⟨ended, -, joined⟩ := same
  have cycle := (session_life_cycle (Setup.fresh_forOne "w") run).1
  have all := (cycle.settled (Daemon.hasEnded_iff.mp ended)).2.2
  rw [joined] at all
  exact ⟨trace, d, run, Daemon.hasEnded_iff.mp ended, all.symm.eq_singleton, joined, cycle⟩

end SessionRelay.Broker
