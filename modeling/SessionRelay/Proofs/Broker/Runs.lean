import SessionRelay.Broker.Relay
import SessionRelay.Proofs.Broker.Moves
import SessionRelay.Proofs.Broker.Router

/-!
What holds in every state that the broker comes to, whatever the clients, the workers and the
backend do and in whatever order: its tables fit its workers and its queues, and what was answered
or is due is what was taken.
-/

namespace SessionRelay.Broker

open Backend Wire Worker Integration

variable {α : Type}

namespace Daemon

/-- The ticket that a move takes on. -/
def takenOn? (d : Daemon α) (m : Move) : Option Ticket := (d.taken? m).bind d.router.ticket?

variable [Service α] [Accountable α]

structure Sound (d : Daemon α) : Prop where
  consistent : d.router.Consistent d.stage.leaving d.reports
  cleared : d.Cleared

variable {d d' : Daemon α}

theorem sound_start {setup : Setup α} (fresh : setup.Fresh) (assigns : setup.registry.Assigns)
    (backend : Rehearsal) (epoch : Int) : (start setup backend epoch).Sound := by
  have empty : (Router.new setup).Consistent [] [] := by
    refine ⟨fresh, assigns, .nil, .nil, ?_, ?_, trivial, ?_⟩
    · intro entry member
      cases member
    · intro t member
      cases member
    · refine ⟨List.nodup_nil, ?_, ?_, fun _ _ => ⟨rfl, rfl⟩⟩
      · intro t member
        cases member
      · intro t member
        cases member
  exact ⟨empty.answers (Router.silent_log _ _ _ _).answers, trivial⟩

/-! ### Steps -/

/-- The tables may change silently. -/
theorem Sound.silent (h : d.Sound) {r : Router α} (quiet : d.router.Silent r) :
    Sound { d with router := r } ∧ d.router.TakesOn [] r := by
  refine ⟨⟨h.consistent.answers quiet.answers, ?_⟩, quiet.answers.takesOn⟩
  obtain ⟨connections, added, -, rfl⟩ := quiet
  exact h.cleared

omit [Service α] [Accountable α] in
theorem thread?_eq_none {r : Router α} (sessions : r.sessions = []) (retired : r.retired = [])
    (identity : String) : r.thread? identity = none := by
  rw [Router.thread?, sessions, retired]
  rfl

/-- A worker goes on. -/
theorem Sound.adjust (h : d.Sound) {identity : String} {t : Thread α}
    (found : d.router.thread? identity = some t) {f : Thread α → Thread α} {events : List Event}
    (c : t.Continues events (f t)) :
    Sound { d with router := d.router.adjust identity f, reports := d.reports ++ events } ∧
      d.router.TakesOn [] (d.router.adjust identity f) := by
  obtain ⟨consistent, taken⟩ := h.consistent.adjust found c
  refine ⟨⟨consistent, ?_⟩, taken⟩
  have cleared := h.cleared
  unfold Cleared at cleared ⊢
  dsimp only
  split at cleared
  · rw [Router.adjust, cleared]
    rfl
  · rw [thread?_eq_none cleared.1 cleared.2] at found
    cases found
  · rw [thread?_eq_none cleared.1 cleared.2.1] at found
    cases found
  · trivial

theorem Sound.listened (h : d.Sound) {identity : String} {t : Thread α}
    (found : d.router.thread? identity = some t) : d.surroundings.listened = true := by
  have cleared := h.cleared
  unfold Cleared at cleared
  unfold surroundings hasEnded
  cases stage : d.stage with
  | ended =>
    rw [stage] at cleared
    rw [thread?_eq_none cleared.1 cleared.2.1] at found
    cases found
  | _ => rfl

theorem Sound.work (h : d.Sound) {worker : String} {t : Thread α} {step : Step α}
    (found : d.router.thread? worker = some t) (stepped : t.step? d.surroundings = some step) :
    Sound { d with
      router := step.entries.foldl (fun r e => r.note (.log e))
        (d.router.adjust worker fun _ => step.thread)
      reports := d.reports ++ step.events } ∧
      d.router.TakesOn [] (step.entries.foldl (fun r e => r.note (.log e))
        (d.router.adjust worker fun _ => step.thread)) := by
  obtain ⟨-, others, first, -⟩ := h.consistent.single_out found
  have sound : t.Sound := h.consistent.mirrors.sound t (first.mem_iff.mpr List.mem_cons_self)
  obtain ⟨next, taken⟩ : Sound { d with
      router := d.router.adjust worker fun _ => step.thread
      reports := d.reports ++ step.events } ∧
      d.router.TakesOn [] (d.router.adjust worker fun _ => step.thread) :=
    h.adjust found (sound.step (h.listened found) stepped)
  have logged := (d.router.adjust worker fun _ => step.thread).silent_entries step.entries
  obtain ⟨last, quiet⟩ := next.silent logged
  exact ⟨last, taken.trans quiet⟩

theorem Sound.crash (h : d.Sound) {worker : String} {t : Thread α}
    (found : d.router.thread? worker = some t) :
    Sound { d with router := d.router.adjust worker (·.endWith false) } ∧
      d.router.TakesOn [] (d.router.adjust worker (·.endWith false)) := by
  obtain ⟨-, others, first, -⟩ := h.consistent.single_out found
  have sound : t.Sound := h.consistent.mirrors.sound t (first.mem_iff.mpr List.mem_cons_self)
  have next : Sound { d with
      router := d.router.adjust worker (·.endWith false)
      reports := d.reports ++ [] } ∧ _ := h.adjust found sound.crash
  rw [List.append_nil] at next
  exact next

theorem Sound.beginEnd (h : d.Sound) (idle : d.stage.leaving = []) :
    d.beginEnd.Sound ∧ d.router.TakesOn [] d.beginEnd.router := by
  have consistent := h.consistent
  rw [idle] at consistent
  obtain ⟨retired, taken⟩ := consistent.retireAll
  exact ⟨⟨retired, Router.sessions_retireAll _⟩, taken⟩

theorem Sound.reaping (h : d.Sound) (idle : d.stage.leaving = []) :
    Sound { d with stage := .reaping } := by
  refine ⟨?_, trivial⟩
  have consistent := h.consistent
  rw [idle] at consistent
  exact consistent

/-- The broker may notice that it was asked to end. -/
theorem Sound.notice (h : d.Sound) :
    d.notice.Sound ∧ d.router.TakesOn [] d.notice.router ∧ d.notice.stage = d.stage := by
  unfold Daemon.notice
  split
  · have c := h.consistent
    have draining : Router.Consistent { d.router with draining := true } d.stage.leaving
        d.reports :=
      ⟨c.fresh, c.assigns, c.sessions, c.pending, c.keys, c.hired, c.framed, c.mirrors⟩
    have moved : Sound { d with router := { d.router with draining := true } } :=
      ⟨draining, h.cleared⟩
    obtain ⟨last, taken⟩ := moved.silent (Router.silent_log { d.router with draining := true } .info
      "Shutdown requested, draining in-flight requests"
      [("in_flight", .nat d.router.inFlight), ("sessions", .nat d.router.sessions.length)])
    exact ⟨⟨last.consistent, last.cleared⟩,
      ⟨taken.setup, taken.recruited, taken.balance, taken.stays⟩, rfl⟩
  · exact ⟨h, .refl _, rfl⟩

theorem Sound.check (h : d.Sound) (checking : d.stage = .checking) :
    d.check.Sound ∧ d.router.TakesOn [] d.check.router := by
  obtain ⟨noticed, taken, same⟩ := h.notice
  have idle : d.notice.stage.leaving = [] := by
    rw [same, checking]
    rfl
  unfold Daemon.check
  dsimp only
  split
  · exact ⟨noticed.reaping idle, taken⟩
  · split
    · obtain ⟨ending, more⟩ := noticed.beginEnd idle
      exact ⟨ending, taken.trans more⟩
    · split
      · obtain ⟨warned, quiet⟩ := noticed.silent (Router.silent_log d.notice.router .warn
          "Drain timeout reached, abandoning in-flight requests"
          [("in_flight", .nat d.notice.router.inFlight)])
        obtain ⟨ending, more⟩ := warned.beginEnd idle
        exact ⟨ending, taken.trans (quiet.trans more)⟩
      · exact ⟨noticed.reaping idle, taken⟩

omit [Service α] [Accountable α] in
theorem reap_eq (d : Daemon α) : ∃ running finished, d.reap.router =
    { d.router.retireFinished with retired := running } ∧ d.reap.stage.leaving = finished ∧
    d.reap.reports = d.reports ∧ d.reap.Cleared ∧
    d.router.retireFinished.retired.Perm (running ++ finished) := by
  have parted (waiting : List (Thread α)) : waiting.Perm
      (waiting.filter (not ∘ Thread.isFinished) ++ waiting.filter Thread.isFinished) :=
    (List.filter_append_perm Thread.isFinished waiting).symm.trans List.perm_append_comm
  unfold reap Cleared
  dsimp only
  rw [List.partition_eq_filter_filter]
  refine ⟨_, _, rfl, ?_, rfl, ?_, parted _⟩
  · generalize d.router.retireFinished.retired.filter Thread.isFinished = finished
    cases finished with
    | nil => rfl
    | cons t rest => rfl
  · generalize d.router.retireFinished.retired.filter Thread.isFinished = finished
    cases finished with
    | nil => trivial
    | cons t rest => trivial

/-- Workers that have ended leave the tables. -/
theorem Sound.reap (h : d.Sound) (reaping : d.stage = .reaping) :
    d.reap.Sound ∧ d.router.TakesOn [] d.reap.router := by
  have consistent := h.consistent
  rw [reaping] at consistent
  obtain ⟨retired, taken⟩ := consistent.retireFinished
  obtain ⟨running, finished, router, leaving, reports, cleared, parted⟩ := d.reap_eq
  refine ⟨⟨?_, cleared⟩, ?_⟩
  · rw [router, leaving, reports]
    exact retired.regroup ((List.append_nil _).symm ▸ parted)
  · rw [router]
    refine ⟨taken.setup, taken.recruited, taken.balance, ?_⟩
    intro worker member hired
    apply taken.stays worker ?_ hired
    rw [Router.threads, List.map_append, List.mem_append] at member ⊢
    refine member.imp_right fun kept => (parted.map Thread.identity).mem_iff.mpr ?_
    rw [List.map_append]
    exact List.mem_append_left _ kept

omit [Service α] [Accountable α] in
theorem cleared_onReport {r : Router α} (report : Event) (sessions : r.sessions = []) :
    (r.onReport report).sessions = [] ∧ (r.onReport report).retired = r.retired := by
  cases report with
  | reply worker client response =>
    obtain ⟨connections, journal, same, -, -⟩ := (r.strikeOff worker).reply_answers client response
    simp only [Router.onReport, same]
    unfold Router.strikeOff
    split
    · exact ⟨sessions, rfl⟩
    · exact ⟨sessions, rfl⟩
    · exact ⟨sessions, rfl⟩
  | stopped worker =>
    have nobody : KeyTable.value? worker r.sessions = none := by
      rw [sessions]
      rfl
    simp only [Router.onReport, Router.retire, Router.log, Router.note, nobody]
    exact ⟨sessions, trivial⟩

theorem Sound.onReport (h : d.Sound) {report : Event} {reports : List Event}
    (first : d.reports = report :: reports) :
    Sound { d with router := d.router.onReport report, reports := reports } ∧
      d.router.TakesOn [] (d.router.onReport report) := by
  have consistent := h.consistent
  rw [first] at consistent
  obtain ⟨heard, taken⟩ := consistent.onReport
  refine ⟨⟨heard, ?_⟩, taken⟩
  have cleared := h.cleared
  unfold Cleared at cleared ⊢
  dsimp only
  split at cleared
  · exact (cleared_onReport report cleared).1
  · obtain ⟨sessions, retired⟩ := cleared_onReport report cleared.1
    exact ⟨sessions, retired.trans cleared.2⟩
  · rw [first] at cleared
    cases cleared.2.2.2
  · trivial

/-- The broker has waited for all workers. -/
theorem Sound.join (h : d.Sound) {count : Nat} (joining : d.stage = .joining count) :
    Sound { d with
      router := d.router.retired.foldl Router.join { d.router with retired := [] }
      stage := .emptying count d.router.retired } ∧
    d.router.TakesOn [] (d.router.retired.foldl Router.join { d.router with retired := [] }) := by
  have consistent := h.consistent
  have cleared := h.cleared
  unfold Cleared at cleared
  rw [joining] at consistent cleared
  have moved : Sound { d with
      router := { d.router with retired := [] }
      stage := .emptying count d.router.retired } :=
    ⟨consistent.regroup List.perm_append_comm, ⟨cleared, rfl⟩⟩
  obtain ⟨last, taken⟩ := moved.silent
    (Router.silent_foldl Router.silent_join d.router.retired { d.router with retired := [] })
  refine ⟨⟨last.consistent, last.cleared⟩, ⟨taken.setup, taken.recruited, taken.balance, ?_⟩⟩
  intro worker member hired
  have kept := taken.stays worker member hired
  rw [Router.threads, List.map_append, List.mem_append] at kept ⊢
  exact kept.imp_right fun absent => absurd absent List.not_mem_nil

theorem Sound.conclude (h : d.Sound) {count : Nat} {joined : List (Thread α)}
    (emptying : d.stage = .emptying count joined) (taken : d.reports = []) :
    (d.conclude count).Sound ∧ d.router.TakesOn [] (d.conclude count).router := by
  have consistent := h.consistent
  have cleared := h.cleared
  unfold Cleared at cleared
  rw [taken] at consistent
  rw [emptying] at cleared
  obtain ⟨last, balance, pending, sessions, retired⟩ := consistent.abandonAll cleared.1 cleared.2
  have quiet := d.silent_conclude count
  refine ⟨⟨?_, ?_⟩, balance.trans quiet.answers.takesOn⟩
  · rw [show (d.conclude count).reports = [] from taken]
    exact last.answers quiet.answers
  · obtain ⟨connections, added, -, same⟩ := quiet
    have ended : (d.conclude count).stage = .ended := rfl
    simp only [Cleared, ended, same]
    exact ⟨sessions, retired, pending, taken⟩

theorem Sound.dismiss (h : d.Sound) {finished : List (Thread α)}
    (collecting : d.stage = .collecting finished) (taken : d.reports = []) :
    Sound { d with router := d.router.dismiss finished, stage := .selecting } ∧
      d.router.TakesOn [] (d.router.dismiss finished) := by
  have consistent := h.consistent
  rw [collecting, taken, Stage.leaving, ← List.append_nil finished] at consistent
  obtain ⟨dismissed, balance⟩ := consistent.dismiss
  refine ⟨⟨?_, trivial⟩, balance⟩
  dsimp only
  rw [taken]
  exact dismissed

/-- Every move keeps the tables sound, and takes on the ticket of the arrival that it takes. -/
theorem Sound.step (h : d.Sound) {m : Move} (moved : d.step? m = some d') :
    d'.Sound ∧ d.router.TakesOn (d.takenOn? m).toList d'.router := by
  cases moves_of_step? moved with
  | quiet outside silent reports leaving cleared =>
    have consistent := h.consistent.answers silent.answers
    rw [← reports, ← leaving] at consistent
    rw [takenOn?, taken?_of_isQuiet outside]
    exact ⟨⟨consistent, cleared h.cleared⟩, silent.answers.takesOn⟩
  | work found stepped =>
    obtain ⟨last, balance⟩ := h.work found stepped
    exact ⟨⟨last.consistent, last.cleared⟩, balance⟩
  | crash found _ => exact h.crash found
  | @arrive arrival arrivals selecting first =>
    have consistent := h.consistent
    rw [selecting] at consistent
    obtain ⟨routed, balance⟩ := consistent.onArrival arrival
    have taken : d.takenOn? .takeArrival = d.router.ticket? arrival := by
      rw [takenOn?, taken?, first]
      rfl
    rw [taken]
    exact ⟨⟨routed, trivial⟩, balance⟩
  | hear selecting first =>
    obtain ⟨heard, balance⟩ := h.onReport first
    have consistent := heard.consistent
    dsimp only at consistent
    rw [selecting] at consistent
    exact ⟨⟨consistent, trivial⟩, balance⟩
  | check checking => exact h.check checking
  | reap reaping => exact h.reap reaping
  | heed _ first => exact h.onReport first
  | dismiss collecting none => exact h.dismiss collecting none
  | join joining _ => exact h.join joining
  | conclude emptying none => exact h.conclude emptying none

end Daemon

/-! ### Runs -/

/-- A run: the states in which moves were made with these moves, the last one first, and the state
that they lead to. -/
inductive Run [Service α] (first : Daemon α) : List (Daemon α × Move) → Daemon α → Prop where
  | start : Run first [] first
  | step {trace : List (Daemon α × Move)} {d d' : Daemon α} {m : Move} :
    Run first trace d → d.step? m = some d' → Run first ((d, m) :: trace) d'

/-- The arrivals that were taken, the last one first. -/
def arrivalsTaken (trace : List (Daemon α × Move)) : List Arrival :=
  trace.filterMap fun (d, m) => d.taken? m

/-- The tickets that were taken on, the last one first. -/
def ticketsTaken (trace : List (Daemon α × Move)) : List Ticket :=
  trace.filterMap fun (d, m) => d.takenOn? m

section Runs

variable [Service α] {first d : Daemon α} {trace : List (Daemon α × Move)}

theorem Daemon.run?_append (moves more : List Move) (d : Daemon α) :
    d.run? (moves ++ more) = (d.run? moves).bind (Daemon.run? more) := by
  induction moves generalizing d with
  | nil => rfl
  | cons m rest ih =>
    rw [List.cons_append, Daemon.run?, Daemon.run?, Option.bind_assoc]
    exact congrArg _ (funext fun d' => ih d')

theorem Run.extend (run : Run first trace d) {moves : List Move} {d' : Daemon α}
    (moved : d.run? moves = some d') :
    ∃ more, Run first (more ++ trace) d' ∧ (more.map Prod.snd).reverse = moves := by
  induction moves generalizing d trace with
  | nil =>
    cases moved
    exact ⟨[], run, rfl⟩
  | cons m rest ih =>
    obtain ⟨next, one, others⟩ := Option.bind_eq_some_iff.mp moved
    obtain ⟨more, extended, same⟩ := ih (run.step one) others
    refine ⟨more ++ [(d, m)], ?_, ?_⟩
    · rw [List.append_assoc]
      exact extended
    · rw [List.map_append, List.reverse_append, same]
      rfl

/-- Runs are what `run?` makes of lists of moves. -/
theorem run_iff_run? {moves : List Move} :
    (∃ trace, Run first trace d ∧ (trace.map Prod.snd).reverse = moves) ↔
      first.run? moves = some d := by
  constructor
  · rintro ⟨trace, run, rfl⟩
    induction run with
    | start => rfl
    | step run moved ih =>
      rw [List.map_cons, List.reverse_cons, Daemon.run?_append, ih, Option.bind_some,
        Daemon.run?, moved]
      rfl
  · intro moved
    obtain ⟨trace, run, same⟩ := Run.start.extend moved
    rw [List.append_nil] at run
    exact ⟨trace, run, same⟩

theorem Run.exists_of_run? {β : Type} {f : Daemon α → β} {moves : List Move} {b : β}
    (moved : (first.run? moves).map f = some b) : ∃ trace d, Run first trace d ∧ f d = b := by
  obtain ⟨d, made, same⟩ := Option.map_eq_some_iff.mp moved
  obtain ⟨trace, run, -⟩ := run_iff_run?.mpr made
  exact ⟨trace, d, run, same⟩

/-- The states and moves of a run, if its moves can be made, added to those before. -/
def Daemon.record? : List Move → List (Daemon α × Move) → Daemon α →
    Option (List (Daemon α × Move) × Daemon α)
  | [], trace, d => some (trace, d)
  | m :: rest, trace, d => (d.step? m).bind (record? rest ((d, m) :: trace))

theorem Run.record (run : Run first trace d) {moves : List Move} {trace' : List (Daemon α × Move)}
    {d' : Daemon α} (recorded : d.record? moves trace = some (trace', d')) :
    Run first trace' d' := by
  induction moves generalizing d trace with
  | nil =>
    cases recorded
    exact run
  | cons m rest ih =>
    obtain ⟨next, moved, others⟩ := Option.bind_eq_some_iff.mp recorded
    exact ih (run.step moved) others

theorem Run.exists_of_record? {β : Type} {f : List (Daemon α × Move) × Daemon α → β}
    {moves : List Move} {b : β} (recorded : (first.record? moves []).map f = some b) :
    ∃ trace d, Run first trace d ∧ f (trace, d) = b := by
  obtain ⟨⟨trace, d⟩, made, same⟩ := Option.map_eq_some_iff.mp recorded
  exact ⟨trace, d, Run.start.record made, same⟩

variable [Accountable α]

theorem Run.sound (run : Run first trace d) (sound : first.Sound) :
    d.Sound ∧ first.router.TakesOn (ticketsTaken trace) d.router := by
  induction run with
  | start => exact ⟨sound, .refl _⟩
  | @step trace d d' m run moved ih =>
    obtain ⟨before, taken⟩ := ih
    obtain ⟨after, more⟩ := before.step moved
    refine ⟨after, ?_⟩
    have all : ticketsTaken ((d, m) :: trace) = (d.takenOn? m).toList ++ ticketsTaken trace := by
      rw [ticketsTaken, List.filterMap_cons]
      dsimp only
      cases d.takenOn? m with
      | none => rfl
      | some ticket => rfl
    rw [all]
    exact taken.trans more

end Runs

/-! ### A broker with one worker -/

/-- The setup of a broker that can hire one worker. -/
def Setup.forOne (identity : String) : Setup Family :=
  .relay "127.0.0.1:0" 4096 (fun n => if n = 0 then .ok identity else .error "nobody is left") 10 10

/-- A read of the frame of a request. -/
def Chunk.ofRequest (request : Request) : Chunk :=
  .bytes (header request.toValue.bytes.length ++ request.toValue.bytes)

theorem Setup.fresh_forOne (identity : String) : (Setup.forOne identity).Fresh := by
  have first (k : Nat) (name : String)
      (hired : (Setup.forOne identity).recruit k = .ok name) : k = 0 := by
    simp only [Setup.forOne, Setup.relay] at hired
    split at hired
    · assumption
    · cases hired
  intro m n name one other
  rw [first m name one, first n name other]

end SessionRelay.Broker
