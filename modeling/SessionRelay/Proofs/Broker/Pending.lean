import Mathlib.Data.List.Basic
import SessionRelay.Proofs.Broker.Turns

/-!
The table of pending jobs tells what the workers still owe. For each worker it holds the jobs whose
answers wait to be taken, then the job at hand, then those in the inbox. So the job that is struck
off for an answer is the one that was answered, and when the broker ends before its time to drain is
over, no job is left.
-/

namespace SessionRelay.Broker

open Backend Wire Worker Integration

/-- The jobs that are pending at a worker, oldest first. -/
def waiting (worker : String) (pending : KeyTable (List PendingJob)) : List PendingJob :=
  (KeyTable.value? worker pending).getD []

/-- The pending job that a ticket is the answer to. -/
def PendingJob.ofTicket (ticket : Ticket) : PendingJob :=
  ⟨ticket.client, ticket.requestId.getD ""⟩

/-- A job as the table of pending jobs holds it. -/
def PendingJob.ofJob (job : Job) : PendingJob := ⟨job.client, job.request.requestId⟩

theorem reference_getD (requestId : String) : (reference requestId).getD "" = requestId := by
  unfold reference
  split
  · next empty => exact (String.isEmpty_iff.mp empty).symm
  · rfl

@[simp] theorem PendingJob.ofTicket_ticket (worker : String) (job : PendingJob) :
    ofTicket (job.ticket worker) = job := by
  rw [ofTicket, PendingJob.ticket, reference_getD]

@[simp] theorem PendingJob.ofTicket_jobTicket (worker : String) (job : Job) :
    ofTicket (job.ticket worker) = ofJob job := by
  rw [ofTicket, Job.ticket, reference_getD, ofJob]

theorem waiting_eq (worker : String) (pending : KeyTable (List PendingJob)) :
    waiting worker pending = (dueFrom worker pending).map .ofTicket := by
  rw [dueFrom, List.map_map, waiting]
  exact (List.map_id' _).symm.trans
    (List.map_congr_left fun job _ => (PendingJob.ofTicket_ticket worker job).symm)

/-! ### The jobs in flight -/

theorem due_eq_nil {pending : KeyTable (List PendingJob)} (ascending : KeyTable.Ascending pending)
    (none : ∀ worker, dueFrom worker pending = []) : due pending = [] := by
  induction pending with
  | nil => rfl
  | cons entry rest ih =>
    obtain ⟨worker, jobs⟩ := entry
    have split := due_perm worker ascending
    rw [none worker, List.nil_append, KeyTable.without, if_pos rfl,
      KeyTable.without_eq_self ascending.head_not_mem] at split
    have later : due rest = [] := by
      apply ih ascending.tail
      intro other
      by_cases same : other = worker
      · subst same
        rw [dueFrom, KeyTable.value?_eq_none_iff.mpr ascending.head_not_mem]
        rfl
      · have elsewhere := none other
        rw [dueFrom, KeyTable.value?, if_neg same] at elsewhere
        exact elsewhere
    rw [later] at split
    exact split.eq_nil

/-- What is due is due from the workers of a list, if nothing is due from anybody else. -/
theorem due_perm_of_workers {pending : KeyTable (List PendingJob)}
    (ascending : KeyTable.Ascending pending) {workers : List String} (distinct : workers.Nodup)
    (others : ∀ worker, worker ∉ workers → dueFrom worker pending = []) :
    (due pending).Perm (workers.flatMap (dueFrom · pending)) := by
  induction workers generalizing pending with
  | nil =>
    rw [due_eq_nil ascending fun worker => others worker List.not_mem_nil]
    exact List.Perm.nil
  | cons first rest ih =>
    obtain ⟨absent, distinct⟩ := List.nodup_cons.mp distinct
    have left : ∀ worker ∈ rest,
        dueFrom worker (KeyTable.without first pending) = dueFrom worker pending :=
      fun worker member => dueFrom_without_ne _ _ fun same => absent (same ▸ member)
    have later := ih (ascending.without first) distinct fun worker unknown => by
      by_cases same : worker = first
      · subst same
        exact dueFrom_without_self _ _
      · rw [dueFrom_without_ne _ _ same]
        exact others worker fun member => (List.mem_cons.mp member).elim same unknown
    rw [List.flatMap_congr left] at later
    rw [List.flatMap_cons]
    exact (due_perm first ascending).trans (later.append_left _)

/-! ### The mirror -/

namespace Daemon

/-- The jobs of a worker that are in flight: those whose answers wait to be taken, and those that it
still owes. -/
def outstanding {α : Type} (d : Daemon α) (t : Thread α) : List Ticket :=
  ticketsFrom t.identity d.reports ++ t.unanswered.map (Job.ticket t.identity)

/-- The table of pending jobs mirrors what the workers owe and what they reported. -/
structure Mirrored {α : Type} (d : Daemon α) : Prop where
  queues : ∀ t ∈ d.staff, waiting t.identity d.router.pending =
    (ticketsFrom t.identity d.reports).map .ofTicket ++ t.unanswered.map .ofJob
  strangers : ∀ worker, worker ∉ d.staff.map Thread.identity →
    waiting worker d.router.pending = [] ∧ ticketsFrom worker d.reports = []
  loses : ∀ t ∈ d.staff, ∀ lost, t.phase = .ended true lost → lost = []
  strikes : ∀ worker client response rest, d.reports = .reply worker client response :: rest →
    ∃ job jobs, waiting worker d.router.pending = job :: jobs ∧
      job.ticket worker = ticketOf client response ∧
      waiting worker (d.router.onReport (.reply worker client response)).pending = jobs
  inFlight : d.router.inFlight = (d.staff.flatMap d.outstanding).length

variable {α : Type} [Service α] [Accountable α] {d d' : Daemon α}

theorem Sound.strikes (h : d.Sound) {worker : String} {client : Nat} {response : Response}
    {rest : List Event} (first : d.reports = .reply worker client response :: rest) :
    ∃ job jobs, waiting worker d.router.pending = job :: jobs ∧
      job.ticket worker = ticketOf client response ∧
      waiting worker (d.router.onReport (.reply worker client response)).pending = jobs := by
  have consistent := h.consistent
  rw [first] at consistent
  have taken := consistent.dueFrom_onReport worker
  rw [ticketsFrom_reply_self, ticketsFrom_nil, List.singleton_append, dueFrom] at taken
  obtain ⟨job, jobs, found, ticket, left⟩ := List.map_eq_cons_iff.mp taken
  refine ⟨job, jobs, found, ticket, ?_⟩
  rw [waiting_eq, ← left, List.map_map]
  exact (List.map_congr_left fun job _ => PendingJob.ofTicket_ticket worker job).trans
    (List.map_id' _)

theorem Sound.due_perm_outstanding (h : d.Sound) :
    (due d.router.pending).Perm (d.staff.flatMap d.outstanding) := by
  have mirrors := h.consistent.mirrors
  have all := due_perm_of_workers h.consistent.pending mirrors.distinct fun worker stranger =>
    (mirrors.strangers worker stranger).1
  rw [List.flatMap_map] at all
  exact all.trans (.of_eq (List.flatMap_congr mirrors.mirror))

theorem Sound.mirrored (h : d.Sound) : d.Mirrored := by
  have mirrors := h.consistent.mirrors
  refine ⟨?_, ?_, ?_, ?_, ?_⟩
  · intro t member
    rw [waiting_eq, mirrors.mirror t member, List.map_append, List.map_map]
    congr 1
    exact List.map_congr_left fun job _ => PendingJob.ofTicket_jobTicket t.identity job
  · intro worker stranger
    obtain ⟨nothing, silent⟩ := mirrors.strangers worker stranger
    rw [waiting_eq, nothing]
    exact ⟨rfl, silent⟩
  · intro t member lost ended
    have settled := (mirrors.sound t member).settled
    rw [ended] at settled
    exact settled rfl
  · intro worker client response rest first
    exact h.strikes first
  · rw [← d.router.length_due_pending]
    exact h.due_perm_outstanding.length_eq

/-- No worker owes anything, and no answer waits to be taken. -/
def Drained {α : Type} (d : Daemon α) : Prop :=
  d.router.inFlight = 0 ∧
    ∀ t ∈ d.staff, t.unanswered = [] ∧ ticketsFrom t.identity d.reports = []

omit [Service α] [Accountable α] in
/-- The broker ends early only when nothing is in flight. -/
theorem inFlight_of_check {count deadline : Nat} (ending : d.check.stage = .joining count)
    (due : d.check.deadline = some deadline) (early : d.now < deadline) :
    d.router.inFlight = 0 := by
  have noticed : d.notice.router.inFlight = d.router.inFlight ∧ d.notice.now = d.now := by
    unfold notice
    split
    · exact ⟨rfl, rfl⟩
    · exact ⟨rfl, rfl⟩
  rw [← noticed.1]
  rw [← noticed.2] at early
  unfold check at ending due
  dsimp only at ending due
  cases limit : d.notice.deadline with
  | none =>
    simp only [limit] at ending
    cases ending
  | some time =>
    simp only [limit] at ending due
    by_cases idle : d.notice.router.inFlight = 0
    · exact idle
    · rw [if_neg idle] at ending due
      by_cases late : time ≤ d.notice.now
      · rw [if_pos late] at due
        have same : time = deadline := Option.some.inj due
        omega
      · rw [if_neg late] at ending
        cases ending

theorem Sound.drained (h : d.Sound) (idle : d.router.inFlight = 0) : d.Drained := by
  refine ⟨idle, ?_⟩
  intro t member
  rw [← d.router.length_due_pending, h.due_perm_outstanding.length_eq,
    List.length_eq_zero_iff, List.flatMap_eq_nil_iff] at idle
  obtain ⟨reported, owed⟩ := List.append_eq_nil_iff.mp (idle t member)
  exact ⟨List.map_eq_nil_iff.mp owed, reported⟩

/-- If the broker begins to end before its time to drain is over, every job is answered. -/
theorem Sound.drained_of_ending (h : d.Sound) (checking : d.stage = .checking)
    (moved : d.step? .proceed = some d') {count deadline : Nat} (ending : d'.stage = .joining count)
    (due : d'.deadline = some deadline) (early : d.now < deadline) : d'.Drained := by
  have after := (h.step moved).1
  simp only [step?, proceed?, checking] at moved
  cases moved
  apply after.drained
  rw [Router.inFlight, pending_check]
  exact inFlight_of_check ending due early

end Daemon

/-- In every state of every run the table of pending jobs mirrors what the workers owe, so that an
answer strikes off the job that it answers; a worker's answers come in the order in which it was
handed its jobs; and an end before the time to drain is over leaves no job behind. -/
theorem pending_mirrors_workers {address : String} {limit pollInterval drainTimeout : Nat}
    {recruit : Nat → Except String String} {backend : Rehearsal} {epoch : Int}
    (fresh : (Setup.relay address limit recruit pollInterval drainTimeout).Fresh)
    {trace : List (Daemon Family × Move)} {d : Daemon Family}
    (run : Run (.start (.relay address limit recruit pollInterval drainTimeout) backend epoch)
      trace d) :
    d.Mirrored ∧
    (∀ worker, answersOf worker trace <+: jobsOf worker trace) ∧
    (∀ t ∈ d.staff, jobsOf t.identity trace =
      answersOf t.identity trace ++ dueFrom t.identity d.router.pending) ∧
    (∀ d' count deadline, d.stage = .checking → d.step? .proceed = some d' →
      d'.stage = .joining count → d'.deadline = some deadline → d.now < deadline →
      d'.Drained) := by
  have start := Daemon.sound_start fresh (Family.registry_assigns limit) backend epoch
  obtain ⟨sound, -⟩ := run.sound start
  refine ⟨sound.mirrored, ?_, ?_, ?_⟩
  · intro worker
    obtain ⟨gone, jobs, -⟩ := run.turns start rfl worker
    exact ⟨dueFrom worker d.router.pending ++ gone, jobs.symm⟩
  · intro t member
    obtain ⟨gone, jobs, rfl | ⟨-, absent⟩⟩ := run.turns start rfl t.identity
    · rw [List.append_nil] at jobs
      exact jobs
    · exact absurd (List.mem_map_of_mem member) absent
  · intro d' count deadline checking moved ending due early
    exact sound.drained_of_ending checking moved ending due early

/-- A worker is handed two jobs and has reported the answer to the first. -/
theorem two_jobs_pending :
    ∃ trace d, Run (.start (.forOne "w") .empty 0) trace d ∧
      waiting "w" d.router.pending = [⟨1, "first"⟩, ⟨1, "second"⟩] ∧
      d.reports.length = 1 ∧ d.Mirrored := by
  have moved : ((Daemon.start (.forOne "w") .empty 0).run?
      [.connect "127.0.0.1:1",
        .read 1 (.ofRequest { Request.new "peek" .empty with requestId := "first" }),
        .takeArrival, .proceed, .proceed,
        .read 1 (.ofRequest { Request.new "peek" .empty with
          requestId := "second", worker := some "w" }),
        .takeArrival, .work "w", .work "w", .work "w"]).map
      (fun d => (waiting "w" d.router.pending, d.reports.length)) =
      some ([⟨1, "first"⟩, ⟨1, "second"⟩], 1) := by
    decide +kernel
  obtain ⟨trace, d, run, same⟩ := Run.exists_of_run? moved
  obtain ⟨jobs, reported⟩ := Prod.mk.inj same
  exact ⟨trace, d, run, jobs, reported, (pending_mirrors_workers (Setup.fresh_forOne "w") run).1⟩

end SessionRelay.Broker
