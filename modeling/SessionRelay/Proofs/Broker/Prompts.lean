import SessionRelay.Proofs.Broker.Origins

/-!
What brings about an answer. In every run each answer for a client was prompted by something that
the broker took of that client: a request that the answer names, or something that it could not
read, and then the answer is the refusal of just that.
-/

namespace SessionRelay.Broker

open Backend Wire Worker Integration

variable {α : Type}

/-- Something among what was heard prompts an answer. -/
def Prompted (heard : List Arrival) (client : Nat) (answer : Response) : Prop :=
  ∃ a ∈ heard, a.Prompts client answer

theorem Prompted.mono {heard more : List Arrival} (all : heard ⊆ more) {client : Nat}
    {answer : Response} (h : Prompted heard client answer) : Prompted more client answer := by
  obtain ⟨a, inside, prompts⟩ := h
  exact ⟨a, all inside, prompts⟩

/-- A job that is handed over is that of the request that was heard. -/
theorem Router.prompts_of_handsOver? {r : Router α} {a : Arrival} {worker : String} {job : Job}
    (given : r.handsOver? a = some (worker, job)) {answer : Response}
    (named : answer.requestId = reference job.request.requestId) :
    a.Prompts job.client answer := by
  have same {r : Router α} {identity : String} {handed : Job}
      (given : r.handed? identity handed = some (worker, job)) : job = handed := by
    obtain ⟨-, -, both⟩ := Option.map_eq_some_iff.mp given
    exact (Prod.mk.inj both).2.symm
  unfold handsOver? at given
  split at given
  · next client payload =>
    split at given
    · next request decoded =>
      split at given
      · cases same given
        exact .request decoded named
      · cases same given
        exact .request decoded named
      · cases given
    · cases given
  · cases given

/-- Whatever names the request of a ticket was prompted. -/
def Owes (heard : List Arrival) (ticket : Ticket) : Prop :=
  ∀ answer : Response, answer.requestId = ticket.requestId → Prompted heard ticket.client answer

namespace Daemon

/-- All that is due or was answered was prompted by something that was heard. -/
structure Prompted (heard : List Arrival) (d : Daemon α) : Prop where
  due : ∀ worker, ∀ ticket ∈ dueFrom worker d.router.pending, Owes heard ticket
  said : ∀ client answer, .answered client answer ∈ d.router.journal →
    Broker.Prompted heard client answer

theorem prompted_start (setup : Setup α) (backend : Rehearsal) (epoch : Int) :
    (start setup backend epoch).Prompted [] where
  due worker ticket member := by cases member
  said client answer member := by
    cases member with
    | tail _ member => cases member

variable {heard : List Arrival} {d d' : Daemon α} {m : Move}

/-- What is due or becomes due in a move was prompted. -/
theorem Prompted.owes (h : d.Prompted heard) (m : Move) (worker : String) {ticket : Ticket}
    (member : ticket ∈ dueFrom worker d.router.pending ++
      ticketsTo worker (d.handsOver? m).toList) :
    Owes ((d.taken? m).toList ++ heard) ticket := by
  -- only a request is handed over, so what becomes due is due to the arrival of this move
  rcases List.mem_append.mp member with old | new
  · exact fun answer named =>
      (h.due worker ticket old answer named).mono (List.subset_append_right _ _)
  · obtain ⟨⟨identity, job⟩, given, same⟩ := List.mem_filterMap.mp new
    simp only [Option.ite_none_right_eq_some, Option.some.injEq] at same
    obtain ⟨rfl, rfl⟩ := same
    obtain ⟨a, taken, handed⟩ := Option.bind_eq_some_iff.mp (Option.mem_toList.mp given)
    intro answer named
    refine ⟨a, List.mem_append_left _ (Option.mem_toList.mpr taken), ?_⟩
    exact Router.prompts_of_handsOver? handed named

theorem Prompted.answersFor (h : d.Prompted heard) (m : Move) (worker : String) :
    Router.AnswersFor (Broker.Prompted ((d.taken? m).toList ++ heard)) worker
      (waiting worker d.router.pending) := by
  intro job member answer _ _ named
  have due : job.ticket worker ∈ dueFrom worker d.router.pending := List.mem_map_of_mem member
  exact h.owes m worker (List.mem_append_left _ due) answer named

variable [Service α] [Accountable α]

/-- Every move keeps all that is due or answered prompted by what was taken until then. -/
theorem Prompted.step (h : d.Prompted heard) (sound : d.Sound) (moved : d.step? m = some d') :
    d'.Prompted ((d.taken? m).toList ++ heard) := by
  constructor
  case due =>
    intro worker ticket member
    obtain ⟨gone, flow, -⟩ := sound.flows moved worker
    apply h.owes m worker
    rw [flow]
    exact List.mem_append_right _ (List.mem_append_left _ member)
  case said =>
    have said : d.router.Says (Broker.Prompted ((d.taken? m).toList ++ heard)) d'.router := by
      refine says_of_step? sound.consistent.framed moved ?_ ?_ ?_ ?_
      · intro arrival taken _ client answer _ prompts
        exact ⟨arrival, List.mem_append_left _ (Option.mem_toList.mpr taken), prompts⟩
      · intro worker client response heeded
        obtain ⟨gone, flow, -⟩ := sound.flows moved worker
        rw [heeded, Option.toList_some, ticketsFrom_reply_self, ticketsFrom_nil] at flow
        have owes : Owes ((d.taken? m).toList ++ heard) (ticketOf client response) := by
          apply h.owes m worker
          rw [flow]
          exact List.mem_cons_self
        exact owes response rfl
      · exact fun _ _ _ t _ => h.answersFor m t.identity
      · exact fun _ _ _ _ worker => h.answersFor m worker
    obtain ⟨added, journal, -, new⟩ := said.said
    intro client answer member
    rw [journal] at member
    rcases List.mem_append.mp member with later | earlier
    · exact new client answer later
    · exact (h.said client answer earlier).mono (List.subset_append_right _ _)

end Daemon

theorem arrivalsTaken_cons (d : Daemon α) (m : Move) (trace : List (Daemon α × Move)) :
    arrivalsTaken ((d, m) :: trace) = (d.taken? m).toList ++ arrivalsTaken trace := by
  rw [arrivalsTaken, List.filterMap_cons]
  dsimp only
  cases d.taken? m with
  | none => rfl
  | some a => rfl

theorem Run.prompted [Service α] [Accountable α] {first d : Daemon α}
    {trace : List (Daemon α × Move)} (run : Run first trace d) (sound : first.Sound)
    (h : first.Prompted []) : d.Prompted (arrivalsTaken trace) := by
  induction run with
  | start => exact h
  | step run moved ih =>
    rw [arrivalsTaken_cons]
    exact ih.step (run.sound sound).1 moved

end SessionRelay.Broker
