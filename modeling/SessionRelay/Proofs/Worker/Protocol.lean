import SessionRelay.Proofs.Worker.Course

/-!
What a worker does over its whole course. It handles its jobs in turn and reports one answer to
each. The first job for which the backend found the connection broken is the last one that it
handles: it reports that it has stopped, and refuses all further jobs without touching its
integration. When its inbox is closed and empty it closes the integration, once, and ends.
-/

namespace SessionRelay.Worker

open Backend Integration Wire

/-- A job that was handled: whether it entered the integration, the calls that were made for it,
whether the worker could go on after it, and the answer. -/
structure Turn where
  job : Job
  engaged : Bool
  heard : List Exchange
  usable : Bool
  response : Response

namespace Turn

/-- What a worker does for a job before it answers. -/
def opening (job : Job) (engaged : Bool) (heard : List Exchange) : List Happening :=
  .took job :: ((if engaged then [.engaged] else []) ++ heard.map .heard)

def reply (identity : String) (turn : Turn) : Event :=
  .reply identity turn.job.client turn.response

def happenings (identity : String) (turn : Turn) : List Happening :=
  opening turn.job turn.engaged turn.heard ++ [.judged turn.usable, .reported (turn.reply identity)]

/-- The answer is the worker's and for the job, the worker may go on unless a call for the job found
the connection broken, and no call is made but by the integration. -/
structure Valid (identity : String) (turn : Turn) : Prop where
  answer : IsAnswer identity turn.job.request turn.response
  usable : turn.usable = !turn.heard.any Exchange.isBroken
  heard : turn.engaged = false → turn.heard = []

end Turn

/-- The turn after which a worker stopped, and the jobs that it has refused since. -/
structure Stop where
  turn : Turn
  refused : List Job

/-- What a worker does with a job that it refuses. -/
def refusal (identity : String) (job : Job) : List Happening :=
  [.took job, .reported (Thread.stoppedReply identity job)]

def Stop.happenings (identity : String) (stop : Stop) : List Happening :=
  stop.turn.happenings identity ++ .reported (.stopped identity) ::
    stop.refused.flatMap (refusal identity)

/-- The finished jobs of a worker: those after which it went on, and the one after which it stopped,
if there was one. -/
structure Record where
  turns : List Turn
  stop : Option Stop

namespace Record

/-- The jobs that were answered. -/
def jobs (record : Record) : List Job :=
  record.turns.map Turn.job ++
    match record.stop with
    | none => []
    | some stop => stop.turn.job :: stop.refused

def happenings (identity : String) (record : Record) : List Happening :=
  record.turns.flatMap (Turn.happenings identity) ++
    match record.stop with
    | none => []
    | some stop => stop.happenings identity

/-- The events that were sent: one answer for each job, and after that of the last job that was
handled, if it made the worker stop, the report of that. -/
def events (identity : String) (record : Record) : List Event :=
  record.turns.map (Turn.reply identity) ++
    match record.stop with
    | none => []
    | some stop =>
      stop.turn.reply identity :: .stopped identity ::
        stop.refused.map (Thread.stoppedReply identity)

/-- Was there a request that entered the integration? -/
def engaged (record : Record) : Bool :=
  record.turns.any Turn.engaged ||
    match record.stop with
    | none => false
    | some stop => stop.turn.engaged

structure Valid (identity : String) (record : Record) : Prop where
  turns : ∀ turn ∈ record.turns, turn.Valid identity ∧ turn.usable = true
  stop : ∀ stop, record.stop = some stop → stop.turn.Valid identity ∧ stop.turn.usable = false

end Record

/-- What a worker does once it leaves: it closes the integration that it has. -/
def departure (engaged : Bool) (heard : List Exchange) : List Happening :=
  (if engaged then [.released] else []) ++ heard.map .heard

/-- Before the worker left, its inbox was closed and all jobs were answered. Since then it has done
nothing but close its integration. -/
structure Departed (record : Record) (history underway : List Happening) : Prop where
  left : ∃ before heard, history = before ++ underway ∧ .shut ∈ before ∧
    handed before = record.jobs ∧ underway = departure record.engaged heard ∧
    (record.engaged = false → heard = [])

/-- What a worker has begun and not finished, by its phase. -/
def Phase.Shows {α : Type} (record : Record) (history underway : List Happening) : Phase α → Prop
  | .starting _ => record.stop = none ∧ underway = []
  | .ready _ => record.stop = none ∧ underway = []
  | .busy job _ => record.stop = none ∧ ∃ engaged heard,
    underway = Turn.opening job engaged heard ∧ (engaged = false → heard = [])
  | .paused job _ => record.stop = none ∧ ∃ engaged heard,
    underway = Turn.opening job engaged heard ∧ (engaged = false → heard = [])
  | .stopped _ => record.stop.isSome ∧ underway = []
  | .closing _ => Departed record history underway
  | .ended clean _ => clean = true ∧ Departed record history underway

namespace Turn

/-- One more exchange for the job under way. -/
theorem opening_heard (job : Job) (engaged : Bool) (heard : List Exchange) (x : Exchange) :
    opening job engaged heard ++ [.heard x] = opening job engaged (heard ++ [x]) := by
  simp [opening]

end Turn

namespace Record

variable {identity : String} {record : Record}

/-- The record with one more job after which the worker went on. -/
def add (record : Record) (turn : Turn) : Record :=
  { record with turns := record.turns ++ [turn] }

/-- The record with the job after which the worker stopped. -/
def halt (record : Record) (turn : Turn) : Record := { record with stop := some ⟨turn, []⟩ }

theorem add_happenings (running : record.stop = none) (turn : Turn) :
    (record.add turn).happenings identity =
      record.happenings identity ++ turn.happenings identity := by
  simp [happenings, add, running]

theorem add_jobs (running : record.stop = none) (turn : Turn) :
    (record.add turn).jobs = record.jobs ++ [turn.job] := by
  simp [jobs, add, running]

theorem add_engaged (running : record.stop = none) (turn : Turn) :
    (record.add turn).engaged = (record.engaged || turn.engaged) := by
  simp [engaged, add, running]

theorem Valid.add (h : record.Valid identity) (running : record.stop = none) {turn : Turn}
    (valid : turn.Valid identity) (usable : turn.usable = true) :
    (record.add turn).Valid identity := by
  constructor
  · intro other member
    rcases List.mem_append.mp member with old | new
    · exact h.turns other old
    · rw [List.mem_singleton.mp new]
      exact ⟨valid, usable⟩
  · intro stop stopped
    rw [Record.add, running] at stopped
    cases stopped

theorem halt_happenings (running : record.stop = none) (turn : Turn) :
    (record.halt turn).happenings identity =
      record.happenings identity ++
        (turn.happenings identity ++ [.reported (.stopped identity)]) := by
  simp [happenings, halt, running, Stop.happenings]

theorem halt_jobs (running : record.stop = none) (turn : Turn) :
    (record.halt turn).jobs = record.jobs ++ [turn.job] := by
  simp [jobs, halt, running]

theorem halt_engaged (running : record.stop = none) (turn : Turn) :
    (record.halt turn).engaged = (record.engaged || turn.engaged) := by
  simp [engaged, halt, running]

theorem Valid.halt (h : record.Valid identity) {turn : Turn} (valid : turn.Valid identity)
    (unusable : turn.usable = false) : (record.halt turn).Valid identity := by
  refine ⟨h.turns, ?_⟩
  intro stop stopped
  cases stopped
  exact ⟨valid, unusable⟩

/-- One more job that a stopped worker refused. -/
theorem Valid.refuse (h : record.Valid identity) {stop : Stop} (stopped : record.stop = some stop)
    (job : Job) :
    ∃ next : Record, next.Valid identity ∧ next.stop.isSome = true ∧
      next.engaged = record.engaged ∧ next.jobs = record.jobs ++ [job] ∧
      next.happenings identity = record.happenings identity ++ refusal identity job := by
  refine ⟨{ record with stop := some { stop with refused := stop.refused ++ [job] } }, ?_⟩
  refine ⟨⟨h.turns, ?_⟩, rfl, ?_, ?_, ?_⟩
  · intro other found
    cases found
    exact h.stop stop stopped
  · simp [engaged, stopped]
  · simp [jobs, stopped]
  · simp [happenings, stopped, Stop.happenings]

end Record

variable {α : Type} [Service α] [Accountable α]

/-- A worker between two jobs: whether it may go on, and whether it has an integration. -/
structure Holds (identity : String) (usable engaged : Bool) (w : Worker α) : Prop where
  sound : w.Sound identity
  makes : w.registry.Makes fun _ s => Service.isUsable s = true
  usable : w.isUsable = usable
  engaged : w.integration.isSome = engaged

theorem holds_new (identity : String) {registry : Registry α} (assigns : registry.Assigns)
    (makes : registry.Makes fun _ s => Service.isUsable s = true) :
    (new identity registry).Holds identity true false :=
  ⟨sound_new identity assigns, makes, rfl, rfl⟩

theorem Holds.usable_of_accept {identity : String} {engaged : Bool} {w : Worker α}
    (h : w.Holds identity true engaged) {request : Request} {s : α}
    {entries : List Logging.Entry} (accepted : w.accept request = .ok (s, entries)) :
    Service.isUsable s = true := by
  rcases source_of_accept accepted with kept | ⟨-, scheme, made⟩
  · have usable := h.usable
    rw [isUsable, kept] at usable
    exact usable
  · exact h.makes _ _ _ made

/-- How a job ends, after all exchanges that were made for it. -/
structure Concludes (identity : String) (job : Job) (before engaged : Bool)
    (heard : List Exchange) (result : Response × Worker α) : Prop where
  answer : IsAnswer identity job.request result.1
  silent : engaged = false → heard = []
  holds : result.2.Holds identity (!heard.any Exchange.isBroken) (before || engaged)

theorem Holds.handle_endsAfter [Fragile α] {identity : String} {before : Bool} {w : Worker α}
    (h : w.Holds identity true before) (moment : Moment) (job : Job) :
    (w.handle moment job.request).2.EndsAfter
      (Concludes identity job before (w.accept job.request).isOk) := by
  unfold handle
  split
  · next message refused =>
    have outside : (w.accept job.request).isOk = false := by
      rw [refused]
      rfl
    rw [outside]
    refine ⟨isAnswer_finished h.sound.identity_eq rfl moment job.request, fun _ => rfl, ?_⟩
    exact ⟨h.sound, h.makes, h.usable, by rw [h.engaged, Bool.or_false]⟩
  · next s entries accepted =>
    have inside : (w.accept job.request).isOk = true := by
      rw [accepted]
      rfl
    have owner := h.sound.owner_of_accept accepted
    have broken := Fragile.handle_endsAfter moment job.request s (h.usable_of_accept accepted)
    rw [inside, Dialog.endsAfter_map]
    refine Dialog.EndsAfter.imp ?_ ((Accountable.handle_ends moment job.request s).after broken)
    intro heard result ⟨answered, usable⟩
    have sound : ({ w with integration := some result.2 } : Worker α).Sound identity := by
      refine ⟨h.sound.identity_eq, h.sound.assigns, ?_⟩
      intro s' held
      cases held
      exact answered.2.trans owner
    refine ⟨owner ▸ answered.1, nofun, ⟨sound, h.makes, usable, ?_⟩⟩
    rw [Bool.or_true]
    rfl

/-- What is under way fits the record, and can only end as jobs end. -/
def Phase.Stands (identity : String) (record : Record) (history underway : List Happening) :
    Phase α → Prop
  | .starting w => record.stop = none ∧ underway = [] ∧ w.Holds identity true record.engaged
  | .ready w => record.stop = none ∧ underway = [] ∧ w.Holds identity true record.engaged
  | .busy job dialog => record.stop = none ∧ ∃ engaged heard,
    underway = Turn.opening job engaged heard ∧
    dialog.EndsAfter fun later =>
      Concludes identity job record.engaged engaged (heard ++ later)
  | .paused job pause => record.stop = none ∧ ∃ engaged heard,
    underway = Turn.opening job engaged heard ∧
    ∀ answer, (pause.next answer).EndsAfter fun later =>
      Concludes identity job record.engaged engaged (heard ++ ⟨pause.call, answer⟩ :: later)
  | .stopped w => record.stop.isSome ∧ underway = [] ∧ w.Holds identity false record.engaged
  | .closing dialog => Departed record history underway ∧
    (record.engaged = false → ∃ w, dialog = .done w)
  | .ended clean _ => clean = true ∧ Departed record history underway

namespace Thread

/-- How a worker stands after a history: its record, and what it has begun and not finished. -/
structure Stands (identity : String) (record : Record) (history underway : List Happening)
    (t : Thread α) : Prop where
  identity_eq : t.identity = identity
  valid : record.Valid identity
  own_eq : own history = record.happenings identity ++ underway
  handed_eq : handed history = record.jobs ++ t.unanswered
  shut : t.inboxOpen = false ↔ .shut ∈ history
  settled : t.phase.Settled t.inbox t.inboxOpen
  phase : t.phase.Stands identity record history underway

theorem stands_spawn (identity : String) {registry : Registry α} (assigns : registry.Assigns)
    (makes : registry.Makes fun _ s => Service.isUsable s = true) :
    (spawn (Worker.new identity registry)).Stands identity ⟨[], none⟩ [] [] := by
  have valid : (⟨[], none⟩ : Record).Valid identity := by
    constructor
    · intro turn member
      cases member
    · intro stop stopped
      cases stopped
  have holds := holds_new identity assigns makes
  refine ⟨rfl, valid, rfl, rfl, ?_, trivial, rfl, rfl, holds⟩
  simp [spawn]

omit [Accountable α] in
/-- A move leaves the name and the inbox's being open as they are, and all that it does is the
worker's own. -/
theorem Move.keeps {t t' : Thread α} {more : List Happening} (move : t.Move more t') :
    t'.identity = t.identity ∧ t'.inboxOpen = t.inboxOpen ∧ ∀ x ∈ more, x.isOwn = true := by
  have entered (w : Worker α) (request : Request) :
      ∀ x ∈ entering w request, x.isOwn = true := by
    unfold entering
    split <;> simp [Happening.isOwn]
  have released (w : Worker α) : ∀ x ∈ releasing w, x.isOwn = true := by
    unfold releasing
    split <;> simp [Happening.isOwn]
  cases move with
  | take w job inbox moment hp waiting =>
    refine ⟨rfl, rfl, ?_⟩
    intro x member
    rcases List.mem_cons.mp member with rfl | later
    · rfl
    · exact entered w job.request x later
  | leave w => exact ⟨rfl, rfl, released w⟩
  | leaveStopped w => exact ⟨rfl, rfl, released w⟩
  | _ => exact ⟨rfl, rfl, by simp [Happening.isOwn]⟩

/-- How a worker stands after a move, if the record and what is under way account for it. -/
theorem Stands.advance {identity : String} {record record' : Record}
    {history underway more underway' : List Happening} {t t' : Thread α}
    (h : t.Stands identity record history underway) (move : t.Move more t')
    (valid : record'.Valid identity)
    (done : record.happenings identity ++ (underway ++ more) =
      record'.happenings identity ++ underway')
    (jobs : record.jobs ++ t.unanswered = record'.jobs ++ t'.unanswered)
    (settled : t'.phase.Settled t'.inbox t'.inboxOpen)
    (phase : t'.phase.Stands identity record' (history ++ more) underway') :
    t'.Stands identity record' (history ++ more) underway' := by
  obtain ⟨name, inboxOpen, inside⟩ := move.keeps
  have all : own more = more := List.filter_eq_self.mpr inside
  have none : handed more = [] := by
    apply List.filterMap_eq_nil_iff.mpr
    intro x member
    have fact := inside x member
    cases x with
    | handed job => cases fact
    | _ => rfl
  have outside : Happening.shut ∉ more := by
    intro member
    have fact := inside _ member
    cases fact
  refine ⟨name.trans h.identity_eq, valid, ?_, ?_, ?_, settled, phase⟩
  · rw [own_append, all, h.own_eq, List.append_assoc, done]
  · rw [handed_append, none, List.append_nil, h.handed_eq, jobs]
  · rw [inboxOpen, h.shut, List.mem_append]
    exact ⟨Or.inl, fun either => either.resolve_right outside⟩

/-- A worker leaves with its inbox closed and all jobs answered. -/
theorem Stands.depart {identity : String} {record : Record} {history : List Happening}
    {t : Thread α} (h : t.Stands identity record history []) {w : Worker α} {usable : Bool}
    (holds : w.Holds identity usable record.engaged) (idle : t.unanswered = [])
    (closed : t.inboxOpen = false) :
    (leave w).Stands identity record (history ++ releasing w) (releasing w) := by
  refine ⟨⟨history, [], rfl, h.shut.mp closed, ?_, ?_, fun _ => rfl⟩, ?_⟩
  · rw [h.handed_eq, idle, List.append_nil]
  · rw [releasing, holds.engaged, departure, List.map_nil, List.append_nil]
  · intro unengaged
    have bare : w.integration = none := by
      simpa [unengaged] using holds.engaged
    refine ⟨w, ?_⟩
    rw [close, bare]

/-- The record of a worker is kept up with every move. -/
theorem Stands.move [Fragile α] {identity : String} {record : Record}
    {history underway more : List Happening} {t t' : Thread α}
    (h : t.Stands identity record history underway) (move : t.Move more t') :
    ∃ record' underway', t'.Stands identity record' (history ++ more) underway' := by
  have phase := h.phase
  have settled := h.settled
  have name := h.identity_eq
  cases move with
  | start w hp =>
    rw [hp] at phase
    refine ⟨record, underway, h.advance (.start w hp) h.valid (by simp) ?_ trivial phase⟩
    simp only [unanswered, hp]
  | take w job inbox moment hp waiting =>
    rw [hp] at phase
    obtain ⟨running, rfl, holds⟩ := phase
    refine ⟨record, _, h.advance (.take w job inbox moment hp waiting) h.valid rfl ?_ trivial ?_⟩
    · simp only [unanswered, hp, waiting]
    · refine ⟨running, (w.accept job.request).isOk, [], ?_, holds.handle_endsAfter moment job⟩
      simp [Turn.opening, entering]
  | wait job c next deadline hp =>
    rw [hp] at phase
    refine ⟨record, underway,
      h.advance (.wait job c next deadline hp) h.valid (by simp) ?_ trivial ?_⟩
    · simp only [unanswered, hp]
    · exact phase
  | hear job c next answer hp =>
    rw [hp] at phase
    obtain ⟨running, engaged, heard, rfl, ends⟩ := phase
    refine ⟨record, _, h.advance (.hear job c next answer hp) h.valid rfl ?_ trivial ?_⟩
    · simp only [unanswered, hp]
    · refine ⟨running, engaged, heard ++ [⟨c, answer⟩], Turn.opening_heard .., ?_⟩
      simpa using ends answer
  | resume job pause answer hp =>
    rw [hp] at phase
    obtain ⟨running, engaged, heard, rfl, ends⟩ := phase
    refine ⟨record, _, h.advance (.resume job pause answer hp) h.valid rfl ?_ trivial ?_⟩
    · simp only [unanswered, hp]
    · refine ⟨running, engaged, heard ++ [⟨pause.call, answer⟩], Turn.opening_heard .., ?_⟩
      simpa using ends answer
  | goOn job response w hp usable =>
    rw [hp] at phase
    obtain ⟨running, engaged, heard, rfl, answer, silent, holds⟩ := phase
    rw [List.append_nil] at silent holds
    have unbroken : true = !heard.any Exchange.isBroken := usable.symm.trans holds.usable
    let turn : Turn := ⟨job, engaged, heard, true, response⟩
    refine ⟨record.add turn, [], h.advance (.goOn job response w hp usable)
      (h.valid.add running ⟨answer, unbroken, silent⟩ rfl) ?_ ?_ trivial ?_⟩
    · rw [Record.add_happenings running, name, List.append_nil]
      rfl
    · rw [Record.add_jobs running]
      simp [unanswered, hp, turn]
    · refine ⟨running, rfl, holds.sound, holds.makes, usable, ?_⟩
      rw [holds.engaged, Record.add_engaged running]
  | stop job response w hp unusable =>
    rw [hp] at phase
    obtain ⟨running, engaged, heard, rfl, answer, silent, holds⟩ := phase
    rw [List.append_nil] at silent holds
    have broken : false = !heard.any Exchange.isBroken := unusable.symm.trans holds.usable
    let turn : Turn := ⟨job, engaged, heard, false, response⟩
    refine ⟨record.halt turn, [], h.advance (.stop job response w hp unusable)
      (h.valid.halt ⟨answer, broken, silent⟩ rfl) ?_ ?_ trivial ?_⟩
    · rw [Record.halt_happenings running, name]
      simp [turn, Turn.happenings, Turn.reply]
    · rw [Record.halt_jobs running]
      simp [unanswered, hp, turn]
    · refine ⟨rfl, rfl, holds.sound, holds.makes, unusable, ?_⟩
      rw [holds.engaged, Record.halt_engaged running]
  | refuse w job inbox hp waiting =>
    rw [hp] at phase
    obtain ⟨halted, rfl, holds⟩ := phase
    obtain ⟨stop, stopped⟩ := Option.isSome_iff_exists.mp halted
    obtain ⟨next, valid, still, engaged, jobs, happenings⟩ := h.valid.refuse stopped job
    refine ⟨next, [], h.advance (.refuse w job inbox hp waiting) valid ?_ ?_ ?_ ?_⟩
    · rw [happenings, name, List.append_nil]
      rfl
    · rw [jobs]
      simp [unanswered, hp, waiting]
    · rw [hp]
      trivial
    · rw [hp]
      exact ⟨still, rfl, engaged ▸ holds⟩
  | leave w hp empty closed =>
    rw [hp] at phase
    obtain ⟨running, rfl, holds⟩ := phase
    have idle : t.unanswered = [] := by
      simp only [unanswered, hp, empty]
    refine ⟨record, _, h.advance (.leave w hp empty closed) h.valid rfl ?_ ⟨empty, closed⟩
      (h.depart holds idle closed)⟩
    rw [idle]
    exact congrArg _ empty.symm
  | leaveStopped w hp empty closed =>
    rw [hp] at phase
    obtain ⟨halted, rfl, holds⟩ := phase
    have idle : t.unanswered = [] := by
      simp only [unanswered, hp, empty]
    refine ⟨record, _, h.advance (.leaveStopped w hp empty closed) h.valid rfl ?_ ⟨empty, closed⟩
      (h.depart holds idle closed)⟩
    rw [idle]
    exact congrArg _ empty.symm
  | hearClosing c next answer hp =>
    rw [hp] at phase settled
    obtain ⟨⟨before, heard, rfl, shut, all, rfl, bare⟩, done⟩ := phase
    have engaged : record.engaged = true := by
      cases known : record.engaged with
      | true => rfl
      | false =>
        obtain ⟨w, ended⟩ := done known
        cases ended
    refine ⟨record, _, h.advance (.hearClosing c next answer hp) h.valid rfl ?_ settled ?_⟩
    · simp only [unanswered, hp]
    · refine ⟨⟨before, heard ++ [⟨c, answer⟩], List.append_assoc .., shut, all, ?_, ?_⟩, ?_⟩
      · simp [departure]
      · simp [engaged]
      · simp [engaged]
  | finish w hp =>
    rw [hp] at phase settled
    refine ⟨record, underway, h.advance (.finish w hp) h.valid (by simp) rfl ?_ ?_⟩
    · intro _
      rw [unanswered, hp]
      exact settled.1
    · rw [List.append_nil]
      exact ⟨rfl, phase.1⟩

/-- While the inbox is open, nothing from outside changes what the worker is about. -/
theorem Stands.outside {identity : String} {record : Record} {history underway : List Happening}
    {t : Thread α} (h : t.Stands identity record history underway) (inboxOpen : t.inboxOpen = true)
    (more : List Happening) : t.phase.Stands identity record (history ++ more) underway := by
  have phase := h.phase
  have staying : ¬ Departed record history underway := by
    rintro ⟨before, heard, rfl, closed, -⟩
    have shut := h.shut.mpr (List.mem_append_left _ closed)
    rw [inboxOpen] at shut
    cases shut
  cases hp : t.phase with
  | closing dialog =>
    rw [hp] at phase
    exact absurd phase.1 staying
  | ended clean lost =>
    rw [hp] at phase
    exact absurd phase.2 staying
  | _ =>
    rw [hp] at phase
    exact phase

theorem Stands.dispatch {identity : String} {record : Record} {history underway : List Happening}
    {t t' : Thread α} (h : t.Stands identity record history underway) {job : Job}
    (taken : t.dispatch? job = some t') :
    t'.Stands identity record (history ++ [.handed job]) underway := by
  obtain ⟨rfl, inboxOpen, left, settled⟩ := of_dispatch? h.settled taken
  refine ⟨h.identity_eq, h.valid, ?_, ?_, ?_, settled, h.outside inboxOpen _⟩
  · rw [own_append, h.own_eq]
    exact List.append_nil _
  · rw [handed_append, h.handed_eq, left, List.append_assoc]
    rfl
  · rw [h.shut]
    simp

theorem Stands.retire {identity : String} {record : Record} {history underway : List Happening}
    {t : Thread α} (h : t.Stands identity record history underway)
    (inboxOpen : t.inboxOpen = true) :
    t.retire.Stands identity record (history ++ [.shut]) underway := by
  refine ⟨h.identity_eq, h.valid, ?_, ?_, ?_, h.settled.shut, h.outside inboxOpen _⟩
  · rw [own_append, h.own_eq]
    exact List.append_nil _
  · rw [handed_append, h.handed_eq]
    exact List.append_nil _
  · simp [Thread.retire]

/-- At every moment of its course a worker stands by a record of what it has finished. -/
theorem Course.stands [Fragile α] {identity : String} {registry : Registry α}
    (assigns : registry.Assigns)
    (makes : registry.Makes fun _ s => Service.isUsable s = true) {history : List Happening}
    {t : Thread α} (course : Course (spawn (Worker.new identity registry)) history t) :
    ∃ record underway, t.Stands identity record history underway := by
  induction course with
  | start => exact ⟨_, _, stands_spawn identity assigns makes⟩
  | handed _ taken ih =>
    obtain ⟨record, underway, stands⟩ := ih
    exact ⟨record, underway, stands.dispatch taken⟩
  | shut _ inboxOpen ih =>
    obtain ⟨record, underway, stands⟩ := ih
    exact ⟨record, underway, stands.retire inboxOpen⟩
  | moved _ move ih =>
    obtain ⟨record, underway, stands⟩ := ih
    exact stands.move move

/-- A job that did not enter the integration made no call so far. -/
theorem heard_eq_nil {identity : String} {record : Record} {job : Job} {engaged : Bool}
    {heard : List Exchange} (more : List Exchange) {dialog : Dialog (Response × Worker α)}
    (ends : dialog.EndsAfter fun later =>
      Concludes identity job record.engaged engaged (heard ++ (more ++ later)))
    (outside : engaged = false) : heard = [] := by
  obtain ⟨later, result, concluded⟩ := ends.exists
  exact (List.append_eq_nil_iff.mp (concluded.silent outside)).1

theorem Stands.shows {identity : String} {record : Record} {history underway : List Happening}
    {t : Thread α} (h : t.Stands identity record history underway) :
    t.phase.Shows record history underway := by
  have phase := h.phase
  cases hp : t.phase with
  | starting w =>
    rw [hp] at phase
    exact ⟨phase.1, phase.2.1⟩
  | ready w =>
    rw [hp] at phase
    exact ⟨phase.1, phase.2.1⟩
  | busy job dialog =>
    rw [hp] at phase
    obtain ⟨running, engaged, heard, begun, ends⟩ := phase
    exact ⟨running, engaged, heard, begun, heard_eq_nil [] ends⟩
  | paused job pause =>
    rw [hp] at phase
    obtain ⟨running, engaged, heard, begun, ends⟩ := phase
    exact ⟨running, engaged, heard, begun, heard_eq_nil [_] (ends (.error .closed))⟩
  | stopped w =>
    rw [hp] at phase
    exact ⟨phase.1, phase.2.1⟩
  | closing dialog =>
    rw [hp] at phase
    exact phase.1
  | ended clean lost =>
    rw [hp] at phase
    exact phase

/-- A worker that has nothing to do has answered all jobs. -/
theorem Stands.rests {identity : String} {record : Record} {history underway : List Happening}
    {t : Thread α} (h : t.Stands identity record history underway)
    (still : ∀ s : Surroundings, s.listened = true → t.step? s = none) :
    t.unanswered = [] ∧ (.shut ∈ history → t.isFinished = true) := by
  rcases finished_or_idle still with finished | ⟨idle, inboxOpen⟩
  · refine ⟨?_, fun _ => finished⟩
    have phase := h.phase
    have settled := h.settled
    cases hp : t.phase with
    | ended clean lost =>
      rw [hp] at phase settled
      rw [unanswered, hp]
      exact settled phase.1
    | _ =>
      rw [isFinished, hp] at finished
      cases finished
  · refine ⟨idle, fun closed => ?_⟩
    have shut := h.shut.mpr closed
    rw [inboxOpen] at shut
    cases shut

end Thread

end SessionRelay.Worker
