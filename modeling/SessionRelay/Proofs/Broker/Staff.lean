import SessionRelay.Proofs.Broker.LifeCycle
import SessionRelay.Proofs.Broker.Turns

/-!
Where the workers of the broker come from. After a move each of them is as it was before, but for
its inbox being closed; or the move was its own step, its crash, or a job that it was handed; or it
was hired for the job.
-/

namespace SessionRelay.Broker

open Backend Wire Worker Integration

variable {α : Type}

/-- A worker is as it was, but its inbox may have been closed. -/
structure Alike (t t' : Thread α) : Prop where
  identity : t'.identity = t.identity
  phase : t'.phase = t.phase
  inbox : t'.inbox = t.inbox

theorem Alike.refl (t : Thread α) : Alike t t := ⟨rfl, rfl, rfl⟩

theorem Alike.trans {t t' t'' : Thread α} (h : Alike t t') (h' : Alike t' t'') : Alike t t'' :=
  ⟨h'.identity.trans h.identity, h'.phase.trans h.phase, h'.inbox.trans h.inbox⟩

/-- Everybody in the second list is in the first. -/
def Retains (staff staff' : List (Thread α)) : Prop := ∀ t' ∈ staff', ∃ t ∈ staff, Alike t t'

theorem Retains.trans {staff staff' staff'' : List (Thread α)} (h : Retains staff staff')
    (h' : Retains staff' staff'') : Retains staff staff'' := by
  intro t'' member
  obtain ⟨t', inside, later⟩ := h' t'' member
  obtain ⟨t, first, earlier⟩ := h t' inside
  exact ⟨t, first, earlier.trans later⟩

theorem retains_of_subset {staff staff' : List (Thread α)} (h : staff' ⊆ staff) :
    Retains staff staff' :=
  fun t' member => ⟨t', h member, .refl t'⟩

theorem retains_of_eq {staff staff' : List (Thread α)} (h : staff' = staff) :
    Retains staff staff' := by
  subst h
  exact retains_of_subset (List.Subset.refl _)

theorem Retains.append_right {staff staff' : List (Thread α)} (h : Retains staff staff')
    (leaving : List (Thread α)) : Retains (staff ++ leaving) (staff' ++ leaving) := by
  intro t' member
  rcases List.mem_append.mp member with inside | left
  · obtain ⟨t, there, alike⟩ := h t' inside
    exact ⟨t, List.mem_append_left _ there, alike⟩
  · exact ⟨t', List.mem_append_right _ left, .refl t'⟩

/-- How a worker came to be as it is when a job may have been handed over. -/
inductive Hands (r : Router α) (staff : List (Thread α)) (handed : Option (String × Job))
    (t' : Thread α) : Prop where
  | stays (t : Thread α) : t ∈ staff → Alike t t' → (∀ job, handed ≠ some (t'.identity, job)) →
    Hands r staff handed t'
  | takes (t : Thread α) (job : Job) : t ∈ staff → t.isFinished = false →
    handed = some (t.identity, job) → t' = { t with inbox := t.inbox ++ [job] } →
    Hands r staff handed t'
  | hired (job : Job) : ¬ r.Hired t'.identity → handed = some (t'.identity, job) →
    t' = { Thread.spawn (Worker.new t'.identity r.setup.registry) with inbox := [job] } →
    Hands r staff handed t'

theorem hands_of_retains {r : Router α} {staff staff' : List (Thread α)}
    (kept : Retains staff staff') : ∀ t' ∈ staff', Hands r staff none t' := by
  intro t' member
  obtain ⟨t, inside, alike⟩ := kept t' member
  exact .stays t inside alike fun _ => nofun

namespace Router

variable {r r' : Router α}

theorem retains_retire (r : Router α) (identity : String) :
    Retains r.threads (r.retire identity).threads := by
  unfold Router.retire
  split
  · exact retains_of_eq rfl
  · next t found =>
    intro t' member
    rcases List.mem_append.mp member with session | retired
    · obtain ⟨entry, kept, rfl⟩ := List.mem_map.mp session
      have old := List.mem_map_of_mem (f := Prod.snd) (KeyTable.mem_without.mp kept).1
      exact ⟨entry.2, List.mem_append_left _ old, .refl _⟩
    · rcases List.mem_append.mp retired with before | last
      · exact ⟨t', List.mem_append_right _ before, .refl t'⟩
      · cases List.mem_singleton.mp last
        have serving := List.mem_map_of_mem (f := Prod.snd) (KeyTable.mem_of_value? found)
        exact ⟨t, List.mem_append_left _ serving, rfl, rfl, rfl⟩

theorem retains_foldl_retire (identities : List String) (r : Router α) :
    Retains r.threads (identities.foldl retire r).threads := by
  induction identities generalizing r with
  | nil => exact retains_of_eq rfl
  | cons identity rest ih => exact (r.retains_retire identity).trans (ih _)

theorem retains_onReport (r : Router α) (e : Event) :
    Retains r.threads (r.onReport e).threads := by
  cases e with
  | reply worker client response =>
    have struck : (r.strikeOff worker).threads = r.threads := by
      unfold Router.strikeOff
      split <;> rfl
    exact retains_of_eq ((reply_answers _ client response).threads.trans struck)
  | stopped worker =>
    have logged := (r.silent_log .info "Worker stopped, session removed"
      [("worker", .string worker)]).answers.threads
    exact (retains_of_eq logged).trans (retains_retire _ worker)

theorem mem_threads_hire {client : Nat} {identity : String} {t : Thread α}
    (member : t ∈ (r.hire client identity).threads) :
    t = .spawn (Worker.new identity r.setup.registry) ∨ t ∈ r.threads := by
  rcases List.mem_append.mp member with session | retired
  · obtain ⟨entry, put, rfl⟩ := List.mem_map.mp session
    rcases KeyTable.mem_put put with rfl | old
    · exact Or.inl rfl
    · exact Or.inr (List.mem_append_left _ (List.mem_map_of_mem old))
  · exact Or.inr (List.mem_append_right _ retired)

/-- A worker that was just hired takes a job. -/
theorem handOver?_hire (r : Router α) (client : Nat) (identity : String) (job : Job) :
    ∃ r', (r.hire client identity).handOver? identity job = some r' := by
  have found : KeyTable.value? identity (r.hire client identity).sessions =
      some (.spawn (Worker.new identity r.setup.registry)) :=
    KeyTable.value?_put_self identity _ r.sessions
  unfold handOver?
  rw [found]
  exact ⟨_, rfl⟩

variable [Service α] [Accountable α] {leaving : List (Thread α)} {reports : List Event}

/-- A job that is handed over goes last into the inbox of its worker, and nobody else gets any. -/
theorem Consistent.staff_handOver (h : Consistent r leaving reports) {identity : String}
    {job : Job} (taken : r.handOver? identity job = some r') :
    ∃ t ∈ r.threads, t.identity = identity ∧ t.isFinished = false ∧
      ∀ t' ∈ r'.threads ++ leaving, t' = { t with inbox := t.inbox ++ [job] } ∨
        t' ∈ r.threads ++ leaving ∧ t'.identity ≠ identity := by
  obtain ⟨t, found, running, rfl⟩ := handOver?_eq_some taken
  have serving := List.mem_map_of_mem (f := Prod.snd) (KeyTable.mem_of_value? found)
  have first := threads_perm_of_session h.sessions leaving found
  have distinct := (first.map Thread.identity).nodup_iff.mp h.mirrors.distinct
  have same : ({ t with inbox := t.inbox ++ [job] } : Thread α).identity = t.identity := rfl
  obtain ⟨key, -, -, staff⟩ := h.put_session found same
  refine ⟨t, List.mem_append_left _ serving, key, running, ?_⟩
  intro t' member
  rcases List.mem_cons.mp (staff.mem_iff.mp member) with same | other
  · exact Or.inl same
  · refine Or.inr ⟨first.mem_iff.mpr (List.mem_cons_of_mem _ other), ?_⟩
    rw [← key]
    exact ne_of_distinct distinct other

theorem Consistent.hands_dispatch (h : Consistent r leaving reports) (identity : String)
    (job : Job) : ∀ t' ∈ (r.dispatch identity job).threads ++ leaving,
      Hands r (r.threads ++ leaving) (r.handed? identity job) t' := by
  unfold Router.dispatch handed?
  cases taken : r.handOver? identity job with
  | some r' =>
    obtain ⟨t, inside, key, running, staff⟩ := h.staff_handOver taken
    intro t' member
    rcases staff t' member with same | ⟨old, other⟩
    · exact .takes t job (List.mem_append_left _ inside) running (by rw [key]; rfl) same
    · refine .stays t' old (.refl t') ?_
      rintro job' ⟨⟩
      exact other rfl
  | none =>
    have refused := (reply_answers (r.retire identity) job.client
      ((Response.failed identity s!"worker {identity} is no longer available").forRequest
        job.request.requestId)).threads
    have kept := (r.retains_retire identity).trans (retains_of_eq refused)
    exact hands_of_retains (kept.append_right leaving)

/-- The worker that is hired for a request gets the request as its first job. -/
theorem Consistent.hands_hire (h : Consistent r leaving reports) {identity : String}
    (next : r.setup.recruit r.recruited = .ok identity) (client : Nat) (job : Job) :
    ∀ t' ∈ ((Router.hire { r with recruited := r.recruited + 1 } client identity).dispatch
        identity job).threads ++ leaving,
      Hands r (r.threads ++ leaving)
        ((Router.hire { r with recruited := r.recruited + 1 } client identity).handed? identity job)
        t' := by
  have new := h.next_unhired next
  have hired := h.recruit.hire (Nat.lt_succ_self _) next new client
  obtain ⟨r', taken⟩ := handOver?_hire { r with recruited := r.recruited + 1 } client identity job
  obtain ⟨t, inside, key, -, staff⟩ := hired.staff_handOver taken
  have spawned : t = .spawn (Worker.new identity r.setup.registry) := by
    rcases mem_threads_hire inside with same | old
    · exact same
    · exact absurd (key ▸ List.mem_map_of_mem (List.mem_append_left leaving old)) new
  unfold Router.dispatch handed?
  rw [taken]
  intro t' member
  rcases staff t' member with rfl | ⟨old, other⟩
  · subst spawned
    refine .hired job ?_ rfl rfl
    rintro ⟨n, early, same⟩
    have equal := h.fresh _ _ _ same next
    omega
  · have before : t' ∈ r.threads ++ leaving := by
      rcases List.mem_append.mp old with here | left
      · rcases mem_threads_hire here with rfl | earlier
        · exact absurd rfl other
        · exact List.mem_append_left _ earlier
      · exact List.mem_append_right _ left
    refine .stays t' before (.refl t') ?_
    rintro job' ⟨⟩
    exact other rfl

theorem Consistent.hands_onArrival (h : Consistent r leaving reports) (a : Arrival) :
    ∀ t' ∈ (r.onArrival a).threads ++ leaving,
      Hands r (r.threads ++ leaving) (r.handsOver? a) t' := by
  have unchanged {r' : Router α} (same : r'.threads = r.threads) :
      ∀ t' ∈ r'.threads ++ leaving, Hands r (r.threads ++ leaving) none t' :=
    hands_of_retains ((retains_of_eq same).append_right leaving)
  cases a with
  | frame client payload =>
    cases decoded : Codec.decodePayload Request.take payload with
    | error e =>
      simp only [Router.onArrival, handsOver?, decoded]
      exact unchanged (r.reply_answers _ _).threads
    | ok request =>
      cases named : request.worker with
      | some identity =>
        simp only [Router.onArrival, Router.route, handsOver?, decoded, named]
        exact h.hands_dispatch identity _
      | none =>
        simp only [Router.onArrival, Router.route, handsOver?, mint?, decoded, named]
        split
        · exact unchanged (r.reply_answers _ _).threads
        · cases next : r.setup.recruit r.recruited with
          | error reason => exact unchanged (reply_answers _ _ _).threads
          | ok identity => exact h.hands_hire next client _
  | malformed client reason =>
    exact unchanged ((r.reply_answers _ _).trans (silent_disconnect _ client).answers).threads
  | disconnected client =>
    exact unchanged ((r.silent_log _ _ _).trans (silent_disconnect _ client)).answers.threads

end Router

namespace Daemon

/-- How a worker came to be as it is after a move. -/
inductive Becomes [Service α] (d : Daemon α) (m : Move) (t' : Thread α) : Prop where
  | outside : m ≠ .work t'.identity → Hands d.router d.staff (d.handsOver? m) t' → Becomes d m t'
  | works (t : Thread α) (step : Step α) : t ∈ d.staff → t.identity = t'.identity →
    m = .work t'.identity → d.router.thread? t'.identity = some t →
    t.step? d.surroundings = some step → t' = step.thread → Becomes d m t'
  | crashes (t : Thread α) : t ∈ d.staff → m = .crash t.identity → t' = t.endWith false →
    Becomes d m t'

variable [Service α] {d d' : Daemon α} {m : Move}

theorem becomes_of_retains (steps : ∀ worker, m ≠ .work worker) (given : d.handsOver? m = none)
    (kept : Retains d.staff d'.staff) : ∀ t' ∈ d'.staff, d.Becomes m t' := by
  intro t' member
  refine .outside (steps _) ?_
  rw [given]
  exact hands_of_retains kept t' member

variable [Accountable α]

/-- What comes of a worker that is singled out. -/
theorem Sound.staff_adjust (h : d.Sound) {worker : String} {t : Thread α}
    (found : d.router.thread? worker = some t) (f : Thread α → Thread α) :
    t.identity = worker ∧ t ∈ d.staff ∧
      ∀ t' ∈ (d.router.adjust worker f).threads ++ d.stage.leaving,
        t' = f t ∨ t' ∈ d.staff ∧ t'.identity ≠ worker := by
  obtain ⟨key, others, first, put⟩ := h.consistent.single_out found
  have distinct := (first.map Thread.identity).nodup_iff.mp h.consistent.mirrors.distinct
  refine ⟨key, first.mem_iff.mpr List.mem_cons_self, ?_⟩
  intro t' member
  rcases List.mem_cons.mp ((put f).mem_iff.mp member) with same | other
  · exact Or.inl same
  · refine Or.inr ⟨first.mem_iff.mpr (List.mem_cons_of_mem _ other), ?_⟩
    rw [← key]
    exact ne_of_distinct distinct other

theorem Sound.becomes_work (h : d.Sound) {worker : String} {t : Thread α} {step : Step α}
    (found : d.router.thread? worker = some t) (stepped : t.step? d.surroundings = some step) :
    ∀ t' ∈ (d.router.adjust worker fun _ => step.thread).threads ++ d.stage.leaving,
      d.Becomes (.work worker) t' := by
  obtain ⟨key, inside, staff⟩ := h.staff_adjust found fun _ => step.thread
  have named : step.thread.identity = worker := (Thread.step?_keeps stepped).1.trans key
  intro t' member
  rcases staff t' member with rfl | ⟨old, other⟩
  · exact .works t step inside (key.trans named.symm) (by rw [named]) (by rw [named, found]) stepped
      rfl
  · refine .outside ?_ (.stays t' old (.refl t') fun _ => nofun)
    rintro ⟨⟩
    exact other rfl

theorem Sound.becomes_crash (h : d.Sound) {worker : String} {t : Thread α}
    (found : d.router.thread? worker = some t) :
    ∀ t' ∈ (d.router.adjust worker (·.endWith false)).threads ++ d.stage.leaving,
      d.Becomes (.crash worker) t' := by
  obtain ⟨key, inside, staff⟩ := h.staff_adjust found (·.endWith false)
  intro t' member
  rcases staff t' member with rfl | ⟨old, -⟩
  · exact .crashes t inside (by rw [key]) rfl
  · exact .outside (by rintro ⟨⟩) (.stays t' old (.refl t') fun _ => nofun)

omit [Service α] [Accountable α] in
theorem retains_check (d : Daemon α) : Retains d.router.threads d.check.staff := by
  have noticed : d.notice.router.threads = d.router.threads := by
    unfold notice
    split <;> rfl
  have ended (r : Router α) (same : r.threads = d.router.threads) :
      Retains d.router.threads r.retireAll.threads := by
    rw [← same]
    exact Router.retains_foldl_retire _ r
  unfold staff
  rw [leaving_check, List.append_nil]
  unfold check
  dsimp only
  split
  · exact retains_of_eq noticed
  · split
    · exact ended _ noticed
    · split
      · exact ended _ noticed
      · exact retains_of_eq noticed

omit [Service α] [Accountable α] in
theorem retains_reap (d : Daemon α) : Retains d.router.threads d.reap.staff := by
  obtain ⟨running, finished, same, leaving, -, -, parted⟩ := d.reap_eq
  have retired : Retains d.router.threads d.router.retireFinished.threads :=
    Router.retains_foldl_retire _ d.router
  refine retired.trans (retains_of_subset ?_)
  unfold staff
  rw [same, leaving]
  intro t member
  rw [Router.threads, List.append_assoc, List.mem_append] at member
  rcases member with session | retired
  · exact List.mem_append_left _ session
  · exact List.mem_append_right _ (parted.mem_iff.mpr retired)

/-- Every worker came about in one of these ways. -/
theorem Sound.becomes (h : d.Sound) (moved : d.step? m = some d') :
    ∀ t' ∈ d'.staff, d.Becomes m t' := by
  cases moves_of_step? moved with
  | quiet outside silent _ leaving _ =>
    refine becomes_of_retains ?_ ?_ ?_
    · rintro worker rfl
      exact outside
    · rw [handsOver?, taken?_of_isQuiet outside]
      rfl
    · exact retains_of_eq (by rw [staff, silent.answers.threads, leaving]; rfl)
  | @work worker t step found stepped =>
    have logged := (d.router.adjust worker fun _ => step.thread).silent_entries step.entries
    unfold staff
    rw [logged.answers.threads]
    exact h.becomes_work found stepped
  | crash found _ => exact h.becomes_crash found
  | @arrive arrival arrivals selecting first =>
    have given : d.handsOver? .takeArrival = d.router.handsOver? arrival := by
      rw [handsOver?, taken?, first]
      rfl
    intro t' member
    have hands := h.consistent.hands_onArrival arrival t'
    rw [selecting] at hands
    refine .outside (by rintro ⟨⟩) ?_
    rw [given, staff, selecting]
    exact hands member
  | @hear report _ selecting first =>
    refine becomes_of_retains (by rintro _ ⟨⟩) rfl ?_
    unfold staff
    rw [selecting]
    exact (d.router.retains_onReport report).append_right _
  | check checking =>
    refine becomes_of_retains (by rintro _ ⟨⟩) rfl ((retains_of_subset ?_).trans d.retains_check)
    exact List.subset_append_left _ _
  | reap reaping =>
    refine becomes_of_retains (by rintro _ ⟨⟩) rfl ((retains_of_subset ?_).trans d.retains_reap)
    exact List.subset_append_left _ _
  | @heed report _ _ _ =>
    exact becomes_of_retains (by rintro _ ⟨⟩) rfl
      ((d.router.retains_onReport report).append_right _)
  | @dismiss finished collecting _ =>
    refine becomes_of_retains (by rintro _ ⟨⟩) rfl (retains_of_subset ?_)
    unfold staff
    rw [Router.threads_dismiss]
    simp [Stage.leaving]
  | @join count joining _ =>
    have joined := (Router.silent_foldl Router.silent_join d.router.retired
      { d.router with retired := [] }).answers.threads
    refine becomes_of_retains (by rintro _ ⟨⟩) rfl (retains_of_subset ?_)
    unfold staff
    rw [joined]
    simp [Router.threads, Stage.leaving]
  | conclude emptying none =>
    have sound := (h.conclude emptying none).1
    intro t' member
    rw [sound.staff_eq_nil rfl] at member
    cases member

end Daemon

end SessionRelay.Broker
