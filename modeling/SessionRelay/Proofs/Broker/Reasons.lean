import SessionRelay.Proofs.Broker.FailedSends
import SessionRelay.Proofs.Worker.Reasons

/-!
What clients are told of failures. In every run each answer that the broker decides on, and each
substitute that it builds for one, is no failure or says in a phrase why it is one.
-/

namespace SessionRelay.Broker

open Backend Wire Worker Integration

variable {α : Type}

/-- What takes the place of an answer says why it does. -/
theorem StandsFor.forthright {codec : Codec} {answer response : Response}
    (h : StandsFor codec answer response) (forthright : answer.Forthright) :
    response.Forthright := by
  rcases h with rfl | ⟨e, -, rfl⟩
  · exact forthright
  · refine ⟨forthright.short, fun _ => ⟨_, ?_, rfl⟩⟩
    split <;> repeat first | decide | apply IsPhrase.append

namespace Router

/-- All workers that have not been joined are about something forthright. -/
def Forthright (r : Router α) : Prop := ∀ t ∈ r.threads, t.phase.Forthright

variable {r r' : Router α}

theorem Forthright.of_retains (h : r.Forthright) (kept : Retains r.threads r'.threads) :
    r'.Forthright := by
  intro t' member
  obtain ⟨t, inside, alike⟩ := kept t' member
  rw [alike.phase]
  exact h t inside

theorem Forthright.reply (h : r.Forthright) (client : Nat) (response : Response) :
    (r.reply client response).Forthright :=
  h.of_retains (retains_of_eq (r.reply_answers client response).threads)

theorem Forthright.dispatch (h : r.Forthright) (identity : String) (job : Job) :
    (r.dispatch identity job).Forthright := by
  unfold Router.dispatch
  cases taken : r.handOver? identity job with
  | none =>
    exact Forthright.reply (h.of_retains (r.retains_retire identity)) job.client _
  | some r' =>
    obtain ⟨t, found, -, rfl⟩ := handOver?_eq_some taken
    intro t' member
    rcases List.mem_append.mp member with session | retired
    · obtain ⟨entry, put, rfl⟩ := List.mem_map.mp session
      rcases KeyTable.mem_put put with rfl | old
      · have serving := List.mem_map_of_mem (f := Prod.snd) (KeyTable.mem_of_value? found)
        exact h t (List.mem_append_left _ serving)
      · exact h entry.2 (List.mem_append_left _ (List.mem_map_of_mem old))
    · exact h t' (List.mem_append_right _ retired)

/-- A worker that is hired is about nothing yet. -/
theorem Forthright.hire (h : r.Forthright) (client : Nat) (identity : String) :
    (r.hire client identity).Forthright := by
  intro t member
  rcases mem_threads_hire member with rfl | old
  · trivial
  · exact h t old

theorem Forthright.onArrival (h : r.Forthright) (a : Arrival) : (r.onArrival a).Forthright := by
  cases a with
  | frame client payload =>
    cases decoded : Codec.decodePayload Request.take payload with
    | error e =>
      simp only [Router.onArrival, decoded]
      exact h.reply client _
    | ok request =>
      cases named : request.worker with
      | some identity =>
        simp only [Router.onArrival, Router.route, decoded, named]
        exact h.dispatch identity _
      | none =>
        simp only [Router.onArrival, Router.route, decoded, named]
        have recruits : Forthright { r with recruited := r.recruited + 1 } := h
        split
        · exact h.reply client _
        · split
          · exact recruits.reply client _
          · exact (recruits.hire client _).dispatch _ _
  | malformed client reason =>
    have replied : (r.reply client (.failed "" s!"invalid request: {reason}")).Forthright :=
      h.reply client _
    exact replied.of_retains (retains_of_eq (silent_disconnect _ client).answers.threads)
  | disconnected client =>
    exact h.of_retains (retains_of_eq
      ((r.silent_log _ _ _).trans (silent_disconnect _ client)).answers.threads)

theorem Forthright.abandonAll (h : r.Forthright) : r.abandonAll.Forthright := by
  have each (identities : List String) (r : Router α) (h : r.Forthright) :
      (identities.foldl abandon r).Forthright := by
    induction identities generalizing r with
    | nil => exact h
    | cons identity rest ih =>
      exact ih _ (h.of_retains (retains_of_eq (abandon_answers r identity).threads))
  exact each _ r h

/-- Workers that go on to something forthright. -/
theorem Forthright.adjust (h : r.Forthright) (identity : String) {f : Thread α → Thread α}
    (goes : ∀ t, (f t).phase.Forthright) : (r.adjust identity f).Forthright := by
  intro t member
  rcases List.mem_append.mp member with session | retired
  · obtain ⟨entry, adjusted, rfl⟩ := List.mem_map.mp session
    rcases KeyTable.mem_adjust adjusted with old | ⟨u, -, rfl⟩
    · exact h entry.2 (List.mem_append_left _ (List.mem_map_of_mem old))
    · exact goes u
  · obtain ⟨u, old, rfl⟩ := List.mem_map.mp retired
    split
    · exact goes u
    · exact h u (List.mem_append_right _ old)

theorem mem_threads_of_thread? {identity : String} {t : Thread α}
    (found : r.thread? identity = some t) : t ∈ r.threads := by
  unfold thread? at found
  cases session : KeyTable.value? identity r.sessions with
  | some u =>
    rw [session, Option.orElse_some] at found
    cases found
    exact List.mem_append_left _
      (List.mem_map_of_mem (f := Prod.snd) (KeyTable.mem_of_value? session))
  | none =>
    rw [session, Option.orElse_none] at found
    exact List.mem_append_right _ (List.mem_of_find?_eq_some found)

end Router

namespace Daemon

/-- All that was answered, reported or begun is forthright, and all frames are those of answers. -/
structure Forthright (codec : Codec) (d : Daemon α) : Prop where
  codec_eq : d.router.setup.codec = codec
  framed : Framed codec d.router.journal
  said : ∀ client answer, .answered client answer ∈ d.router.journal → answer.Forthright
  staff : d.router.Forthright
  reports : ∀ e ∈ d.reports, e.Forthright

theorem forthright_start (setup : Setup α) (backend : Rehearsal) (epoch : Int) :
    (start setup backend epoch).Forthright setup.codec where
  codec_eq := rfl
  framed := trivial
  said client answer member := by
    cases member with
    | tail _ member => cases member
  staff t member := by cases member
  reports e member := by cases member

variable [Service α] [Articulate α] {codec : Codec} {d d' : Daemon α} {m : Move}

/-- A worker at work goes on to something forthright, and reports nothing else. -/
theorem Forthright.work (h : d.Forthright codec) {worker : String} {t : Thread α} {step : Step α}
    (found : d.router.thread? worker = some t) (stepped : t.step? d.surroundings = some step) :
    step.Forthright :=
  Thread.step_forthright (h.staff t (Router.mem_threads_of_thread? found)) (Nat.zero_le _) stepped

omit [Articulate α] in
/-- Whatever workers say is passed on, and all else that is said is the broker's own. -/
theorem Forthright.spoken (h : d.Forthright codec) (moved : d.step? m = some d') :
    d.router.Says (fun _ answer => answer.Forthright) d'.router := by
  have own (worker : String) (jobs : List PendingJob) :
      Router.AnswersFor (fun _ answer => answer.Forthright) worker jobs :=
    fun _ _ answer forthright _ _ => forthright
  refine says_of_step? (h.codec_eq.symm ▸ h.framed) moved ?_ ?_ ?_ ?_
  · exact fun _ _ _ _ answer forthright _ => forthright
  · intro worker client response heeded
    obtain ⟨rest, first⟩ := reports_of_heeds? heeded
    exact h.reports (.reply worker client response) (first ▸ List.mem_cons_self)
  · exact fun _ _ _ t _ => own _ _
  · exact fun _ _ _ _ worker => own _ _

theorem Forthright.staff_step (h : d.Forthright codec) (moved : d.step? m = some d') :
    d'.router.Forthright := by
  have silent {r r' : Router α} (before : r.Forthright) (quiet : r.Silent r') : r'.Forthright :=
    before.of_retains (retains_of_eq quiet.answers.threads)
  cases moves_of_step? moved with
  | quiet _ quiet _ _ _ => exact silent h.staff quiet
  | @work worker t step found stepped =>
    have gone := h.staff.adjust worker (f := fun _ => step.thread) fun _ =>
      (h.work found stepped).phase
    exact silent gone (Router.silent_entries _ _)
  | @crash worker _ _ _ => exact h.staff.adjust worker fun _ => trivial
  | @arrive arrival _ _ _ => exact h.staff.onArrival arrival
  | hear _ _ => exact h.staff.of_retains (d.router.retains_onReport _)
  | check _ =>
    exact h.staff.of_retains
      (d.retains_check.trans (retains_of_subset (List.subset_append_left _ _)))
  | reap _ =>
    exact h.staff.of_retains
      (d.retains_reap.trans (retains_of_subset (List.subset_append_left _ _)))
  | heed _ _ => exact h.staff.of_retains (d.router.retains_onReport _)
  | dismiss _ _ => exact h.staff.of_retains (retains_of_eq (Router.threads_dismiss _ _))
  | join _ _ =>
    have left : Router.Forthright { d.router with retired := [] } := by
      refine h.staff.of_retains (retains_of_subset ?_)
      simp [Router.threads]
    exact silent left (Router.silent_foldl Router.silent_join _ _)
  | @conclude count _ _ _ => exact silent h.staff.abandonAll (d.silent_conclude count)

/-- Every move keeps all that is said forthright. -/
theorem Forthright.step (h : d.Forthright codec) (moved : d.step? m = some d') :
    d'.Forthright codec := by
  have spoken := h.spoken moved
  have same : d'.router.setup.codec = codec := (congrArg Setup.codec spoken.setup).trans h.codec_eq
  refine ⟨same, ?_, ?_, h.staff_step moved, ?_⟩
  · exact same ▸ spoken.framed (h.codec_eq.symm ▸ h.framed)
  · intro client answer member
    obtain ⟨added, journal, -, new⟩ := spoken.said
    rw [journal] at member
    rcases List.mem_append.mp member with later | earlier
    · exact new client answer later
    · exact h.said client answer earlier
  · intro e member
    obtain ⟨events, taken, source⟩ := reports_step moved
    have inside : e ∈ d.reports ++ events := taken ▸ List.mem_append_right _ member
    rcases List.mem_append.mp inside with old | new
    · exact h.reports e old
    · rcases source with ⟨rfl, -⟩ | ⟨name, t, step, -, found, stepped, rfl⟩
      · cases new
      · exact (h.work found stepped).events e new

end Daemon

theorem Run.forthright [Service α] [Articulate α] {codec : Codec} {first d : Daemon α}
    {trace : List (Daemon α × Move)} (run : Run first trace d) (h : first.Forthright codec) :
    d.Forthright codec := by
  induction run with
  | start => exact h
  | step _ moved ih => exact ih.step moved

end SessionRelay.Broker
