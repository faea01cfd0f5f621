import SessionRelay.Proofs.Broker.Moves
import SessionRelay.Proofs.Broker.Router

/-!
The lives of workers. Each worker is hired into a session, retired when its session ends, and joined
when it has ended itself. What the broker does to its tables hires one worker, or retires some, or
joins some, and never takes anybody back.
-/

namespace SessionRelay.Broker

open Wire Worker

/-- How far the life of a worker has come. Nobody has heard of it, it serves a session, it gets no
more jobs, or the broker has taken leave of it. -/
inductive Station where
  | unknown
  | serving
  | retired
  | joined
  deriving DecidableEq, Repr

def Station.rank : Station → Nat
  | .unknown => 0
  | .serving => 1
  | .retired => 2
  | .joined => 3

/-- Who is where. -/
structure Roll where
  serving : List String
  retired : List String
  joined : List String
  deriving DecidableEq, Repr

namespace Roll

def all (s : Roll) : List String := s.serving ++ s.retired ++ s.joined

def Has (s : Roll) (worker : String) : Station → Prop
  | .unknown => worker ∉ s.all
  | .serving => worker ∈ s.serving
  | .retired => worker ∈ s.retired
  | .joined => worker ∈ s.joined

/-- One worker is hired, or some are retired, or some are joined. -/
inductive Changes (s s' : Roll) : Option String → Prop where
  | hire {worker : String} :
    s'.serving.Perm (worker :: s.serving) → s'.retired = s.retired → s'.joined = s.joined →
    Changes s s' (some worker)
  | retire (workers : List String) :
    s.serving.Perm (workers ++ s'.serving) → s'.retired.Perm (workers ++ s.retired) →
    s'.joined = s.joined → Changes s s' none
  | join (workers : List String) :
    s'.serving = s.serving → s.retired.Perm (workers ++ s'.retired) →
    s'.joined.Perm (workers ++ s.joined) → Changes s s' none

variable {s s' : Roll} {hired : Option String}

theorem mem_all {worker : String} :
    worker ∈ s.all ↔ worker ∈ s.serving ∨ worker ∈ s.retired ∨ worker ∈ s.joined := by
  simp [all]

/-- Nobody is lost, and nobody but the one who is hired comes in. -/
theorem Changes.all_perm (h : s.Changes s' hired) : s'.all.Perm (hired.toList ++ s.all) := by
  cases h with
  | @hire worker serving retired joined =>
    have first : (s'.serving ++ s'.retired ++ s'.joined).Perm
        (worker :: s.serving ++ s.retired ++ s.joined) := by
      rw [retired, joined]
      exact (serving.append_right _).append_right _
    exact first
  | retire workers serving retired joined =>
    have moved : (s'.serving ++ s'.retired).Perm (s.serving ++ s.retired) :=
      calc (s'.serving ++ s'.retired).Perm (s'.serving ++ (workers ++ s.retired)) :=
            retired.append_left _
        _ |>.Perm (workers ++ s'.serving ++ s.retired) := by
            rw [← List.append_assoc]
            exact List.perm_append_comm.append_right _
        _ |>.Perm (s.serving ++ s.retired) := serving.symm.append_right _
    unfold all
    rw [joined]
    exact moved.append_right _
  | join workers serving retired joined =>
    have moved : (s'.retired ++ s'.joined).Perm (s.retired ++ s.joined) :=
      calc (s'.retired ++ s'.joined).Perm (s'.retired ++ (workers ++ s.joined)) :=
            joined.append_left _
        _ |>.Perm (workers ++ s'.retired ++ s.joined) := by
            rw [← List.append_assoc]
            exact List.perm_append_comm.append_right _
        _ |>.Perm (s.retired ++ s.joined) := retired.symm.append_right _
    unfold all
    rw [serving, List.append_assoc, List.append_assoc]
    exact moved.append_left _

/-- Among workers of different names each is at one station. -/
theorem existsUnique_has (distinct : s.all.Nodup) (worker : String) :
    ∃ station, s.Has worker station ∧ ∀ other, s.Has worker other → other = station := by
  have apart := distinct
  simp only [all, List.nodup_append, List.mem_append] at apart
  obtain ⟨⟨-, -, serves⟩, -, settled⟩ := apart
  have notRetired (h : worker ∈ s.serving) : worker ∉ s.retired := fun h' => serves _ h _ h' rfl
  have notJoined (h : worker ∈ s.serving ∨ worker ∈ s.retired) : worker ∉ s.joined :=
    fun h' => settled _ h _ h' rfl
  by_cases first : worker ∈ s.serving
  · refine ⟨.serving, first, ?_⟩
    intro other has
    cases other with
    | unknown => exact absurd (mem_all.mpr (Or.inl first)) has
    | serving => rfl
    | retired => exact absurd has (notRetired first)
    | joined => exact absurd has (notJoined (Or.inl first))
  · by_cases second : worker ∈ s.retired
    · refine ⟨.retired, second, ?_⟩
      intro other has
      cases other with
      | unknown => exact absurd (mem_all.mpr (Or.inr (Or.inl second))) has
      | serving => exact absurd has first
      | retired => rfl
      | joined => exact absurd has (notJoined (Or.inr second))
    · by_cases third : worker ∈ s.joined
      · refine ⟨.joined, third, ?_⟩
        intro other has
        cases other with
        | unknown => exact absurd (mem_all.mpr (Or.inr (Or.inr third))) has
        | serving => exact absurd has first
        | retired => exact absurd has second
        | joined => rfl
      · refine ⟨.unknown, ?_, ?_⟩
        · simp [Has, mem_all, first, second, third]
        · intro other has
          cases other with
          | unknown => rfl
          | serving => exact absurd has first
          | retired => exact absurd has second
          | joined => exact absurd has third

/-- Whoever is at a station is there or at the next one after a change. -/
theorem Changes.onward (h : s.Changes s' hired) {worker : String} {a : Station}
    (has : s.Has worker a) : ∃ b, s'.Has worker b ∧ (b = a ∨ b.rank = a.rank + 1) := by
  cases h with
  | @hire name serving retired joined =>
    cases a with
    | unknown =>
      by_cases same : worker = name
      · refine ⟨.serving, ?_, Or.inr rfl⟩
        exact serving.mem_iff.mpr (same ▸ List.mem_cons_self)
      · refine ⟨.unknown, ?_, Or.inl rfl⟩
        simp only [Has, mem_all, serving.mem_iff, retired, joined, List.mem_cons, same,
          false_or] at has ⊢
        exact has
    | serving => exact ⟨.serving, serving.mem_iff.mpr (List.mem_cons_of_mem _ has), Or.inl rfl⟩
    | retired => exact ⟨.retired, by simpa [Has, retired] using has, Or.inl rfl⟩
    | joined => exact ⟨.joined, by simpa [Has, joined] using has, Or.inl rfl⟩
  | retire workers serving retired joined =>
    have total := (Changes.retire workers serving retired joined).all_perm
    cases a with
    | unknown => exact ⟨.unknown, fun later => has (total.mem_iff.mp later), Or.inl rfl⟩
    | serving =>
      rcases List.mem_append.mp (serving.mem_iff.mp has) with leaves | stays
      · exact ⟨.retired, retired.mem_iff.mpr (List.mem_append_left _ leaves), Or.inr rfl⟩
      · exact ⟨.serving, stays, Or.inl rfl⟩
    | retired => exact ⟨.retired, retired.mem_iff.mpr (List.mem_append_right _ has), Or.inl rfl⟩
    | joined => exact ⟨.joined, by simpa [Has, joined] using has, Or.inl rfl⟩
  | join workers serving retired joined =>
    have total := (Changes.join workers serving retired joined).all_perm
    cases a with
    | unknown => exact ⟨.unknown, fun later => has (total.mem_iff.mp later), Or.inl rfl⟩
    | serving => exact ⟨.serving, by simpa [Has, serving] using has, Or.inl rfl⟩
    | retired =>
      rcases List.mem_append.mp (retired.mem_iff.mp has) with goes | stays
      · exact ⟨.joined, joined.mem_iff.mpr (List.mem_append_left _ goes), Or.inr rfl⟩
      · exact ⟨.retired, stays, Or.inl rfl⟩
    | joined => exact ⟨.joined, joined.mem_iff.mpr (List.mem_append_right _ has), Or.inl rfl⟩

/-- A change without hiring brings nobody into service. -/
theorem Changes.serving_subset (h : s.Changes s' none) : s'.serving ⊆ s.serving := by
  intro worker serves
  cases h with
  | retire workers serving _ _ => exact serving.mem_iff.mpr (List.mem_append_right _ serves)
  | join _ serving _ _ => exact serving ▸ serves

end Roll

/-! ### The tables -/

namespace Router

variable {α : Type}

/-- Every session has a worker of its name, which takes jobs unless it has ended by itself. -/
structure Attended (r : Router α) : Prop where
  ascending : KeyTable.Ascending r.sessions
  keys : ∀ entry ∈ r.sessions, entry.2.identity = entry.1
  takes : ∀ entry ∈ r.sessions, entry.2.inboxOpen = true

/-- Sessions end and their workers are retired, and nothing else happens to workers. -/
structure Thins (r r' : Router α) : Prop where
  attended : r'.Attended
  moved : ∃ workers, (KeyTable.names r.sessions).Perm (workers ++ KeyTable.names r'.sessions) ∧
    (r'.retired.map Thread.identity).Perm (workers ++ r.retired.map Thread.identity)
  joined : departed r'.journal = departed r.journal
  draining : r.draining = true → r'.draining = true

variable {r r' r'' : Router α}

theorem Thins.refl (h : r.Attended) : r.Thins r :=
  ⟨h, ⟨[], .refl _, .refl _⟩, rfl, id⟩

theorem Thins.trans (h : r.Thins r') (h' : r'.Thins r'') : r.Thins r'' := by
  obtain ⟨workers, serving, retired⟩ := h.moved
  obtain ⟨more, serving', retired'⟩ := h'.moved
  refine ⟨h'.attended, ⟨workers ++ more, ?_, ?_⟩, h'.joined.trans h.joined,
    h'.draining ∘ h.draining⟩
  · rw [List.append_assoc]
    exact serving.trans (serving'.append_left _)
  · have swapped : (more ++ (workers ++ r.retired.map Thread.identity)).Perm
        (workers ++ more ++ r.retired.map Thread.identity) := by
      rw [← List.append_assoc]
      exact List.perm_append_comm.append_right _
    exact (retired'.trans (retired.append_left _)).trans swapped

/-- Workers are joined, and nothing else happens to workers. -/
structure Joins (workers : List String) (r r' : Router α) : Prop where
  sessions : r'.sessions = r.sessions
  retired : r'.retired = r.retired
  joined : departed r'.journal = workers ++ departed r.journal
  draining : r.draining = true → r'.draining = true

theorem Joins.refl (r : Router α) : r.Joins [] r := ⟨rfl, rfl, rfl, id⟩

theorem Joins.trans {workers more : List String} (h : Joins workers r r')
    (h' : Joins more r' r'') : Joins (more ++ workers) r r'' := by
  refine ⟨h'.sessions.trans h.sessions, h'.retired.trans h.retired, ?_,
    h'.draining ∘ h.draining⟩
  rw [h'.joined, h.joined, List.append_assoc]

theorem Joins.attended {workers : List String} (h : Joins workers r r') (before : r.Attended) :
    r'.Attended := by
  obtain ⟨ascending, keys, takes⟩ := before
  refine ⟨?_, ?_, ?_⟩
  · exact h.sessions ▸ ascending
  · exact h.sessions ▸ keys
  · exact h.sessions ▸ takes

theorem Joins.thins (h : r.Joins [] r') (before : r.Attended) : r.Thins r' := by
  refine ⟨h.attended before, ⟨[], ?_, ?_⟩, h.joined, h.draining⟩
  · rw [h.sessions]
    exact .refl _
  · rw [h.retired]
    exact .refl _

theorem Gains.joins (gains : r.Gains Effect.IsIncidental r') : r.Joins [] r' := by
  obtain ⟨connections, added, incidental, rfl⟩ := gains
  exact ⟨rfl, rfl, departed_incidental incidental _, id⟩

theorem joins_log (r : Router α) (level : Logging.Level) (message : String)
    (details : List (String × Json.Value)) : r.Joins [] (r.log level message details) :=
  (gains_log (fun _ => trivial) r level message details).joins

theorem joins_disconnect (r : Router α) (client : Nat) : r.Joins [] (r.disconnect client) :=
  (gains_disconnect (fun _ => trivial) r client).joins

theorem joins_reply (r : Router α) (client : Nat) (response : Response) :
    r.Joins [] (r.reply client response) := by
  have noted : r.Joins [] (r.note (.answered client response)) := ⟨rfl, rfl, rfl, id⟩
  exact noted.trans (gains_reply r client response).joins

theorem joins_foldl {β : Type} {f : Router α → β → Router α}
    (step : ∀ r b, Joins [] r (f r b)) (items : List β) (r : Router α) :
    r.Joins [] (items.foldl f r) := by
  induction items generalizing r with
  | nil => exact .refl r
  | cons b rest ih => exact (step r b).trans (ih (f r b))

theorem joins_abandon (r : Router α) (identity : String) : r.Joins [] (r.abandon identity) := by
  unfold Router.abandon
  split
  · exact .refl r
  · next jobs found =>
    have cleared : r.Joins [] { r with pending := KeyTable.without identity r.pending } :=
      ⟨rfl, rfl, rfl, id⟩
    exact cleared.trans (joins_foldl (fun r job => joins_reply r job.client _) jobs _)

theorem joins_join (r : Router α) (t : Thread α) : r.Joins [t.identity] (r.join t) := by
  have noted : r.Joins [t.identity] (r.note (.joined t.identity)) := ⟨rfl, rfl, rfl, id⟩
  unfold Router.join
  dsimp only
  split
  · exact noted.trans (joins_log _ _ _ _)
  · exact noted

/-- Whoever takes leave of workers one after the other joins each of them. -/
theorem joins_foldl_of_join {f : Router α → Thread α → Router α}
    (step : ∀ r (t : Thread α), Joins [t.identity] r (f r t)) (threads : List (Thread α))
    (r : Router α) :
    r.Joins (threads.map Thread.identity).reverse (threads.foldl f r) := by
  induction threads generalizing r with
  | nil => exact .refl r
  | cons t rest ih =>
    have both := (step r t).trans (ih (f r t))
    rw [List.map_cons, List.reverse_cons]
    exact both

theorem joins_dismiss (r : Router α) (threads : List (Thread α)) :
    r.Joins (threads.map Thread.identity).reverse (r.dismiss threads) :=
  joins_foldl_of_join (fun r t => (joins_join r t).trans (joins_abandon _ t.identity)) threads r

/-! ### Sessions that end -/

theorem Attended.foldl {β : Type} {f : Router α → β → Router α}
    (step : ∀ r b, Attended r → Thins r (f r b)) (items : List β) (h : r.Attended) :
    r.Thins (items.foldl f r) := by
  induction items generalizing r with
  | nil => exact .refl h
  | cons b rest ih =>
    have first := step r b h
    exact first.trans (ih first.attended)

theorem Attended.retire (h : r.Attended) (identity : String) : r.Thins (r.retire identity) := by
  unfold Router.retire
  split
  · exact .refl h
  · next t found =>
    have first := KeyTable.perm_of_value? h.ascending found
    have named : t.identity = identity := h.keys _ (KeyTable.mem_of_value? found)
    have kept : ∀ entry ∈ KeyTable.without identity r.sessions, entry ∈ r.sessions :=
      fun entry member => (KeyTable.mem_without.mp member).1
    refine ⟨⟨h.ascending.without identity, ?_, ?_⟩, ⟨[identity], first.map Prod.fst, ?_⟩, rfl,
      id⟩
    · exact fun entry member => h.keys entry (kept entry member)
    · exact fun entry member => h.takes entry (kept entry member)
    · have last : (r.retired ++ [t.retire]).map Thread.identity =
          r.retired.map Thread.identity ++ [identity] := by
        simp [Thread.retire, named]
      rw [last]
      exact List.perm_append_comm

theorem joins_strikeOff (r : Router α) (worker : String) : r.Joins [] (r.strikeOff worker) := by
  unfold Router.strikeOff
  split
  · exact .refl r
  · exact ⟨rfl, rfl, rfl, id⟩
  · exact ⟨rfl, rfl, rfl, id⟩

theorem Attended.onReport (h : r.Attended) (e : Event) : r.Thins (r.onReport e) := by
  cases e with
  | reply worker client response =>
    exact ((joins_strikeOff r worker).trans (joins_reply _ client response)).thins h
  | stopped worker =>
    have logged := joins_log r .info "Worker stopped, session removed" [("worker", .string worker)]
    exact (logged.thins h).trans ((logged.attended h).retire worker)

/-! ### Jobs -/

/-- A job that is handed over goes last into the inbox and among the pending jobs, and nothing else
changes. -/
theorem handOver?_eq_some {identity : String} {job : Job}
    (taken : r.handOver? identity job = some r') :
    ∃ t, KeyTable.value? identity r.sessions = some t ∧ t.isFinished = false ∧
      r' = { r with
        sessions := KeyTable.put identity { t with inbox := t.inbox ++ [job] } r.sessions
        pending := KeyTable.put identity
          ((KeyTable.value? identity r.pending).getD [] ++ [⟨job.client, job.request.requestId⟩])
          r.pending } := by
  unfold handOver? at taken
  split at taken
  · cases taken
  · next t' bound =>
    cases taken
    obtain ⟨t, found, dispatched⟩ := Option.bind_eq_some_iff.mp bound
    unfold Thread.dispatch? at dispatched
    split at dispatched
    · cases dispatched
    · next free =>
      cases dispatched
      simp only [Bool.or_eq_true, not_or, Bool.not_eq_true] at free
      exact ⟨t, found, free.1, rfl⟩

theorem Attended.handOver?_eq_none (h : r.Attended) {identity : String} {job : Job} :
    r.handOver? identity job = none ↔
      ∀ t, KeyTable.value? identity r.sessions = some t → t.isFinished = true := by
  unfold handOver?
  cases found : KeyTable.value? identity r.sessions with
  | none => simp
  | some t =>
    have takes : t.inboxOpen = true := h.takes _ (KeyTable.mem_of_value? found)
    cases finished : t.isFinished with
    | true => simp [Thread.dispatch?, finished]
    | false => simp [Thread.dispatch?, finished, takes]

/-- A session keeps its name when its worker changes. -/
theorem names_put_perm (h : r.Attended) {identity : String} {t : Thread α} (t' : Thread α)
    (found : KeyTable.value? identity r.sessions = some t) :
    (KeyTable.names (KeyTable.put identity t' r.sessions)).Perm (KeyTable.names r.sessions) := by
  have before := (KeyTable.perm_of_value? h.ascending found).map Prod.fst
  have after := (KeyTable.put_perm h.ascending identity t').map Prod.fst
  exact after.trans before.symm

theorem Attended.handOver (h : r.Attended) {identity : String} {job : Job}
    (taken : r.handOver? identity job = some r') : r.Thins r' := by
  obtain ⟨t, found, -, rfl⟩ := handOver?_eq_some taken
  have old := KeyTable.mem_of_value? found
  refine ⟨⟨h.ascending.put _ _, ?_, ?_⟩, ⟨[], ?_, .refl _⟩, rfl, id⟩
  · intro entry member
    rcases KeyTable.mem_put member with rfl | other
    · exact h.keys (identity, t) old
    · exact h.keys entry other
  · intro entry member
    rcases KeyTable.mem_put member with rfl | other
    · exact h.takes (identity, t) old
    · exact h.takes entry other
  · exact (names_put_perm h _ found).symm

theorem Attended.dispatch (h : r.Attended) (identity : String) (job : Job) :
    r.Thins (r.dispatch identity job) := by
  unfold Router.dispatch
  split
  · next taken => exact h.handOver taken
  · have retired := h.retire identity
    exact retired.trans ((joins_reply _ job.client _).thins retired.attended)

/-- A worker is hired into a new session, and nothing else happens to workers. -/
structure Hires (r : Router α) (identity : String) (r' : Router α) : Prop where
  attended : r'.Attended
  serving : (KeyTable.names r'.sessions).Perm (identity :: KeyTable.names r.sessions)
  retired : r'.retired = r.retired
  joined : departed r'.journal = departed r.journal
  draining : r.draining = true → r'.draining = true

/-- A worker that is hired gets its first job. -/
theorem Attended.hire (h : r.Attended) {identity : String}
    (new : identity ∉ KeyTable.names r.sessions) (client : Nat) (job : Job) :
    r.Hires identity ((r.hire client identity).dispatch identity job) := by
  let thread : Thread α := .spawn (Worker.new identity r.setup.registry)
  have added := KeyTable.put_perm h.ascending identity thread
  rw [KeyTable.without_eq_self new] at added
  have attended : (r.hire client identity).Attended := by
    refine ⟨h.ascending.put identity thread, ?_, ?_⟩
    · intro entry member
      rcases KeyTable.mem_put member with rfl | old
      · rfl
      · exact h.keys entry old
    · intro entry member
      rcases KeyTable.mem_put member with rfl | old
      · rfl
      · exact h.takes entry old
  have found : KeyTable.value? identity (r.hire client identity).sessions = some thread :=
    KeyTable.value?_put_self identity thread r.sessions
  have taken : (r.hire client identity).handOver? identity job ≠ none := by
    intro none
    have ended := attended.handOver?_eq_none.mp none thread found
    cases ended
  obtain ⟨r', handed⟩ := Option.ne_none_iff_exists'.mp taken
  have thins := attended.handOver handed
  obtain ⟨t, session, -, same⟩ := handOver?_eq_some handed
  have given : (r.hire client identity).dispatch identity job = r' := by
    simp only [Router.dispatch, handed]
  rw [given]
  refine ⟨thins.attended, ?_, ?_, thins.joined, thins.draining⟩
  · rw [same]
    exact (names_put_perm attended _ session).trans (added.map Prod.fst)
  · rw [same]
    rfl

/-! ### Workers at work -/

/-- A worker may go on as long as it keeps its name and its inbox is left as it is. -/
theorem Attended.adjust (h : r.Attended) {worker : String} {t : Thread α}
    (found : r.thread? worker = some t) {f : Thread α → Thread α}
    (named : ∀ u, u.identity = worker → (f u).identity = worker)
    (kept : (f t).inboxOpen = t.inboxOpen) :
    r.Thins (r.adjust worker f) := by
  have session (u : Thread α) (present : KeyTable.value? worker r.sessions = some u) :
      u = t ∧ u.identity = worker ∧ u.inboxOpen = true := by
    unfold thread? at found
    rw [present, Option.orElse_some] at found
    cases found
    exact ⟨rfl, h.keys _ (KeyTable.mem_of_value? present),
      h.takes _ (KeyTable.mem_of_value? present)⟩
  have names : (r.adjust worker f).retired.map Thread.identity =
      r.retired.map Thread.identity := by
    simp only [Router.adjust, List.map_map]
    apply List.map_congr_left
    intro u _
    by_cases same : u.identity = worker
    · simp [same, named u same]
    · simp [same]
  refine ⟨⟨h.ascending.adjust worker f, ?_, ?_⟩, ⟨[], ?_, ?_⟩, rfl, id⟩
  · intro entry member
    rcases KeyTable.mem_adjust member with old | ⟨u, present, rfl⟩
    · exact h.keys entry old
    · exact named u (session u present).2.1
  · intro entry member
    rcases KeyTable.mem_adjust member with old | ⟨u, present, rfl⟩
    · exact h.takes entry old
    · obtain ⟨rfl, -, takes⟩ := session u present
      exact kept.trans takes
  · rw [Router.adjust, KeyTable.names_adjust]
    exact .refl _
  · rw [names]
    exact .refl _

end Router

end SessionRelay.Broker
