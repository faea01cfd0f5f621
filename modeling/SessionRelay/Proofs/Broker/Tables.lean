import SessionRelay.Proofs.Broker.Journal

/-!
The table of pending jobs as a mirror. For each worker it holds, in order, the jobs whose answers
are reported and not taken, and then those that the worker still owes. Hence a report strikes off
the very job that it answers, and nothing is left over when a worker has gone.
-/

namespace SessionRelay.Broker

open Wire Worker Integration

/-- The ticket of the answer that is due for a pending job. -/
def PendingJob.ticket (worker : String) (job : PendingJob) : Ticket :=
  ⟨job.client, reference job.requestId, worker⟩

/-- The tickets that are due from a worker, oldest first. -/
def dueFrom (worker : String) (pending : KeyTable (List PendingJob)) : List Ticket :=
  ((KeyTable.value? worker pending).getD []).map (PendingJob.ticket worker)

/-- All tickets that are due. -/
def due (pending : KeyTable (List PendingJob)) : List Ticket :=
  pending.flatMap fun entry => entry.2.map (PendingJob.ticket entry.1)

@[simp] theorem due_nil : due [] = [] := rfl

section Due

variable (worker : String) (jobs : List PendingJob) (pending : KeyTable (List PendingJob))

theorem dueFrom_put_self :
    dueFrom worker (KeyTable.put worker jobs pending) = jobs.map (PendingJob.ticket worker) := by
  rw [dueFrom, KeyTable.value?_put_self, Option.getD_some]

theorem dueFrom_put_ne {other : String} (h : other ≠ worker) :
    dueFrom other (KeyTable.put worker jobs pending) = dueFrom other pending := by
  rw [dueFrom, KeyTable.value?_put_ne h, dueFrom]

theorem dueFrom_without_self : dueFrom worker (KeyTable.without worker pending) = [] := by
  rw [dueFrom, KeyTable.value?_without_self]
  rfl

theorem dueFrom_without_ne {other : String} (h : other ≠ worker) :
    dueFrom other (KeyTable.without worker pending) = dueFrom other pending := by
  rw [dueFrom, KeyTable.value?_without_ne h, dueFrom]

variable {pending} (ascending : KeyTable.Ascending pending)
include ascending

theorem due_put_perm :
    (due (KeyTable.put worker jobs pending)).Perm
      (jobs.map (PendingJob.ticket worker) ++ due (KeyTable.without worker pending)) :=
  (KeyTable.put_perm ascending worker jobs).flatMap_right _

theorem due_perm :
    (due pending).Perm (dueFrom worker pending ++ due (KeyTable.without worker pending)) := by
  cases found : KeyTable.value? worker pending with
  | none =>
    rw [dueFrom, found, KeyTable.without_eq_self (KeyTable.value?_eq_none_iff.mp found)]
    exact List.Perm.refl _
  | some jobs =>
    rw [dueFrom, found]
    exact (KeyTable.perm_of_value? ascending found).flatMap_right _

/-- A job that comes last in its queue makes one more ticket due. -/
theorem due_push_perm (job : PendingJob) :
    (due (KeyTable.put worker (((KeyTable.value? worker pending).getD []) ++ [job]) pending)).Perm
      (job.ticket worker :: due pending) := by
  refine (due_put_perm worker _ ascending).trans ?_
  rw [List.map_append, List.append_assoc]
  exact List.perm_middle.trans ((due_perm worker ascending).symm.cons _)

end Due

theorem length_due (pending : KeyTable (List PendingJob)) :
    (due pending).length = (pending.flatMap (·.2)).length := by
  rw [due, List.length_flatMap, List.length_flatMap]
  congr 1
  exact List.map_congr_left fun entry _ => List.length_map _

/-! ### The mirror -/

section Mirror

variable {α : Type} [Service α] [Accountable α]

/-- What is due from each worker is what is reported of it and then what it owes; nothing is due
from, or reported of, anybody else. -/
structure Mirrors (staff : List (Thread α)) (owed : String → List Ticket) (reports : List Event) :
    Prop where
  distinct : (staff.map Thread.identity).Nodup
  sound : ∀ t ∈ staff, t.Sound
  mirror : ∀ t ∈ staff, owed t.identity =
    ticketsFrom t.identity reports ++ t.unanswered.map (Job.ticket t.identity)
  strangers : ∀ worker, worker ∉ staff.map Thread.identity →
    owed worker = [] ∧ ticketsFrom worker reports = []

variable {staff others : List (Thread α)} {t t' : Thread α} {owed owed' : String → List Ticket}
  {reports : List Event}

theorem Mirrors.perm (h : Mirrors staff owed reports) {staff' : List (Thread α)}
    (p : staff.Perm staff') : Mirrors staff' owed reports := by
  have names := p.map Thread.identity
  refine ⟨names.nodup_iff.mp h.distinct, ?_, ?_, ?_⟩
  · intro t member
    exact h.sound t (p.mem_iff.mpr member)
  · intro t member
    exact h.mirror t (p.mem_iff.mpr member)
  · intro worker stranger
    exact h.strangers worker fun member => stranger (names.mem_iff.mp member)

omit [Service α] [Accountable α] in
/-- The others of a staff without doubles have other identities. -/
theorem ne_of_distinct (h : ((t :: others).map Thread.identity).Nodup) {u : Thread α}
    (member : u ∈ others) : u.identity ≠ t.identity := by
  intro same
  exact (List.nodup_cons.mp h).1 (same ▸ List.mem_map_of_mem member)

/-- One worker goes on and reports what it does. -/
theorem Mirrors.continue (h : Mirrors (t :: others) owed reports) {events : List Event}
    (c : t.Continues events t') : Mirrors (t' :: others) owed (reports ++ events) := by
  have same : (t' :: others).map Thread.identity = (t :: others).map Thread.identity := by
    simp only [List.map_cons, c.identity]
  refine ⟨same ▸ h.distinct, ?_, ?_, ?_⟩
  · intro u member
    rcases List.mem_cons.mp member with rfl | later
    · exact c.sound
    · exact h.sound u (List.mem_cons_of_mem _ later)
  · intro u member
    rw [ticketsFrom_append]
    rcases List.mem_cons.mp member with rfl | later
    · rw [c.identity, h.mirror t List.mem_cons_self, c.tickets, List.append_assoc]
    · rw [c.others _ (ne_of_distinct h.distinct later), List.append_nil]
      exact h.mirror u (List.mem_cons_of_mem _ later)
  · intro worker stranger
    rw [same] at stranger
    have different : worker ≠ t.identity := fun equal => stranger (equal ▸ List.mem_cons_self)
    rw [ticketsFrom_append, c.others worker different, List.append_nil]
    exact h.strangers worker stranger

/-- A worker joins that owes nothing. -/
theorem Mirrors.hire (h : Mirrors staff owed reports) (sound : t.Sound)
    (new : t.identity ∉ staff.map Thread.identity) (idle : t.unanswered = []) :
    Mirrors (t :: staff) owed reports := by
  refine ⟨List.nodup_cons.mpr ⟨new, h.distinct⟩, ?_, ?_, ?_⟩
  · intro u member
    rcases List.mem_cons.mp member with rfl | old
    · exact sound
    · exact h.sound u old
  · intro u member
    rcases List.mem_cons.mp member with rfl | old
    · rw [(h.strangers u.identity new).1, (h.strangers u.identity new).2, idle]
      rfl
    · exact h.mirror u old
  · intro worker stranger
    exact h.strangers worker fun member => stranger (List.mem_cons_of_mem _ member)

/-- One worker gets a job, and its ticket becomes due. -/
theorem Mirrors.handOver (h : Mirrors (t :: others) owed reports) {job : Job}
    (identity : t'.identity = t.identity) (sound : t'.Sound)
    (last : t'.unanswered = t.unanswered ++ [job])
    (self : owed' t.identity = owed t.identity ++ [job.ticket t.identity])
    (rest : ∀ worker, worker ≠ t.identity → owed' worker = owed worker) :
    Mirrors (t' :: others) owed' reports := by
  have same : (t' :: others).map Thread.identity = (t :: others).map Thread.identity := by
    simp only [List.map_cons, identity]
  refine ⟨same ▸ h.distinct, ?_, ?_, ?_⟩
  · intro u member
    rcases List.mem_cons.mp member with rfl | later
    · exact sound
    · exact h.sound u (List.mem_cons_of_mem _ later)
  · intro u member
    rcases List.mem_cons.mp member with rfl | later
    · rw [identity, self, last, h.mirror t List.mem_cons_self, List.map_append,
        List.append_assoc]
      rfl
    · rw [rest _ (ne_of_distinct h.distinct later)]
      exact h.mirror u (List.mem_cons_of_mem _ later)
  · intro worker stranger
    rw [same] at stranger
    rw [rest worker fun equal => stranger (equal ▸ List.mem_cons_self)]
    exact h.strangers worker stranger

/-- The first report that is an answer is the answer to the first ticket due from its worker. -/
theorem Mirrors.first_due {worker : String} {client : Nat} {response : Response}
    (h : Mirrors staff owed (.reply worker client response :: reports)) :
    ∃ rest, owed worker = ticketOf client response :: rest := by
  by_cases known : worker ∈ staff.map Thread.identity
  · obtain ⟨t, member, rfl⟩ := List.mem_map.mp known
    have mirror := h.mirror t member
    rw [ticketsFrom_reply_self, List.cons_append] at mirror
    exact ⟨_, mirror⟩
  · have none := (h.strangers worker known).2
    rw [ticketsFrom_reply_self] at none
    cases none

theorem Mirrors.strike {worker : String} {client : Nat} {response : Response}
    (h : Mirrors staff owed (.reply worker client response :: reports))
    (self : owed' worker = (owed worker).tail)
    (rest : ∀ other, other ≠ worker → owed' other = owed other) :
    Mirrors staff owed' reports := by
  refine ⟨h.distinct, h.sound, ?_, ?_⟩
  · intro t member
    have mirror := h.mirror t member
    by_cases same : t.identity = worker
    · subst same
      rw [self, mirror, ticketsFrom_reply_self]
      rfl
    · rw [rest _ same, mirror, ticketsFrom_reply_other (Ne.symm same)]
  · intro other stranger
    obtain ⟨nothing, unreported⟩ := h.strangers other stranger
    by_cases same : other = worker
    · subst same
      rw [ticketsFrom_reply_self] at unreported
      cases unreported
    · rw [ticketsFrom_reply_other (Ne.symm same)] at unreported
      exact ⟨(rest other same).trans nothing, unreported⟩

theorem Mirrors.stopped {worker : String}
    (h : Mirrors staff owed (.stopped worker :: reports)) : Mirrors staff owed reports :=
  ⟨h.distinct, h.sound, h.mirror, h.strangers⟩

/-- A worker leaves when all reports are taken, and what was due from it is due no more. -/
theorem Mirrors.leave (h : Mirrors (t :: others) owed [])
    (self : owed' t.identity = [])
    (rest : ∀ worker, worker ≠ t.identity → owed' worker = owed worker) :
    Mirrors others owed' [] := by
  refine ⟨(List.nodup_cons.mp h.distinct).2, ?_, ?_, ?_⟩
  · intro u member
    exact h.sound u (List.mem_cons_of_mem _ member)
  · intro u member
    rw [rest _ (ne_of_distinct h.distinct member)]
    exact h.mirror u (List.mem_cons_of_mem _ member)
  · intro worker stranger
    by_cases same : worker = t.identity
    · subst same
      exact ⟨self, rfl⟩
    · refine ⟨(rest worker same).trans ?_, rfl⟩
      refine (h.strangers worker ?_).1
      intro member
      rcases List.mem_cons.mp member with equal | later
      · exact same equal
      · exact stranger later

end Mirror

end SessionRelay.Broker
