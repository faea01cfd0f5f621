import SessionRelay.Proofs.Broker.Prompts
import SessionRelay.Proofs.Broker.Reader
import SessionRelay.Proofs.Client.Conversation

/-!
What the broker hears of a client that writes whole frames. In every run, all that is heard of it is
its payloads, or that one of them is too long.
-/

namespace SessionRelay.Broker

open Backend Wire Worker Integration

/-- The client that something is heard of. -/
def Arrival.client : Arrival → Nat
  | .frame client _ => client
  | .malformed client _ => client
  | .disconnected client => client

/-- What is heard of one who writes these payloads, each in its frame. -/
inductive Arrival.Stems (limit : Nat) (payloads : List Bytes) : Arrival → Prop where
  | frame {client : Nat} {payload : Bytes} :
    payload ∈ payloads → Stems limit payloads (.frame client payload)
  | malformed {client : Nat} {payload : Bytes} : payload ∈ payloads → limit < payload.length →
    Stems limit payloads
      (.malformed client (CodecError.lengthTooLarge payload.length limit).message)
  | disconnected {client : Nat} : Stems limit payloads (.disconnected client)

/-- A reader that will hear no more, or is to hear some of the last payloads. -/
def Reader.Follows (payloads : List Bytes) (more : Bytes) (r : Reader) : Prop :=
  r.isDone = true ∨ Client.Awaits payloads r.buffer more

section Reading

variable {payloads : List Bytes} (short : ∀ p ∈ payloads, p.length < 0x100000000)
  (nonempty : ∀ p ∈ payloads, p ≠ [])
include short nonempty

theorem drain_awaits (codec : Codec) {frames : FrameBuffer} {more : Bytes}
    (awaits : Client.Awaits payloads frames more) :
    (frames.drain codec).payloads ⊆ payloads ∧
      Client.Awaits payloads (frames.drain codec).left more ∧
      ∀ e, (frames.drain codec).refusal = some e → ∃ payload ∈ payloads,
        codec.limit < payload.length ∧ e = .lengthTooLarge payload.length codec.limit := by
  fun_induction FrameBuffer.drain frames codec with
  | case1 frames e refused =>
    refine ⟨List.nil_subset _, awaits, ?_⟩
    rintro e ⟨⟩
    obtain ⟨left, last, cut⟩ := awaits
    obtain ⟨payload, inside, long⟩ := refused_of_framed
      (fun p member => short p (last.subset member))
      (fun p member => nonempty p (last.subset member)) cut refused
    exact ⟨payload, last.subset inside, long⟩
  | case2 frames _ => exact ⟨List.nil_subset _, awaits, nofun⟩
  | case3 frames payload rest next later ih =>
    obtain ⟨left, last, cut⟩ := awaits
    obtain ⟨others, rfl, onward⟩ :=
      next_of_framed (fun p member => short p (last.subset member)) cut next
    obtain ⟨inside, after, refused⟩ :=
      ih ⟨others, (List.suffix_cons payload others).trans last, onward⟩
    exact ⟨List.cons_subset.mpr ⟨last.subset List.mem_cons_self, inside⟩, after, refused⟩

/-- A read gives payloads in turn, or that one is too long. -/
theorem Reader.take_follows {r : Reader} {codec : Codec} {chunk : Chunk} {more : Bytes}
    (follows : r.Follows payloads (chunk.content ++ more)) :
    (r.take codec chunk).1.Follows payloads more ∧
      ∀ a ∈ (r.take codec chunk).2, a.Stems codec.limit payloads := by
  have finished : (r.finish).1.Follows payloads more ∧
      ∀ a ∈ (r.finish).2, a.Stems codec.limit payloads := by
    refine ⟨Or.inl rfl, ?_⟩
    intro a member
    cases List.mem_singleton.mp member
    exact .disconnected
  unfold take
  split
  · next done => exact ⟨Or.inl done, List.forall_mem_nil _⟩
  · next running =>
    have awaits := follows.resolve_left running
    split
    · exact finished
    · next bytes _ =>
      obtain ⟨left, last, cut⟩ := awaits
      have pushed : Client.Awaits payloads (r.buffer.push bytes) more := by
        refine ⟨left, last, ?_⟩
        rwa [FrameBuffer.push, List.append_assoc]
      obtain ⟨inside, after, refused⟩ := drain_awaits short nonempty codec pushed
      have frames : ∀ a ∈ ((r.buffer.push bytes).drain codec).payloads.map (Arrival.frame r.client),
          a.Stems codec.limit payloads := by
        intro a member
        obtain ⟨payload, given, rfl⟩ := List.mem_map.mp member
        exact .frame (inside given)
      dsimp only
      split
      · exact ⟨Or.inr after, frames⟩
      · next e refusal =>
        obtain ⟨payload, written, long, rfl⟩ := refused e refusal
        refine ⟨Or.inl rfl, List.forall_mem_append.mpr ⟨frames, ?_⟩⟩
        exact List.forall_mem_cons.mpr ⟨.malformed written long, finished.2⟩
    · exact finished
    · split
      · exact ⟨Or.inr awaits, List.forall_mem_nil _⟩
      · exact finished

end Reading

theorem Reader.take_client (r : Reader) (codec : Codec) (chunk : Chunk) :
    (r.take codec chunk).1.client = r.client ∧
      ∀ a ∈ (r.take codec chunk).2, a.client = r.client := by
  have frames (payloads : List Bytes) :
      ∀ a ∈ payloads.map (Arrival.frame r.client), a.client = r.client := by
    intro a member
    obtain ⟨payload, -, rfl⟩ := List.mem_map.mp member
    rfl
  unfold take
  split
  · exact ⟨rfl, List.forall_mem_nil _⟩
  · split
    · simp [finish, Arrival.client]
    · dsimp only
      split
      · exact ⟨rfl, frames _⟩
      · refine ⟨rfl, List.forall_mem_append.mpr ⟨frames _, ?_⟩⟩
        simp [finish, Arrival.client]
    · simp [finish, Arrival.client]
    · split <;> simp [finish, Arrival.client]

variable {α : Type}

namespace Daemon

/-- What a move reads of a client that has been accepted. -/
def readBy (d : Daemon α) (client : Nat) : Move → Bytes
  | .read c chunk => if c = client ∧ client ≤ d.accepted then chunk.content else []
  | _ => []

/-- Readers are there only for clients that were accepted. -/
def Numbered (d : Daemon α) : Prop := ∀ r ∈ d.readers, r.client ≤ d.accepted

/-- What a move does to the readers and to what was heard. -/
inductive Intake (d : Daemon α) : Move → Daemon α → Prop where
  | accept {peer : String} {d' : Daemon α} : d'.readers = d.readers ++ [.new (d.accepted + 1)] →
    d'.accepted = d.accepted + 1 → d'.arrivals = d.arrivals → Intake d (.connect peer) d'
  | read {client : Nat} {chunk : Chunk} : Intake d (.read client chunk) (d.hear client chunk)
  | other {m : Move} {d' : Daemon α} : (∀ client, d.readBy client m = []) →
    d'.readers = d.readers → d'.accepted = d.accepted →
    d.arrivals = (d.taken? m).toList ++ d'.arrivals → Intake d m d'

theorem inlet_check (d : Daemon α) : d.check.readers = d.readers ∧
    d.check.accepted = d.accepted ∧ d.check.arrivals = d.arrivals := by
  have noticed : d.notice.readers = d.readers ∧ d.notice.accepted = d.accepted ∧
      d.notice.arrivals = d.arrivals := by
    unfold notice
    split <;> exact ⟨rfl, rfl, rfl⟩
  unfold check
  dsimp only
  split
  · exact noticed
  · split
    · exact noticed
    · split <;> exact noticed

variable {d d' : Daemon α} {m : Move}

theorem mem_readers_hear {client : Nat} {chunk : Chunk} {r : Reader}
    (member : r ∈ (d.hear client chunk).readers) :
    ∃ old ∈ d.readers, old.client = client ∧ r = (old.take d.router.setup.codec chunk).1 ∨
      old.client ≠ client ∧ r = old := by
  simp only [hear, List.map_map, List.mem_map, Function.comp_apply] at member
  obtain ⟨old, inside, rfl⟩ := member
  refine ⟨old, inside, ?_⟩
  split
  · next own => exact Or.inl ⟨own, rfl⟩
  · next other => exact Or.inr ⟨other, rfl⟩

theorem mem_arrivals_hear {client : Nat} {chunk : Chunk} {a : Arrival}
    (member : a ∈ (d.hear client chunk).arrivals) :
    a ∈ d.arrivals ∨
      ∃ r ∈ d.readers, r.client = client ∧ a ∈ (r.take d.router.setup.codec chunk).2 := by
  simp only [hear, List.mem_append, List.mem_flatMap, List.mem_map] at member
  refine member.imp_right ?_
  rintro ⟨heard, ⟨r, inside, rfl⟩, given⟩
  refine ⟨r, inside, ?_⟩
  split at given
  · next own => exact ⟨own, given⟩
  · cases given

theorem Intake.numbered (intake : d.Intake m d') (h : d.Numbered) : d'.Numbered := by
  intro r member
  cases intake with
  | accept readers accepted _ =>
    rw [readers] at member
    rw [accepted]
    rcases List.mem_append.mp member with old | new
    · exact Nat.le_succ_of_le (h r old)
    · cases List.mem_singleton.mp new
      exact Nat.le_refl _
  | read =>
    obtain ⟨old, inside, ⟨-, rfl⟩ | ⟨-, rfl⟩⟩ := mem_readers_hear member
    · rw [(old.take_client _ _).1]
      exact h old inside
    · exact h _ inside
  | other _ readers accepted _ =>
    rw [readers] at member
    rw [accepted]
    exact h r member

theorem Intake.accepted_le (intake : d.Intake m d') : d.accepted ≤ d'.accepted := by
  cases intake with
  | accept _ accepted _ => exact accepted ▸ Nat.le_succ _
  | read => exact Nat.le_refl _
  | other _ _ accepted _ => exact Nat.le_of_eq accepted.symm

theorem readBy_eq_nil {client : Nat} (later : d.accepted < client) (m : Move) :
    d.readBy client m = [] := by
  unfold readBy
  split
  · rw [if_neg fun reads => Nat.not_le_of_lt later reads.2]
  · rfl

/-- All that is heard of a client is of the payloads that it writes, and so will be what is to be
heard of it. -/
structure Attends (limit : Nat) (payloads : List Bytes) (more : Bytes) (client : Nat)
    (taken : List Arrival) (d : Daemon α) : Prop where
  readers : ∀ r ∈ d.readers, r.client = client → r.Follows payloads more
  heard : ∀ a, a ∈ taken ∨ a ∈ d.arrivals → a.client = client → a.Stems limit payloads

section Steps

variable {payloads : List Bytes} {more : Bytes} {client : Nat} {taken : List Arrival}

/-- A client that the broker accepts begins with its first payload. -/
theorem Attends.step (short : ∀ p ∈ payloads, p.length < 0x100000000)
    (nonempty : ∀ p ∈ payloads, p ≠ [])
    (h : d.Attends d.router.setup.codec.limit payloads (d.readBy client m ++ more) client taken)
    (numbered : d.Numbered) (begins : d.accepted < client → more <+: payloads.flatMap framed)
    (intake : d.Intake m d') :
    d'.Attends d.router.setup.codec.limit payloads more client
      ((d.taken? m).toList ++ taken) := by
  cases intake with
  | accept readers accepted arrivals =>
    constructor
    case readers =>
      intro r member own
      rw [readers] at member
      rcases List.mem_append.mp member with old | new
      · exact h.readers r old own
      · cases List.mem_singleton.mp new
        have later : d.accepted < client := own ▸ Nat.lt_succ_self _
        exact Or.inr ⟨payloads, List.suffix_rfl, begins later⟩
    case heard =>
      rw [arrivals]
      exact h.heard
  | @read c chunk =>
    have reads {r : Reader} (inside : r ∈ d.readers) (own : r.client = c)
        (same : r.client = client) : r.Follows payloads (chunk.content ++ more) := by
      have follows := h.readers r inside same
      have before : c = client ∧ client ≤ d.accepted :=
        ⟨own.symm.trans same, same ▸ numbered r inside⟩
      rwa [readBy, if_pos before] at follows
    constructor
    case readers =>
      intro r member own
      obtain ⟨old, inside, ⟨reader, rfl⟩ | ⟨other, rfl⟩⟩ := mem_readers_hear member
      · rw [(old.take_client _ _).1] at own
        exact (Reader.take_follows short nonempty (reads inside reader own)).1
      · have follows := h.readers _ inside own
        have elsewhere : ¬ (c = client ∧ client ≤ d.accepted) := fun same =>
          other (own.trans same.1.symm)
        rwa [readBy, if_neg elsewhere] at follows
    case heard =>
      rintro a (before | member) own
      · exact h.heard a (Or.inl before) own
      · rcases mem_arrivals_hear member with old | ⟨r, inside, reader, given⟩
        · exact h.heard a (Or.inr old) own
        · have same : r.client = client := ((r.take_client _ _).2 a given).symm.trans own
          exact (Reader.take_follows short nonempty (reads inside reader same)).2 a given
  | other silent readers accepted arrivals =>
    constructor
    case readers =>
      intro r member own
      rw [readers] at member
      have follows := h.readers r member own
      rwa [silent client] at follows
    case heard =>
      intro a member own
      refine h.heard a ?_ own
      rw [arrivals]
      simp only [List.mem_append] at member ⊢
      tauto

end Steps

variable [Service α]

theorem intake_of_step? (moved : d.step? m = some d') : d.Intake m d' := by
  cases m with
  | connect peer =>
    simp only [step?] at moved
    split at moved <;> cases moved
    exact .accept rfl rfl rfl
  | read client chunk =>
    simp only [step?] at moved
    split at moved <;> cases moved
    exact .read
  | lose client reason =>
    cases moved
    exact .other (fun _ => rfl) rfl rfl rfl
  | requestShutdown =>
    cases moved
    exact .other (fun _ => rfl) rfl rfl rfl
  | pass now =>
    simp only [step?] at moved
    split at moved <;> cases moved
    exact .other (fun _ => rfl) rfl rfl rfl
  | crash worker =>
    cases moves_of_step? moved with
    | quiet outside => exact outside.elim
    | crash => exact .other (fun _ => rfl) rfl rfl rfl
  | change f =>
    cases moved
    exact .other (fun _ => rfl) rfl rfl rfl
  | work worker =>
    cases moves_of_step? moved with
    | quiet outside => exact outside.elim
    | work => exact .other (fun _ => rfl) rfl rfl rfl
  | takeArrival =>
    cases moves_of_step? moved with
    | quiet outside => exact outside.elim
    | arrive _ first => exact .other (fun _ => rfl) rfl rfl (by rw [taken?, first]; rfl)
  | takeReport =>
    cases moves_of_step? moved with
    | quiet outside => exact outside.elim
    | hear => exact .other (fun _ => rfl) rfl rfl rfl
  | idle =>
    simp only [step?] at moved
    split at moved <;> cases moved
    exact .other (fun _ => rfl) rfl rfl rfl
  | proceed =>
    cases moves_of_step? moved with
    | quiet outside => exact outside.elim
    | check =>
      obtain ⟨readers, accepted, arrivals⟩ := d.inlet_check
      exact .other (fun _ => rfl) readers accepted arrivals.symm
    | reap => exact .other (fun _ => rfl) rfl rfl rfl
    | heed => exact .other (fun _ => rfl) rfl rfl rfl
    | dismiss => exact .other (fun _ => rfl) rfl rfl rfl
    | join => exact .other (fun _ => rfl) rfl rfl rfl
    | conclude => exact .other (fun _ => rfl) rfl rfl rfl

end Daemon

/-! ### Runs -/

/-- The bytes that were read of a client since it was accepted. -/
def readOf (client : Nat) (trace : List (Daemon α × Move)) : Bytes :=
  trace.reverse.flatMap fun (d, m) => d.readBy client m

theorem readOf_cons (client : Nat) (d : Daemon α) (m : Move) (trace : List (Daemon α × Move)) :
    readOf client ((d, m) :: trace) = readOf client trace ++ d.readBy client m := by
  simp [readOf]

section Runs

variable [Service α] {setup : Setup α} {backend : Rehearsal} {epoch : Int} {d : Daemon α}
  {trace : List (Daemon α × Move)}

theorem Run.numbered (run : Run (.start setup backend epoch) trace d) : d.Numbered := by
  induction run with
  | start => exact List.forall_mem_nil _
  | step _ moved ih => exact (Daemon.intake_of_step? moved).numbered ih

theorem Run.readOf_eq_nil (run : Run (.start setup backend epoch) trace d) {client : Nat}
    (later : d.accepted < client) : readOf client trace = [] := by
  induction run with
  | start => rfl
  | @step trace d d' m _ moved ih =>
    have before := Nat.lt_of_le_of_lt (Daemon.intake_of_step? moved).accepted_le later
    rw [readOf_cons, ih before, Daemon.readBy_eq_nil before m]
    rfl

/-- If what is read of a client begins the frames of some payloads, then what is heard of it is of
these payloads. -/
theorem Run.attends [Accountable α] (run : Run (.start setup backend epoch) trace d)
    (sound : (Daemon.start setup backend epoch).Sound) {client : Nat} {payloads : List Bytes}
    (short : ∀ p ∈ payloads, p.length < 0x100000000) (nonempty : ∀ p ∈ payloads, p ≠ [])
    {more : Bytes} (written : readOf client trace ++ more <+: payloads.flatMap framed) :
    d.Attends setup.codec.limit payloads more client (arrivalsTaken trace) := by
  -- what a move reads was still to come before it
  induction run generalizing more with
  | start =>
    refine ⟨List.forall_mem_nil _, ?_⟩
    rintro a (taken | waits)
    · cases taken
    · cases waits
  | @step trace d d' m run moved ih =>
    rw [readOf_cons, List.append_assoc] at written
    have same : d.router.setup = setup := (run.sound sound).2.setup
    have before := ih written
    rw [← same] at before ⊢
    rw [arrivalsTaken_cons]
    refine before.step short nonempty run.numbered ?_ (Daemon.intake_of_step? moved)
    intro later
    rwa [run.readOf_eq_nil later, Daemon.readBy_eq_nil later m, List.nil_append, List.nil_append]
      at written

end Runs

end SessionRelay.Broker
