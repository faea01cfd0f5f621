import SessionRelay.Broker.Relay
import SessionRelay.Broker.Schedule
import SessionRelay.Proofs.Broker.Reasons
import SessionRelay.Proofs.Client.Conversation
import SessionRelay.Proofs.Wire.Names

/-!
Only a caller stops a scenario. No response of the daemon says that the caller gave up: a client
takes its successes for successes, and each of its failures for a rejection with the message that
the daemon gave.
-/

namespace SessionRelay

open Backend Wire

namespace Wire.Response

theorem Forthright.isAbort_eq_false {r : Response} (h : r.Forthright) : r.isAbort = false := by
  cases succeeded : r.success with
  | true => simp [isAbort, succeeded]
  | false =>
    obtain ⟨reason, phrase, same⟩ := h.reason succeeded
    have said : r.message = some reason := congrArg Response.message same
    have other := phrase.ne_abort
    simp [isAbort, said, other]

/-- A failure is read as it was written. -/
theorem Forthright.decodePayload_eq {r : Response} (h : r.Forthright)
    (failure : r.success = false) :
    Codec.decodePayload Response.take r.toValue.bytes = .ok r := by
  obtain ⟨reason, -, same⟩ := h.reason failure
  rw [same]
  exact Response.decodePayload_eq (portable_failed r.worker reason r.requestId h.short)

end Wire.Response

namespace Client

/-- What a client makes of a response of the daemon when it hears it: a success is taken for one,
and a failure for a rejection with the message of the daemon. -/
inductive Understands (said heard : Response) : Prop where
  | success : said.success = true → classify heard = .ok heard → Understands said heard
  | failure (message : String) : said.success = false → said.message = some message →
    classify heard = .error (.rejected message) → Understands said heard

/-- A response that no client takes for its own giving up, whether it is passed on or written and
read. A failure can always be read. -/
structure Faithful (said : Response) : Prop where
  isAbort : said.isAbort = false
  classified : Understands said said
  read : ∀ heard, Codec.decodePayload Response.take said.toValue.bytes = .ok heard →
    Understands said heard
  readable : said.success = false →
    Codec.decodePayload Response.take said.toValue.bytes = .ok said

theorem faithful_of_forthright {said : Response} (h : said.Forthright) : Faithful said := by
  have classified : Understands said said := by
    cases success : said.success with
    | true => exact .success success (by simp [classify, success])
    | false =>
      obtain ⟨reason, -, same⟩ := h.reason success
      have told : said.message = some reason := congrArg Response.message same
      exact .failure reason success told (by simp [classify, success, h.isAbort_eq_false, told])
  refine ⟨h.isAbort_eq_false, classified, fun heard read => ?_, h.decodePayload_eq⟩
  cases success : said.success with
  | true =>
    exact .success success (by simp [classify, Response.success_of_decodePayload success read])
  | false =>
    cases (h.decodePayload_eq success).symm.trans read
    exact classified

/-- Of what a client was told, a failure is all that it takes for an error, and never for its own
giving up. -/
theorem Faithful.error_eq {said heard : Response} (h : Faithful said) {e : Error}
    (read : Codec.decodePayload Response.take said.toValue.bytes = .ok heard)
    (classified : classify heard = .error e) :
    ∃ message, said.success = false ∧ said.message = some message ∧ e = .rejected message := by
  cases h.read heard read with
  | success _ taken =>
    rw [taken] at classified
    cases classified
  | failure message failure told taken =>
    rw [taken] at classified
    exact ⟨message, failure, told, (Except.error.inj classified).symm⟩

theorem classify_of_isAbort {r : Response} (given : r.isAbort = true) :
    classify r = .error .stopped := by
  have failure : r.success = false := by
    simp only [Response.isAbort, Bool.and_eq_true, Bool.not_eq_true'] at given
    exact given.1
  simp [classify, failure, given]

/-- A client that has made some calls on a connection, one after the other: its session, and what is
left of the arrivals. -/
inductive Session.Reaches (codec : Codec) (arrivals : List Arrival) :
    Session → List Arrival → Prop where
  | new : Reaches codec arrivals (.new codec) arrivals
  | call {s s' : Session} {request : Request} {requestId : String} {rest rest' : List Arrival}
    {result : Option (Except Error Response)} :
    Reaches codec arrivals s rest → s.call request requestId rest = (result, s', rest') →
    Reaches codec arrivals s' rest'

theorem Session.Reaches.awaits {payloads : List Bytes}
    (short : ∀ p ∈ payloads, p.length < 0x100000000) {codec : Codec} {arrivals rest : List Arrival}
    {s : Session} (reaches : Reaches codec arrivals s rest)
    (cut : bytesOf arrivals <+: payloads.flatMap framed) :
    Awaits payloads s.frames (bytesOf rest) := by
  induction reaches with
  | new => exact ⟨payloads, List.suffix_rfl, cut⟩
  | call _ called ih => exact (call_hears short _ _ _ ih called).1

end Client

namespace Broker

open Client

variable {α : Type}

/-- The broker decided on an answer for a client, and a response stands for it. -/
def Told (codec : Codec) (d : Daemon α) (client : Nat) (said : Response) : Prop :=
  ∃ answer, .answered client answer ∈ d.router.journal ∧ StandsFor codec answer said

/-- Where the error of a client's call comes from. The caller gave up, and nothing that had arrived
by then is left; or the broker told the client a failure; or no response tells it. -/
inductive ErrorSource (codec : Codec) (d : Daemon α) (client : Nat)
    (arrivals rest : List Client.Arrival) : Client.Error → Prop where
  | stopped (used : List Client.Arrival) : arrivals = used ++ .cancelled :: rest →
    ErrorSource codec d client arrivals rest .stopped
  | rejected (said : Response) (message : String) : Told codec d client said →
    said.success = false → said.message = some message →
    ErrorSource codec d client arrivals rest (.rejected message)
  | other (e : Client.Error) : ¬ e.IsVerdict → ErrorSource codec d client arrivals rest e

/-- What clients can rely on: no response that the broker passes on or builds says that the caller
gave up, and every frame is that of one of them. A client that hears some of its frames, cut in
whatever way, stops only when it gives up itself, and is rejected only by a failure that it was
told. -/
structure LeavesStopping (limit : Nat) (d : Daemon α) : Prop where
  faithful : ∀ client said, Told ⟨limit⟩ d client said → Faithful said
  sent : ∀ client frame, .sent client frame ∈ d.router.journal →
    ∃ said, Told ⟨limit⟩ d client said ∧ Codec.encode ⟨limit⟩ said.toValue = .ok frame
  calls : limit < 0x100000000 → ∀ client arrivals, bytesOf arrivals <+: (d.sentTo client).flatten →
    ∀ codec s rest, Session.Reaches codec arrivals s rest →
      ∀ request requestId e s' rest',
        s.call request requestId rest = (some (.error e), s', rest') →
        ErrorSource ⟨limit⟩ d client rest rest' e

theorem mem_sentTo {d : Daemon α} {client : Nat} {frame : Bytes} :
    frame ∈ d.sentTo client ↔ .sent client frame ∈ d.router.journal := by
  simp only [Daemon.sentTo, List.mem_filterMap, List.mem_reverse]
  constructor
  · rintro ⟨effect, inside, kept⟩
    cases effect with
    | sent c f =>
      simp only [Option.ite_none_right_eq_some, Option.some.injEq] at kept
      obtain ⟨rfl, rfl⟩ := kept
      exact inside
    | _ => cases kept
  · exact fun inside => ⟨_, inside, if_pos rfl⟩

/-- The frames that a client is sent are its payloads, framed. -/
theorem sentTo_eq_map {limit : Nat} {d : Daemon α} {client : Nat}
    (sent : ∀ frame, .sent client frame ∈ d.router.journal →
      ∃ said, Told ⟨limit⟩ d client said ∧ Codec.encode ⟨limit⟩ said.toValue = .ok frame) :
    ∃ payloads : List Bytes, d.sentTo client = payloads.map framed ∧
      ∀ payload ∈ payloads, payload.length ≤ limit ∧
        ∃ said, Told ⟨limit⟩ d client said ∧ payload = said.toValue.bytes := by
  have each : ∀ frame ∈ d.sentTo client, ∃ payload, frame = framed payload ∧
      payload.length ≤ limit ∧
        ∃ said, Told ⟨limit⟩ d client said ∧ payload = said.toValue.bytes := by
    intro frame inside
    obtain ⟨said, told, encoded⟩ := sent frame (mem_sentTo.mp inside)
    obtain ⟨same, fits⟩ := eq_framed encoded
    exact ⟨_, same, fits, said, told, rfl⟩
  generalize d.sentTo client = frames at each
  induction frames with
  | nil => exact ⟨[], rfl, List.forall_mem_nil _⟩
  | cons frame rest ih =>
    obtain ⟨⟨payload, rfl, told⟩, others⟩ := List.forall_mem_cons.mp each
    obtain ⟨payloads, rfl, all⟩ := ih others
    exact ⟨payload :: payloads, rfl, List.forall_mem_cons.mpr ⟨told, all⟩⟩

theorem errorSource_of_call {limit : Nat} {d : Daemon α} {client : Nat}
    (faithful : ∀ said, Told ⟨limit⟩ d client said → Faithful said) {payloads : List Bytes}
    (told : ∀ payload ∈ payloads, ∃ said, Told ⟨limit⟩ d client said ∧
      payload = said.toValue.bytes)
    (short : ∀ p ∈ payloads, p.length < 0x100000000) {s s' : Session}
    {rest rest' : List Client.Arrival} (awaits : Awaits payloads s.frames (bytesOf rest))
    {request : Request} {requestId : String} {e : Client.Error}
    (called : s.call request requestId rest = (some (.error e), s', rest')) :
    ErrorSource ⟨limit⟩ d client rest rest' e := by
  by_cases verdict : e.IsVerdict
  · obtain ⟨-, heard⟩ := Session.call_hears short s request requestId awaits called
    obtain ⟨r, source, classified⟩ := heard e rfl verdict
    rcases source with ⟨payload, inside, decoded⟩ | ⟨⟨used, same⟩, given⟩
    · obtain ⟨said, tells, rfl⟩ := told payload inside
      obtain ⟨message, failure, why, rfl⟩ := (faithful said tells).error_eq decoded classified
      exact .rejected said message tells failure why
    · cases (classify_of_isAbort given).symm.trans classified
      exact .stopped used same
  · exact .other e verdict

theorem Daemon.Forthright.leavesStopping {limit : Nat} {d : Daemon α}
    (h : d.Forthright ⟨limit⟩) : LeavesStopping limit d := by
  have faithful (client : Nat) (said : Response) (told : Told ⟨limit⟩ d client said) :
      Faithful said := by
    obtain ⟨answer, inside, stands⟩ := told
    exact faithful_of_forthright (stands.forthright (h.said client answer inside))
  have sent (client : Nat) (frame : Bytes) (inside : .sent client frame ∈ d.router.journal) :
      ∃ said, Told ⟨limit⟩ d client said ∧ Codec.encode ⟨limit⟩ said.toValue = .ok frame := by
    obtain ⟨later, older, split⟩ := List.append_of_mem inside
    obtain ⟨answer, said, answered, stands, encoded⟩ := h.framed.answer_mem split
    exact ⟨said, ⟨answer, answered, stands⟩, encoded⟩
  refine ⟨faithful, sent, ?_⟩
  intro fits client arrivals cut codec s rest reaches request requestId e s' rest' called
  obtain ⟨payloads, same, told⟩ := sentTo_eq_map (sent client)
  have short (p : Bytes) (inside : p ∈ payloads) : p.length < 0x100000000 :=
    Nat.lt_of_le_of_lt (told p inside).1 fits
  rw [same, ← List.flatMap_def] at cut
  have awaits := reaches.awaits short cut
  exact errorSource_of_call (faithful client) (fun p inside => (told p inside).2) short awaits
    called

/-- Whatever is asked, however the backend fails and whichever workers crash, the daemon never tells
a client that the caller gave up. -/
theorem only_callers_stop {address : String} {limit pollInterval drainTimeout : Nat}
    {recruit : Nat → Except String String} {backend : Rehearsal} {epoch : Int}
    {trace : List (Daemon Integration.Family × Move)} {d : Daemon Integration.Family}
    (run : Run (.start (.relay address limit recruit pollInterval drainTimeout) backend epoch)
      trace d) : LeavesStopping limit d :=
  (run.forthright (Daemon.forthright_start _ backend epoch)).leavesStopping

/-- A request in which nothing is said but that somebody gave up. -/
def givingUp : Request :=
  ⟨abortMessage, abortMessage, some abortMessage, ⟨[("url", .string abortMessage)]⟩,
    some (.string abortMessage)⟩

/-- The error that a call ends with, and what it leaves of the arrivals. -/
def errorOf? : Option (Except Client.Error Response) × Session × List Client.Arrival →
    Option (Client.Error × List Client.Arrival)
  | (some (.error e), _, rest) => some (e, rest)
  | _ => none

theorem exists_of_errorOf? {called : Option (Except Client.Error Response) × Session ×
    List Client.Arrival} {e : Client.Error} {rest : List Client.Arrival}
    (same : errorOf? called = some (e, rest)) : ∃ s, called = (some (.error e), s, rest) := by
  unfold errorOf? at same
  split at same
  · cases same
    exact ⟨_, rfl⟩
  · cases same

/-- A client that asks a worker of that name is rejected, and knows by whom. -/
theorem unknown_worker_rejects : ∃ trace d s, Run (.start (.forOne "w") .empty 0) trace d ∧
    (Session.new .standard).call givingUp abortMessage [.bytes (d.sentTo 1).flatten] =
      (some (.error (.rejected "worker abort is no longer available")), s, []) ∧
    ErrorSource ⟨4096⟩ d 1 [.bytes (d.sentTo 1).flatten] []
      (.rejected "worker abort is no longer available") := by
  have moved : ((Daemon.start (.forOne "w") .empty 0).run?
      [.connect "127.0.0.1:1", .read 1 (.ofRequest givingUp), .takeArrival]).map
      (fun d => errorOf? ((Session.new .standard).call givingUp abortMessage
        [.bytes (d.sentTo 1).flatten])) =
      some (some (.rejected "worker abort is no longer available", [])) := by
    simp only [Daemon.run?, Daemon.step?, Router.onArrival, Router.route, Router.dispatch,
      Router.reply, Session.call, Codec.encode, Chunk.ofRequest, Json.Value.bytes_eq]
    decide +kernel
  obtain ⟨trace, d, run, ended⟩ := Run.exists_of_run? moved
  obtain ⟨s, called⟩ := exists_of_errorOf? ended
  refine ⟨trace, d, s, run, called, ?_⟩
  have cut : bytesOf [.bytes (d.sentTo 1).flatten] <+: (d.sentTo 1).flatten :=
    ⟨[], by rw [bytesOf, bytesOf, List.append_nil, List.append_nil]⟩
  exact (only_callers_stop run).calls (by decide) 1 _ cut _ _ _ .new _ _ _ _ _ called

end Broker

end SessionRelay
