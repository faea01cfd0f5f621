import SessionRelay.Proofs.Broker.Inlet
import SessionRelay.Proofs.Client.Pinning
import SessionRelay.Proofs.Client.Stops

/-!
Which answer ends which call. A client calls the broker again and again on one connection, gives up
some of its calls, and hears the answers to these later. An answer that names a request ends the
call of this request and no other. But what the broker cannot read it cannot name: its refusal of a
frame names no request, and ends whichever call hears it.
-/

namespace SessionRelay

open Backend Wire Worker Integration

namespace Client

namespace Session

/-- The request that a call sends, if it can be written. -/
def sends (s : Session) (request : Request) (requestId : String) : List Request :=
  match s.codec.encode (s.address request requestId).toValue with
  | .ok _ => [s.address request requestId]
  | .error _ => []

/-- A client that has made some calls on a connection, one after the other, each under a name of its
own: the requests that it sent, its session, and what is left of the arrivals. -/
inductive Asks (arrivals : List Arrival) : List Request → Session → List Arrival → Prop where
  | new : Asks arrivals [] (.new .standard) arrivals
  | call {asked : List Request} {s s' : Session} {rest rest' : List Arrival} {request : Request}
    {requestId : String} {result : Option (Except Error Response)} :
    Asks arrivals asked s rest → requestId ≠ "" → (∀ r ∈ asked, r.requestId ≠ requestId) →
    s.call request requestId rest = (result, s', rest') →
    Asks arrivals (asked ++ s.sends request requestId) s' rest'

theorem mem_sends {s : Session} {request sent : Request} {requestId : String}
    (member : sent ∈ s.sends request requestId) :
    sent = s.address request requestId ∧ ∃ frame, s.codec.encode sent.toValue = .ok frame := by
  unfold sends at member
  split at member
  · next frame written =>
    cases List.mem_singleton.mp member
    exact ⟨rfl, frame, written⟩
  · cases member

theorem sends_of_written {s : Session} {request : Request} {requestId : String} {frame : Bytes}
    (written : s.codec.encode (s.address request requestId).toValue = .ok frame) :
    s.sends request requestId = [s.address request requestId] := by
  rw [sends, written]

/-- A client that gives up before it hears anything. -/
theorem call_of_cancelled {s : Session} {request : Request} {requestId : String} {frame : Bytes}
    (written : s.codec.encode (s.address request requestId).toValue = .ok frame)
    (silent : s.frames.next s.codec = .ok none) (rest : List Arrival) :
    s.call request requestId (.cancelled :: rest) = (some (.error .stopped), s, rest) := by
  have looked : look s.codec requestId (s.frames.size + 1) s.frames = .waiting s.frames := by
    rw [look, silent]
  have waited : s.await requestId (.cancelled :: rest) =
      (some (.ok (Response.aborted (s.worker.getD ""))), s, rest) := by
    unfold await poll
    rw [looked]
  have aborts : (Response.aborted (s.worker.getD "")).isAbort = true := rfl
  unfold call
  rw [written]
  dsimp only
  rw [waited]
  simp [settle, aborts, classify_of_isAbort aborts]

theorem call_codec (s : Session) (request : Request) (requestId : String)
    (arrivals : List Arrival) : (s.call request requestId arrivals).2.1.codec = s.codec := by
  cases sent : s.codec.encode (s.address request requestId).toValue with
  | error e => rw [call_of_unsent sent]
  | ok frame => exact (call_follows sent arrivals).codec

/-- What a look at the frames gives for an answer answers the request. -/
theorem answers_of_poll {s : Session} {requestId : String} {r : Response}
    (polled : (s.poll requestId).1 = some (.ok r)) : answers requestId r = true := by
  have looked (count : Nat) (frames : FrameBuffer) {later : FrameBuffer}
      (looks : look s.codec requestId count frames = .answer r later) :
      answers requestId r = true := by
    induction count generalizing frames with
    | zero => cases looks
    | succ count ih =>
      unfold look at looks
      split at looks
      · cases looks
      · cases looks
      · split at looks
        · cases looks
        · split at looks
          · next named =>
            cases looks
            exact named
          · exact ih _ looks
  unfold poll at polled
  split at polled
  · next looks =>
    cases polled
    exact looked _ _ looks
  · cases polled
  · cases polled

theorem answers_of_await {s : Session} {requestId : String} {arrivals : List Arrival}
    {r : Response} (waited : (s.await requestId arrivals).1 = some (.ok r)) :
    answers requestId r = true := by
  induction arrivals generalizing s with
  | nil =>
    unfold await at waited
    split at waited
    · next result later polled =>
      exact answers_of_poll ((congrArg Prod.fst polled).trans waited)
    · cases waited
  | cons arrival rest ih =>
    unfold await at waited
    split at waited
    · next result later polled =>
      exact answers_of_poll ((congrArg Prod.fst polled).trans waited)
    · cases arrival with
      | bytes chunk => exact ih waited
      | ended => cases waited
      | cancelled =>
        cases waited
        rfl

end Session

variable {arrivals rest : List Arrival} {asked : List Request} {s : Session}

theorem Session.Asks.reaches (asks : Session.Asks arrivals asked s rest) :
    Session.Reaches .standard arrivals s rest := by
  induction asks with
  | new => exact .new
  | call _ _ _ called ih => exact .call ih called

theorem Session.Asks.codec_eq (asks : Session.Asks arrivals asked s rest) :
    s.codec = .standard := by
  induction asks with
  | new => rfl
  | @call _ s _ rest _ request requestId _ _ _ _ called ih =>
    have kept := s.call_codec request requestId rest
    rw [called] at kept
    exact kept.trans ih

/-- A call ends with a response that was sent and that answers it, by its caller giving up, or
without a response. -/
theorem Session.call_ends {payloads : List Bytes} (short : ∀ p ∈ payloads, p.length < 0x100000000)
    {request : Request} {requestId : String} {result : Except Error Response} {s' : Session}
    {rest' : List Arrival} (awaits : Awaits payloads s.frames (bytesOf rest))
    (called : s.call request requestId rest = (some result, s', rest')) :
    (∃ r, IsSent payloads r ∧ answers requestId r = true ∧
      s.sends request requestId = [s.address request requestId] ∧ result = classify r) ∨
    (∃ used, rest = used ++ .cancelled :: rest') ∧ result = .error .stopped ∨
    ∃ e, result = .error e ∧ ¬ e.IsVerdict := by
  have brings := (Session.await_hears short s requestId rest awaits).2
  unfold sends
  cases sent : s.codec.encode (s.address request requestId).toValue with
  | error e =>
    rw [call_of_unsent sent] at called
    cases called
    exact Or.inr (Or.inr ⟨_, rfl, not_false⟩)
  | ok frame =>
    unfold call at called
    rw [sent] at called
    dsimp only at called ⊢
    split at called
    · next r later more waited =>
      have own := answers_of_await (congrArg Prod.fst waited)
      rw [waited] at brings
      cases called
      rcases brings with sent | ⟨used, given⟩
      · exact Or.inl ⟨r, sent, own, rfl, rfl⟩
      · exact Or.inr (Or.inl ⟨used, classify_of_isAbort given⟩)
    · next other =>
      rw [called] at brings
      cases result with
      | ok r => exact absurd called (other r s' rest')
      | error e => exact Or.inr (Or.inr ⟨e, rfl, brings⟩)

/-- What a client sends has a name, and can be written. -/
theorem Session.Asks.written (asks : Session.Asks arrivals asked s rest) :
    ∀ r ∈ asked, r.requestId ≠ "" ∧ ∃ frame, Codec.standard.encode r.toValue = .ok frame := by
  induction asks with
  | new => exact List.forall_mem_nil _
  | call asks named _ _ ih =>
    refine List.forall_mem_append.mpr ⟨ih, fun r member => ?_⟩
    obtain ⟨rfl, frame, written⟩ := mem_sends member
    rw [asks.codec_eq] at written
    exact ⟨named, frame, written⟩

/-- What a client sends has a name of its own. -/
theorem Session.Asks.unique (asks : Session.Asks arrivals asked s rest) :
    ∀ r ∈ asked, ∀ r' ∈ asked, r.requestId = r'.requestId → r = r' := by
  induction asks with
  | new => exact List.forall_mem_nil _
  | call asks _ unused _ ih =>
    intro r one r' other same
    rcases List.mem_append.mp one with old | new <;>
      rcases List.mem_append.mp other with old' | new'
    · exact ih r old r' old' same
    · obtain ⟨rfl, -⟩ := mem_sends new'
      exact absurd same (unused r old)
    · obtain ⟨rfl, -⟩ := mem_sends new
      exact absurd same.symm (unused r' old')
    · exact (mem_sends new).1.trans (mem_sends new').1.symm

/-- A client that gives up its first call before it hears anything. -/
theorem Session.asks_of_cancelled {request : Request} {requestId : String} {frame : Bytes}
    (named : requestId ≠ "")
    (written : Codec.standard.encode ((new .standard).address request requestId).toValue =
      .ok frame) (rest : List Arrival) :
    Asks (.cancelled :: rest) [(new .standard).address request requestId] (new .standard) rest := by
  have stopped := call_of_cancelled (s := .new .standard) written rfl rest
  have begun := Asks.new.call named (List.forall_mem_nil _) stopped
  rwa [sends_of_written written] at begun

end Client

namespace Broker

open Client

variable {α : Type}

/-- A connection between a client and the broker. What was read of the client is the beginning of
the frames that it sent, and what arrived at it is the beginning of those that it was sent. -/
structure Joined (trace : List (Daemon α × Move)) (d : Daemon α) (client : Nat)
    (asked : List Request) (arrivals : List Client.Arrival) : Prop where
  read : readOf client trace <+: asked.flatMap fun r => framed r.toValue.bytes
  arrived : bytesOf arrivals <+: (d.sentTo client).flatten

/-- The refusal of a payload that the broker cannot read. It names no request. -/
inductive Refuses (limit : Nat) (payload : Bytes) : Response → Prop where
  | unreadable {e : CodecError} : Codec.decodePayload Request.take payload = .error e →
    Refuses limit payload (.failed "" s!"invalid request: {e.message}")
  | oversized : limit < payload.length → Refuses limit payload
    (.failed "" s!"invalid request: {(CodecError.lengthTooLarge payload.length limit).message}")

/-- A response that a client hears is the answer to one of its requests: the broker took its frame,
decided on an answer that this frame and nothing else that it took can have brought about, and the
response is read of what stands for this answer. -/
inductive HearsOwn (limit : Nat) (trace : List (Daemon α × Move)) (d : Daemon α) (client : Nat)
    (request : Request) (heard : Response) : Prop where
  | intro (answer said : Response) :
    .frame client request.toValue.bytes ∈ arrivalsTaken trace →
    (∀ a ∈ arrivalsTaken trace,
      a.Prompts client answer ↔ a = .frame client request.toValue.bytes) →
    .answered client answer ∈ d.router.journal → answer.requestId = some request.requestId →
    StandsFor ⟨limit⟩ answer said →
    Codec.decodePayload Response.take said.toValue.bytes = .ok heard →
    heard.requestId = some request.requestId → HearsOwn limit trace d client request heard

/-- A response that a client hears is the refusal of something that it asked and the broker could
not read, and names no request. -/
inductive HearsRefusal (limit : Nat) (d : Daemon α) (client : Nat) (asked : List Request)
    (heard : Response) : Prop where
  | intro (asker : Request) (answer : Response) : asker ∈ asked →
    Refuses limit asker.toValue.bytes answer → .answered client answer ∈ d.router.journal →
    StandsFor ⟨limit⟩ answer heard → heard.requestId = none →
    HearsRefusal limit d client asked heard

/-- How a call ends: with the answer to its own request, with the refusal of a request that cannot
be read, by its caller giving up, or without any response. -/
inductive Ends (limit : Nat) (trace : List (Daemon α × Move)) (d : Daemon α) (client : Nat)
    (asked : List Request) (request : Request) (arrivals rest : List Client.Arrival) :
    Except Client.Error Response → Prop where
  | own (r : Response) : HearsOwn limit trace d client request r →
    Ends limit trace d client asked request arrivals rest (classify r)
  | refusal (r : Response) : HearsRefusal limit d client asked r →
    Ends limit trace d client asked request arrivals rest (classify r)
  | stopped (used : List Client.Arrival) : arrivals = used ++ .cancelled :: rest →
    Ends limit trace d client asked request arrivals rest (.error .stopped)
  | unheard (e : Client.Error) : ¬ e.IsVerdict →
    Ends limit trace d client asked request arrivals rest (.error e)

theorem Refuses.requestId_eq {limit : Nat} {payload : Bytes} {answer : Response}
    (h : Refuses limit payload answer) : answer.requestId = none := by
  cases h <;> rfl

theorem Refuses.success_eq {limit : Nat} {payload : Bytes} {answer : Response}
    (h : Refuses limit payload answer) : answer.success = false := by
  cases h <;> rfl

theorem StandsFor.success_eq {codec : Codec} {answer response : Response}
    (h : StandsFor codec answer response) (failure : answer.success = false) :
    response.success = false := by
  rcases h with rfl | ⟨e, -, rfl⟩
  · exact failure
  · rfl

theorem Arrival.Prompts.client_eq {a : Arrival} {client : Nat} {answer : Response}
    (prompts : a.Prompts client answer) : a.client = client := by
  cases prompts <;> rfl

section Answers

variable {limit client : Nat} {asked : List Request}
  (named : ∀ r ∈ asked, r.requestId ≠ "")
include named

/-- What prompts an answer is a request of the client that the answer names, or the answer refuses
one. -/
theorem asker_of_prompts {a : Arrival} {answer : Response} (prompts : a.Prompts client answer)
    (stems : a.Stems limit (asked.map fun r => r.toValue.bytes)) :
    (∃ asker ∈ asked, a = .frame client asker.toValue.bytes ∧
      answer.requestId = some asker.requestId) ∨
    ∃ asker ∈ asked, Refuses limit asker.toValue.bytes answer := by
  cases prompts with
  | request decoded same =>
    cases stems with
    | frame inside =>
      obtain ⟨asker, asks, rfl⟩ := List.mem_map.mp inside
      refine Or.inl ⟨asker, asks, rfl, ?_⟩
      rw [same, Request.requestId_of_decodePayload decoded, reference,
        if_neg fun empty => named asker asks (String.isEmpty_iff.mp empty)]
  | unreadable refused =>
    cases stems with
    | frame inside =>
      obtain ⟨asker, asks, rfl⟩ := List.mem_map.mp inside
      exact Or.inr ⟨asker, asks, .unreadable refused⟩
  | malformed =>
    cases stems with
    | malformed inside long =>
      obtain ⟨asker, asks, rfl⟩ := List.mem_map.mp inside
      exact Or.inr ⟨asker, asks, .oversized long⟩

/-- An answer is to the one request of the client that it names, or it refuses one. -/
theorem asker_of_prompted (unique : ∀ r ∈ asked, ∀ r' ∈ asked, r.requestId = r'.requestId → r = r')
    {taken : List Arrival}
    (stems : ∀ a ∈ taken, a.client = client → a.Stems limit (asked.map fun r => r.toValue.bytes))
    {answer : Response} (prompted : Prompted taken client answer) :
    (∃ asker ∈ asked, answer.requestId = some asker.requestId ∧
      .frame client asker.toValue.bytes ∈ taken ∧
      ∀ a ∈ taken, a.Prompts client answer ↔ a = .frame client asker.toValue.bytes) ∨
    ∃ asker ∈ asked, Refuses limit asker.toValue.bytes answer := by
  obtain ⟨a, heard, prompts⟩ := prompted
  refine (asker_of_prompts named prompts (stems a heard prompts.client_eq)).imp_left ?_
  rintro ⟨asker, asks, rfl, same⟩
  -- whatever else prompts the answer was asked under the same name, and no name is used twice
  refine ⟨asker, asks, same, heard, fun other inside => ⟨fun prompts' => ?_, ?_⟩⟩
  · rcases asker_of_prompts named prompts' (stems other inside prompts'.client_eq) with
      ⟨asker', asks', rfl, same'⟩ | ⟨_, _, refuses⟩
    · rw [unique asker' asks' asker asks (Option.some.inj (same'.symm.trans same))]
    · rw [refuses.requestId_eq] at same
      cases same
  · rintro rfl
    exact prompts

end Answers

/-- What a client hears of an answer, by what prompted the answer. -/
theorem hears_of_asker {limit client : Nat} {trace : List (Daemon α × Move)} {d : Daemon α}
    {asked : List Request} {request : Request} (present : request ∈ asked)
    (unique : ∀ r ∈ asked, ∀ r' ∈ asked, r.requestId = r'.requestId → r = r')
    {answer said heard : Response} (forthright : answer.Forthright)
    (answered : .answered client answer ∈ d.router.journal) (stands : StandsFor ⟨limit⟩ answer said)
    (read : Codec.decodePayload Response.take said.toValue.bytes = .ok heard)
    (own : answers request.requestId heard = true)
    (asker : (∃ asker ∈ asked, answer.requestId = some asker.requestId ∧
        .frame client asker.toValue.bytes ∈ arrivalsTaken trace ∧
        ∀ a ∈ arrivalsTaken trace,
          a.Prompts client answer ↔ a = .frame client asker.toValue.bytes) ∨
      ∃ asker ∈ asked, Refuses limit asker.toValue.bytes answer) :
    HearsOwn limit trace d client request heard ∨ HearsRefusal limit d client asked heard := by
  rcases asker with ⟨asker, asks, named, taken, only⟩ | ⟨asker, asks, refuses⟩
  · have told : said.requestId = some asker.requestId := stands.requestId_eq.trans named
    have kept := Response.requestId_of_decodePayload told read
    have same : asker.requestId = request.requestId := by
      rw [answers, kept] at own
      exact beq_iff_eq.mp own
    cases unique asker asks request present same
    exact Or.inl ⟨answer, said, taken, only, answered, named, stands, read, kept⟩
  · -- a refusal is heard as it was said, so it names nothing either
    have failure := stands.success_eq refuses.success_eq
    cases ((stands.forthright forthright).decodePayload_eq failure).symm.trans read
    exact Or.inr ⟨asker, answer, asks, refuses, answered, stands,
      stands.requestId_eq.trans refuses.requestId_eq⟩

/-- What the broker hears of a client is what the client asked. -/
theorem Joined.stems [Service α] [Accountable α] {setup : Setup α} {backend : Rehearsal}
    {epoch : Int} {trace : List (Daemon α × Move)} {d : Daemon α}
    (run : Run (.start setup backend epoch) trace d)
    (sound : (Daemon.start setup backend epoch).Sound) {client : Nat} {asked : List Request}
    {arrivals : List Client.Arrival} (joined : Joined trace d client asked arrivals)
    (written : ∀ r ∈ asked, ∃ frame, Codec.standard.encode r.toValue = .ok frame) :
    ∀ a ∈ arrivalsTaken trace, a.client = client →
      a.Stems setup.codec.limit (asked.map fun r => r.toValue.bytes) := by
  have short : ∀ p ∈ asked.map fun r => r.toValue.bytes, p.length < 0x100000000 := by
    intro p inside
    obtain ⟨r, asks, rfl⟩ := List.mem_map.mp inside
    obtain ⟨frame, encoded⟩ := written r asks
    exact Nat.lt_of_le_of_lt (eq_framed encoded).2 (by decide)
  have nonempty : ∀ p ∈ asked.map fun r => r.toValue.bytes, p ≠ [] := by
    intro p inside
    obtain ⟨r, asks, rfl⟩ := List.mem_map.mp inside
    obtain ⟨frame, encoded⟩ := written r asks
    exact ne_nil_of_framed encoded
  have begins : readOf client trace ++ [] <+:
      (asked.map fun r => r.toValue.bytes).flatMap framed := by
    rw [List.append_nil, List.flatMap_map]
    exact joined.read
  exact fun a taken => (run.attends sound short nonempty begins).heard a (Or.inl taken)

/-- A call never ends with the answer to another one, as far as answers name what they answer. It
ends with the answer to its own frame, with the refusal of a frame of this client that the broker
could not read, by its caller giving up, or without a response. -/
theorem named_answers_end_own_calls {address : String} {limit pollInterval drainTimeout : Nat}
    {recruit : Nat → Except String String} {backend : Rehearsal} {epoch : Int}
    (fresh : (Setup.relay address limit recruit pollInterval drainTimeout).Fresh)
    {trace : List (Daemon Family × Move)} {d : Daemon Family}
    (run : Run (.start (.relay address limit recruit pollInterval drainTimeout) backend epoch)
      trace d)
    {client : Nat} (fits : ∀ frame ∈ d.sentTo client, frame.length < 0x100000004)
    {arrivals rest rest' : List Client.Arrival} {asked : List Request} {s s' : Session}
    (asks : Session.Asks arrivals asked s rest) {request : Request} {requestId : String}
    (named : requestId ≠ "") (unused : ∀ r ∈ asked, r.requestId ≠ requestId)
    (joined : Joined trace d client (asked ++ s.sends request requestId) arrivals)
    {result : Except Client.Error Response}
    (called : s.call request requestId rest = (some result, s', rest')) :
    Ends limit trace d client (asked ++ s.sends request requestId) (s.address request requestId)
      rest rest' result := by
  have forthright := run.forthright (Daemon.forthright_start _ backend epoch)
  have sound := Daemon.sound_start fresh (Family.registry_assigns limit) backend epoch
  have prompted := (run.prompted sound (Daemon.prompted_start _ backend epoch)).said
  have all := asks.call named unused called
  have stems := joined.stems run sound fun r asks => (all.written r asks).2
  obtain ⟨payloads, frames, told⟩ := sentTo_eq_map (forthright.leavesStopping.sent client)
  have short : ∀ p ∈ payloads, p.length < 0x100000000 := by
    intro p inside
    have whole := fits (framed p) (frames ▸ List.mem_map_of_mem inside)
    rw [framed, List.length_append, show (header p.length).length = 4 from rfl] at whole
    omega
  have cut := joined.arrived
  rw [frames, ← List.flatMap_def] at cut
  rcases Session.call_ends short (asks.reaches.awaits short cut) called with
    ⟨r, ⟨payload, inside, read⟩, own, sends, rfl⟩ | ⟨⟨used, same⟩, rfl⟩ | ⟨e, rfl, other⟩
  · obtain ⟨-, said, ⟨answer, answered, stands⟩, rfl⟩ := told payload inside
    have asker := asker_of_prompted (fun r asks => (all.written r asks).1) all.unique stems
      (prompted client answer answered)
    have present : s.address request requestId ∈ asked ++ s.sends request requestId := by
      rw [sends]
      exact List.mem_append_right _ List.mem_cons_self
    rcases hears_of_asker present all.unique (forthright.said client answer answered) answered
      stands read own asker with own | refusal
    · exact .own r own
    · exact .refusal r refusal
  · exact .stopped used same
  · exact .unheard e other

/-- A request to a worker that nobody hired. -/
def toNobody (worker : String) : Request :=
  { Request.new "peek" .empty with worker := some worker }

/-- A client gives up a call and makes another. It passes over the late answer to the first one, and
hears that to the second. -/
theorem late_answer_passed_over :
    let given := (Session.new .standard).address (toNobody "a") "1"
    let asked := (Session.new .standard).address (toNobody "b") "2"
    ∃ trace d s, Run (.start (.forOne "w") .empty 0) trace d ∧
      (d.sentTo 1).map List.length = [167, 167] ∧
      (Session.new .standard).call (toNobody "b") "2" [.bytes (d.sentTo 1).flatten] =
        (some (.error (.rejected "worker b is no longer available")), s, []) ∧
      Ends 4096 trace d 1 [given, asked] asked [.bytes (d.sentTo 1).flatten] []
        (.error (.rejected "worker b is no longer available")) := by
  intro given asked
  have moved : ((Daemon.start (.forOne "w") .empty 0).record?
      [.connect "127.0.0.1:1", .read 1 (.ofRequest given), .read 1 (.ofRequest asked),
        .takeArrival, .proceed, .proceed, .takeArrival] []).map
      (fun (trace, d) => (readOf 1 trace, (d.sentTo 1).map List.length,
        errorOf? ((Session.new .standard).call (toNobody "b") "2"
          [.bytes (d.sentTo 1).flatten]))) =
      some ([given, asked].flatMap fun r => framed r.toValue.bytes, [167, 167],
        some (.rejected "worker b is no longer available", [])) := by
    simp only [Daemon.record?, Daemon.step?, Router.onArrival, Router.route, Router.dispatch,
      Router.reply, Session.call, Codec.encode, Chunk.ofRequest, framed, Json.Value.bytes_eq]
    decide +kernel
  obtain ⟨trace, d, run, same⟩ := Run.exists_of_record? moved
  simp only [Prod.mk.injEq] at same
  obtain ⟨read, lengths, ended⟩ := same
  obtain ⟨s, called⟩ := exists_of_errorOf? ended
  have first : Codec.standard.encode given.toValue = .ok (framed given.toValue.bytes) := by
    rw [Codec.encode, Json.Value.bytes_eq]
    decide +kernel
  have second : Codec.standard.encode asked.toValue = .ok (framed asked.toValue.bytes) := by
    rw [Codec.encode, Json.Value.bytes_eq]
    decide +kernel
  have asks := Session.asks_of_cancelled (by decide) first [.bytes (d.sentTo 1).flatten]
  have fits : ∀ frame ∈ d.sentTo 1, frame.length < 0x100000004 := by
    intro frame inside
    have among := lengths ▸ List.mem_map_of_mem (f := List.length) inside
    simp only [List.mem_cons, List.not_mem_nil, or_false, or_self] at among
    omega
  have joined : Joined trace d 1 ([given] ++ (Session.new .standard).sends (toNobody "b") "2")
      [.cancelled, .bytes (d.sentTo 1).flatten] := by
    rw [Session.sends_of_written second]
    exact ⟨read ▸ List.prefix_rfl, by simp [bytesOf]⟩
  have ends := named_answers_end_own_calls (Setup.fresh_forOne "w") run fits asks (by decide)
    (by decide) joined called
  rw [Session.sends_of_written second] at ends
  exact ⟨trace, d, s, run, lengths, called, ends⟩

/-- Arrays within each other. -/
def nested : Nat → Json.Value
  | 0 => .null
  | depth + 1 => .array [nested depth]

/-- A request that can be written, but is too deep to be read. -/
def tooDeep : Request := { Request.new "peek" .empty with payload := some (nested 127) }

/-- A client gives up a call that the broker cannot read, and makes another. The refusal of the
first one ends the second, whose frame the broker has not even taken. -/
theorem late_refusal_ends_next_call :
    let refused := (Session.new .standard).address tooDeep "1"
    let asked := (Session.new .standard).address (toNobody "b") "2"
    let told := Except.error (.rejected "invalid request: json decode error: <syntax>")
    ∃ trace d s, Run (.start (.forOne "w") .empty 0) trace d ∧
      Session.Asks [.cancelled, .bytes (d.sentTo 1).flatten] [refused] (.new .standard)
        [.bytes (d.sentTo 1).flatten] ∧
      Joined trace d 1 [refused, asked] [.cancelled, .bytes (d.sentTo 1).flatten] ∧
      (Session.new .standard).call (toNobody "b") "2" [.bytes (d.sentTo 1).flatten] =
        (some told, s, []) ∧
      ∀ r, classify r = told → ¬ HearsOwn 4096 trace d 1 asked r := by
  intro refused asked told
  have moved : ((Daemon.start (.forOne "w") .empty 0).record?
      [.connect "127.0.0.1:1", .read 1 (.ofRequest refused), .takeArrival] []).map
      (fun (trace, d) => (readOf 1 trace,
        decide (.frame 1 asked.toValue.bytes ∈ arrivalsTaken trace),
        errorOf? ((Session.new .standard).call (toNobody "b") "2"
          [.bytes (d.sentTo 1).flatten]))) =
      some (framed refused.toValue.bytes, false,
        some (.rejected "invalid request: json decode error: <syntax>", [])) := by
    simp only [Daemon.record?, Daemon.step?, Router.onArrival, Router.reply, Session.call,
      Codec.encode, Chunk.ofRequest, framed, Json.Value.bytes_eq]
    decide +kernel
  obtain ⟨trace, d, run, same⟩ := Run.exists_of_record? moved
  simp only [Prod.mk.injEq, decide_eq_false_iff_not] at same
  obtain ⟨read, untaken, ended⟩ := same
  obtain ⟨s, called⟩ := exists_of_errorOf? ended
  have first : Codec.standard.encode refused.toValue = .ok (framed refused.toValue.bytes) := by
    rw [Codec.encode, Json.Value.bytes_eq]
    decide +kernel
  refine ⟨trace, d, s, run, Session.asks_of_cancelled (by decide) first _, ?_, called, ?_⟩
  · refine ⟨?_, by simp [bytesOf]⟩
    rw [read, List.flatMap_cons]
    exact List.prefix_append _ _
  · rintro r - ⟨answer, said, taken, -⟩
    exact untaken taken

end Broker

end SessionRelay
