import SessionRelay.Client.Session
import SessionRelay.Proofs.Wire.Frame

/-!
What a wait for an answer makes of the stream. The grammar of what is heard does not know of
buffers or chunks; a wait that is brought any chunks hears what the grammar says of all their bytes,
and leaves to the next wait exactly the bytes that it did not use.
-/

namespace SessionRelay.Client

open Wire

/-- What is heard in a stream. `silence` is a stream that says no more for now. -/
inductive Heard where
  | answer (r : Response)
  | unreadable (e : CodecError)
  | refused (e : CodecError)
  | silence
  deriving Repr

/-- What a wait ends with when this is heard. On a silent stream it ends only if the stream does. -/
def Heard.result (ended : Bool) : Heard → Option (Except Error Response)
  | .answer r => some (.ok r)
  | .unreadable e => some (.error (.codec e))
  | .refused e => some (.error (.codec e))
  | .silence => if ended then some (.error .noResponse) else none

/-- What one who waits for the answer to a request hears in a stream, and the bytes that are left.
Answers to other requests are passed over. The frame that is heard is used up, also when it cannot
be read; a length that is refused is not, nor is a frame that is not complete. -/
inductive Hears (limit : Nat) (requestId : String) : Bytes → Heard → Bytes → Prop where
  | answer {frame payload rest : Bytes} {r : Response} :
    Parses limit frame [payload] (.incomplete []) →
    Codec.decodePayload Response.take payload = .ok r →
    (r.requestId = none ∨ r.requestId = some requestId) →
    Hears limit requestId (frame ++ rest) (.answer r) rest
  | passed {frame payload rest left : Bytes} {r : Response} {id : String} {heard : Heard} :
    Parses limit frame [payload] (.incomplete []) →
    Codec.decodePayload Response.take payload = .ok r →
    r.requestId = some id → id ≠ requestId →
    Hears limit requestId rest heard left →
    Hears limit requestId (frame ++ rest) heard left
  | unreadable {frame payload rest : Bytes} {e : CodecError} :
    Parses limit frame [payload] (.incomplete []) →
    Codec.decodePayload Response.take payload = .error e →
    Hears limit requestId (frame ++ rest) (.unreadable e) rest
  | refused {s : Bytes} {e : CodecError} :
    Parses limit s [] (.refused e s) → Hears limit requestId s (.refused e) s
  | silence {s : Bytes} : Parses limit s [] (.incomplete s) → Hears limit requestId s .silence s

theorem answers_eq_true {requestId : String} {r : Response} :
    answers requestId r = true ↔ r.requestId = none ∨ r.requestId = some requestId := by
  unfold answers
  cases r.requestId <;> simp

theorem answers_eq_false {requestId : String} {r : Response} :
    answers requestId r = false ↔ ∃ id, r.requestId = some id ∧ id ≠ requestId := by
  unfold answers
  cases r.requestId <;> simp

section Reading

variable {limit : Nat} {requestId : String} {s : Bytes} {heard : Heard} {left : Bytes}
  {frames rest : FrameBuffer} {payload : Bytes} {e : CodecError} {r : Response}

/-- What is heard, by what a buffer gives first. -/
def HearsNext (limit : Nat) (requestId : String) (frames : FrameBuffer) (heard : Heard)
    (left : Bytes) : Prop :=
  match frames.next ⟨limit⟩ with
  | .error e => heard = .refused e ∧ left = frames.pending
  | .ok none => heard = .silence ∧ left = frames.pending
  | .ok (some (payload, rest)) =>
    match Codec.decodePayload Response.take payload with
    | .error e => heard = .unreadable e ∧ left = rest.pending
    | .ok r =>
      if answers requestId r then heard = .answer r ∧ left = rest.pending
      else Hears limit requestId rest.pending heard left

theorem next_of_first {frame : Bytes} (first : Parses limit frame [payload] (.incomplete []))
    (rest : Bytes) :
    (FrameBuffer.mk (frame ++ rest)).next ⟨limit⟩ = .ok (some (payload, ⟨rest⟩)) :=
  FrameBuffer.next_eq_some.mpr ⟨frame, rfl, first⟩

theorem next_of_hears (hears : Hears limit requestId s heard left) :
    HearsNext limit requestId ⟨s⟩ heard left := by
  cases hears with
  | answer first decoded named =>
    simp [HearsNext, next_of_first first, decoded, answers_eq_true.mpr named]
  | passed first decoded named other after =>
    simpa [HearsNext, next_of_first first, decoded, answers_eq_false.mpr ⟨_, named, other⟩]
      using after
  | unreadable first decoded => simp [HearsNext, next_of_first first, decoded]
  | refused parses => simp [HearsNext, FrameBuffer.next_eq_error.mpr parses]
  | silence parses => simp [HearsNext, FrameBuffer.next_eq_none.mpr parses]

/-- A stream is heard in one way. -/
theorem Hears.unique (one : Hears limit requestId s heard left) {heard' : Heard} {left' : Bytes}
    (other : Hears limit requestId s heard' left') : heard' = heard ∧ left' = left := by
  have next := next_of_hears other
  induction one with
  | answer first decoded named =>
    simpa [HearsNext, next_of_first first, decoded, answers_eq_true.mpr named] using next
  | @passed frame payload rest left r id heard first decoded named differs after ih =>
    have later : Hears limit requestId rest heard' left' := by
      simpa [HearsNext, next_of_first first, decoded, answers_eq_false.mpr ⟨_, named, differs⟩]
        using next
    exact ih later (next_of_hears later)
  | unreadable first decoded => simpa [HearsNext, next_of_first first, decoded] using next
  | refused parses => simpa [HearsNext, FrameBuffer.next_eq_error.mpr parses] using next
  | silence parses => simpa [HearsNext, FrameBuffer.next_eq_none.mpr parses] using next

theorem hears_of_next (next : HearsNext limit requestId frames heard left) :
    Hears limit requestId frames.pending heard left := by
  unfold HearsNext at next
  split at next
  · next refused =>
    obtain ⟨rfl, rfl⟩ := next
    exact .refused (FrameBuffer.next_eq_error.mp refused)
  · next incomplete =>
    obtain ⟨rfl, rfl⟩ := next
    exact .silence (FrameBuffer.next_eq_none.mp incomplete)
  · next payload rest given =>
    obtain ⟨frame, whole, first⟩ := FrameBuffer.next_eq_some.mp given
    rw [whole]
    split at next
    · next unreadable =>
      obtain ⟨rfl, rfl⟩ := next
      exact .unreadable first unreadable
    · next r decoded =>
      split at next
      · next named =>
        obtain ⟨rfl, rfl⟩ := next
        exact .answer first decoded (answers_eq_true.mp named)
      · next other =>
        obtain ⟨id, named, differs⟩ := answers_eq_false.mp (Bool.eq_false_iff.mpr other)
        exact .passed first decoded named differs next

theorem hears_of_push {more : Bytes}
    (next : HearsNext limit requestId (frames.push more) heard left) :
    Hears limit requestId (frames.pending ++ more) heard left := hears_of_next next

/-- What a look tells of a stream of which `s` is at hand and `more` is to come. -/
def Tells (limit : Nat) (requestId : String) (s more : Bytes) : Look → Prop
  | .answer r rest => Hears limit requestId (s ++ more) (.answer r) (rest.pending ++ more)
  | .failed e rest =>
    Hears limit requestId (s ++ more) (.unreadable e) (rest.pending ++ more) ∨
      Hears limit requestId (s ++ more) (.refused e) (rest.pending ++ more) ∧
        rest.next ⟨limit⟩ = .error e
  | .waiting rest =>
    rest.next ⟨limit⟩ = .ok none ∧
      ∀ heard left, Hears limit requestId (rest.pending ++ more) heard left →
        Hears limit requestId (s ++ more) heard left

/-- A frame that is passed over changes nothing of what is told. -/
theorem Tells.passed {frames rest : FrameBuffer} {id : String} {more : Bytes}
    (given : frames.next ⟨limit⟩ = .ok (some (payload, rest)))
    (decoded : Codec.decodePayload Response.take payload = .ok r)
    (named : r.requestId = some id) (differs : id ≠ requestId) {look : Look}
    (tells : Tells limit requestId rest.pending more look) :
    Tells limit requestId frames.pending more look := by
  obtain ⟨frame, whole, first⟩ := FrameBuffer.next_eq_some.mp given
  have onward {heard : Heard} {left : Bytes}
      (hears : Hears limit requestId (rest.pending ++ more) heard left) :
      Hears limit requestId (frames.pending ++ more) heard left := by
    rw [show frames.pending = frame ++ rest.pending from whole, List.append_assoc]
    exact .passed first decoded named differs hears
  cases look with
  | answer r left => exact onward tells
  | failed e left => exact tells.imp onward (And.imp_left onward)
  | waiting left => exact tells.imp_right fun hears heard last h => onward (hears heard last h)

/-- A look that may take more frames than there are tells what the stream is by the grammar. -/
theorem look_tells {count : Nat} (enough : frames.size < count) (more : Bytes) :
    Tells limit requestId frames.pending more (look ⟨limit⟩ requestId count frames) := by
  induction count generalizing frames with
  | zero => exact absurd enough (Nat.not_lt_zero _)
  | succ count ih =>
    unfold look
    split
    · next e refused =>
      refine Or.inr ⟨hears_of_push ?_, refused⟩
      rw [HearsNext, FrameBuffer.next_push_of_error refused]
      exact ⟨rfl, rfl⟩
    · next incomplete => exact ⟨incomplete, fun heard left => id⟩
    · next payload rest given =>
      split
      · next e unreadable =>
        refine Or.inl (hears_of_push ?_)
        rw [HearsNext, FrameBuffer.next_push_of_some given]
        dsimp only
        rw [unreadable]
        exact ⟨rfl, rfl⟩
      · next r decoded =>
        split
        · next named =>
          refine hears_of_push ?_
          rw [HearsNext, FrameBuffer.next_push_of_some given]
          dsimp only
          rw [decoded]
          dsimp only
          rw [if_pos named]
          exact ⟨rfl, rfl⟩
        · next other =>
          obtain ⟨id, named, differs⟩ := answers_eq_false.mp (Bool.eq_false_iff.mpr other)
          have fewer : rest.size < count := by
            have less := FrameBuffer.size_lt_of_next given
            omega
          exact Tells.passed given decoded named differs (ih fewer)

end Reading

/-- Bytes that arrive in chunks, and then the end of the stream if it ends. -/
def arriving (chunks : List Bytes) (ended : Bool) : List Arrival :=
  chunks.map .bytes ++ if ended then [.ended] else []

namespace Session

variable {s : Session} {e : CodecError}

/-- At a refused length every wait fails in the same way and leaves everything as it is. -/
theorem await_of_refused (refused : s.frames.next s.codec = .error e) (requestId : String)
    (arrivals : List Arrival) :
    s.await requestId arrivals = (some (.error (.codec e)), s, arrivals) := by
  have looked : look s.codec requestId (s.frames.size + 1) s.frames = .failed e s.frames := by
    unfold look
    rw [refused]
  unfold await poll
  rw [looked]

theorem call_of_refused (refused : s.frames.next s.codec = .error e) (request : Request)
    (requestId : String) (arrivals : List Arrival) {frame : Bytes}
    (sent : s.codec.encode (s.address request requestId).toValue = .ok frame) :
    s.call request requestId arrivals = (some (.error (.codec e)), s, arrivals) := by
  unfold call
  rw [sent]
  dsimp only
  rw [await_of_refused refused]

theorem await_of_poll {requestId : String} {result : Except Error Response} {s' : Session}
    (polled : s.poll requestId = (some result, s')) (arrivals : List Arrival) :
    s.await requestId arrivals = (some result, s', arrivals) := by
  unfold await
  rw [polled]

/-- The frames at hand end the wait, or they are passed over and more is needed. -/
theorem poll_tells (s : Session) (requestId : String) (more : Bytes) :
    (∃ heard frames result,
      Hears s.codec.limit requestId (s.frames.pending ++ more) heard (frames.pending ++ more) ∧
      s.poll requestId = (some result, { s with frames := frames }) ∧
      (∀ ended, heard.result ended = some result) ∧
      ∀ e, heard = .refused e → frames.next s.codec = .error e) ∨
    ∃ frames, s.poll requestId = (none, { s with frames := frames }) ∧
      frames.next s.codec = .ok none ∧
      ∀ heard left, Hears s.codec.limit requestId (frames.pending ++ more) heard left →
        Hears s.codec.limit requestId (s.frames.pending ++ more) heard left := by
  have tells : Tells s.codec.limit requestId s.frames.pending more
      (look s.codec requestId (s.frames.size + 1) s.frames) :=
    look_tells (Nat.lt_succ_self _) more
  unfold poll
  split
  · next r frames looked =>
    rw [looked] at tells
    exact Or.inl ⟨_, frames, _, tells, rfl, fun _ => rfl, nofun⟩
  · next e frames looked =>
    rw [looked] at tells
    rcases tells with unreadable | ⟨refused, stuck⟩
    · exact Or.inl ⟨_, frames, _, unreadable, rfl, fun _ => rfl, nofun⟩
    · refine Or.inl ⟨_, frames, _, refused, rfl, fun _ => rfl, ?_⟩
      rintro e ⟨⟩
      exact stuck
  · next frames looked =>
    rw [looked] at tells
    exact Or.inr ⟨frames, rfl, tells⟩

theorem await_tells (s : Session) (requestId : String) (chunks : List Bytes) (ended : Bool) :
    ∃ heard frames later,
      Hears s.codec.limit requestId (s.frames.pending ++ chunks.flatten) heard
        (frames.pending ++ later.flatten) ∧
      s.await requestId (arriving chunks ended) =
        (heard.result ended, { s with frames := frames }, arriving later ended) ∧
      later <:+ chunks ∧
      ∀ e, heard = .refused e → frames.next s.codec = .error e := by
  induction chunks generalizing s with
  | nil =>
    rcases s.poll_tells requestId ([] : List Bytes).flatten with
      ⟨heard, frames, result, hears, polled, ends, stuck⟩ | ⟨frames, polled, incomplete, passes⟩
    · refine ⟨heard, frames, [], hears, ?_, List.suffix_refl _, stuck⟩
      rw [await_of_poll polled, ends]
    · refine ⟨.silence, frames, [], passes _ _ ?_, ?_, List.suffix_refl _, nofun⟩
      · rw [List.flatten_nil, List.append_nil]
        exact .silence (FrameBuffer.next_eq_none.mp incomplete)
      · unfold await
        rw [polled]
        cases ended <;> rfl
  | cons chunk chunks ih =>
    rcases s.poll_tells requestId (chunk :: chunks).flatten with
      ⟨heard, frames, result, hears, polled, ends, stuck⟩ | ⟨frames, polled, _, passes⟩
    · refine ⟨heard, frames, chunk :: chunks, hears, ?_, List.suffix_refl _, stuck⟩
      rw [await_of_poll polled, ends]
    · obtain ⟨heard, frames', later, hears, awaited, last, stuck⟩ :=
        ih { s with frames := frames.push chunk }
      refine ⟨heard, frames', later, passes _ _ ?_, ?_, last.trans (List.suffix_cons _ _), stuck⟩
      · rwa [FrameBuffer.push, List.append_assoc] at hears
      · rw [← awaited, arriving, List.map_cons, List.cons_append, await, polled]
        rfl

/-- A wait hears what its stream is by the grammar, however it is cut, and leaves to the next wait
the bytes after it: those in the buffer and those that have not come yet. A length that is refused
stays in the buffer with all that follows it, and every later wait or call fails at it. -/
theorem await_hears_stream (s : Session) (requestId : String) (chunks : List Bytes)
    (ended : Bool) :
    ∃ heard left frames later,
      Hears s.codec.limit requestId (s.frames.pending ++ chunks.flatten) heard left ∧
      (∀ heard' left',
        Hears s.codec.limit requestId (s.frames.pending ++ chunks.flatten) heard' left' →
          heard' = heard ∧ left' = left) ∧
      s.await requestId (arriving chunks ended) =
        (heard.result ended, { s with frames := frames }, arriving later ended) ∧
      frames.pending ++ later.flatten = left ∧ later <:+ chunks ∧
      ∀ e, heard = .refused e →
        (∀ requestId' arrivals, ({ s with frames := frames } : Session).await requestId' arrivals =
          (some (.error (.codec e)), { s with frames := frames }, arrivals)) ∧
        ∀ request requestId' arrivals frame,
          s.codec.encode (s.address request requestId').toValue = .ok frame →
          ({ s with frames := frames } : Session).call request requestId' arrivals =
            (some (.error (.codec e)), { s with frames := frames }, arrivals) := by
  obtain ⟨heard, frames, later, hears, awaited, last, stuck⟩ :=
    s.await_tells requestId chunks ended
  refine ⟨heard, _, frames, later, hears, fun _ _ => hears.unique, awaited, rfl, last, ?_⟩
  intro e refused
  exact ⟨await_of_refused (stuck e refused), fun request requestId' arrivals frame sent =>
    call_of_refused (stuck e refused) request requestId' arrivals sent⟩

end Session

end SessionRelay.Client
