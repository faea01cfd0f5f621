import SessionRelay.Client.Session
import SessionRelay.Proofs.Wire.Frame

/-!
What a client hears. Its answers are the payloads that were sent on its connection, each whole and
in turn, however the bytes are cut; an answer that nobody sent is its own, of a wait that it gave
up.
-/

namespace SessionRelay

namespace Wire

section Framed

variable {payloads : List Bytes} (short : ∀ p ∈ payloads, p.length < 0x100000000)
include short

/-- What begins a row of frames and has a whole length has that of the first payload. -/
theorem first_of_framed {pending more tail : Bytes} {declared : Nat}
    (cut : pending ++ more <+: payloads.flatMap framed)
    (splits : splitHeader? pending = some (declared, tail)) :
    ∃ first later, payloads = first :: later ∧ declared = first.length ∧
      tail ++ more <+: first ++ later.flatMap framed := by
  obtain ⟨length, four, rfl, declares⟩ := eq_append_of_splitHeader? splits
  cases payloads with
  | nil =>
    have empty := congrArg List.length (List.prefix_nil.mp cut)
    simp [four] at empty
  | cons first later =>
    obtain ⟨beyond, same⟩ := cut
    rw [List.flatMap_cons, framed, List.append_assoc, List.append_assoc, List.append_assoc] at same
    obtain ⟨rfl, parts⟩ := List.append_inj same four
    rw [bigEndian_header (short first List.mem_cons_self)] at declares
    refine ⟨first, later, rfl, declares.symm, beyond, ?_⟩
    rw [List.append_assoc]
    exact parts

/-- What begins a frame and has all of it begins with its payload. -/
theorem next_of_framed {codec : Codec} {pending more payload : Bytes} {rest : FrameBuffer}
    (cut : pending ++ more <+: payloads.flatMap framed)
    (next : FrameBuffer.next ⟨pending⟩ codec = .ok (some (payload, rest))) :
    ∃ later, payloads = payload :: later ∧ rest.pending ++ more <+: later.flatMap framed := by
  unfold FrameBuffer.next at next
  split at next
  · cases next
  · next declared tail splits =>
    obtain ⟨first, later, rfl, rfl, beyond, parts⟩ := first_of_framed short cut splits
    split at next
    · cases next
    · split at next
      · cases next
      · next whole =>
        cases next
        have enough : first.length ≤ tail.length := Nat.le_of_not_lt whole
        rw [List.append_assoc] at parts
        have taken : tail.take first.length = first := by
          have front := congrArg (List.take first.length) parts
          rwa [List.take_append_of_le_length enough, List.take_left] at front
        have left : tail.drop first.length ++ (more ++ beyond) = later.flatMap framed := by
          have back := congrArg (List.drop first.length) parts
          rwa [List.drop_append_of_le_length enough, List.drop_left] at back
        refine ⟨later, by rw [taken], beyond, ?_⟩
        rw [List.append_assoc]
        exact left

/-- A length is refused in a row of frames only for being too great. -/
theorem refused_of_framed (nonempty : ∀ p ∈ payloads, p ≠ []) {codec : Codec}
    {pending more : Bytes} {e : CodecError} (cut : pending ++ more <+: payloads.flatMap framed)
    (refused : FrameBuffer.next ⟨pending⟩ codec = .error e) :
    ∃ payload ∈ payloads, codec.limit < payload.length ∧
      e = .lengthTooLarge payload.length codec.limit := by
  unfold FrameBuffer.next at refused
  split at refused
  · cases refused
  · next declared tail splits =>
    obtain ⟨first, later, rfl, rfl, -⟩ := first_of_framed short cut splits
    have filled : first.length ≠ 0 := fun empty =>
      nonempty first List.mem_cons_self (List.length_eq_zero_iff.mp empty)
    split at refused
    · next e' checked =>
      cases refused
      unfold Codec.checkLength at checked
      rw [if_neg filled] at checked
      split at checked
      · next long =>
        cases checked
        exact ⟨first, List.mem_cons_self, long, rfl⟩
      · cases checked
    · split at refused <;> cases refused

end Framed

end Wire

namespace Client

open Wire

/-- The bytes that arrive. -/
def bytesOf : List Arrival → Bytes
  | [] => []
  | .bytes chunk :: rest => chunk ++ bytesOf rest
  | _ :: rest => bytesOf rest

/-- Of the payloads that were sent to a client, its buffer and the bytes to come begin with some of
the last ones. -/
def Awaits (payloads : List Bytes) (frames : FrameBuffer) (more : Bytes) : Prop :=
  ∃ left, left <:+ payloads ∧ frames.pending ++ more <+: left.flatMap framed

/-- The buffer after a look. -/
def Look.frames : Look → FrameBuffer
  | .answer _ frames => frames
  | .failed _ frames => frames
  | .waiting frames => frames

variable {payloads : List Bytes} {frames : FrameBuffer} {more : Bytes}

/-- A response was sent. -/
def IsSent (payloads : List Bytes) (r : Response) : Prop :=
  ∃ payload ∈ payloads, Codec.decodePayload Response.take payload = .ok r

/-- An answer was sent, or it ends a wait that was given up last of all. -/
def IsHeard (payloads : List Bytes) (arrivals rest : List Arrival) (r : Response) : Prop :=
  IsSent payloads r ∨ (∃ used, arrivals = used ++ .cancelled :: rest) ∧ r.isAbort = true

/-- Does an error tell what a response says? -/
def Error.IsVerdict : Error → Prop
  | .rejected _ => True
  | .stopped => True
  | _ => False

/-- A wait ends with an answer of some kind, or with an error that no response tells, if it ends. -/
def Brings (P : Response → Prop) : Option (Except Error Response) → Prop
  | some (.ok r) => P r
  | some (.error e) => ¬ e.IsVerdict
  | none => True

theorem Brings.imp {P Q : Response → Prop} (h : ∀ r, P r → Q r)
    {result : Option (Except Error Response)} (brings : Brings P result) : Brings Q result :=
  match result, brings with
  | some (.ok r), brings => h r brings
  | some (.error _), brings => brings
  | none, _ => trivial

section Hearing

variable (short : ∀ p ∈ payloads, p.length < 0x100000000)
include short

/-- A look takes payloads in turn, and what it answers was sent. -/
theorem look_hears (codec : Codec) (requestId : String) (count : Nat)
    (awaits : Awaits payloads frames more) :
    Awaits payloads (look codec requestId count frames).frames more ∧
      ∀ r later, look codec requestId count frames = .answer r later → IsSent payloads r := by
  induction count generalizing frames with
  | zero => exact ⟨awaits, nofun⟩
  | succ count ih =>
    unfold look
    split
    · exact ⟨awaits, nofun⟩
    · exact ⟨awaits, nofun⟩
    · next payload rest next =>
      obtain ⟨left, last, cut⟩ := awaits
      obtain ⟨later, rfl, onward⟩ :=
        next_of_framed (fun p member => short p (last.subset member)) cut next
      have after : Awaits payloads rest more :=
        ⟨later, (List.suffix_cons _ _).trans last, onward⟩
      split
      · exact ⟨after, nofun⟩
      · next r decoded =>
        split
        · refine ⟨after, ?_⟩
          rintro r later ⟨⟩
          exact ⟨payload, last.subset List.mem_cons_self, decoded⟩
        · exact ih after

namespace Session

theorem poll_hears (s : Session) (requestId : String) (awaits : Awaits payloads s.frames more) :
    Awaits payloads (s.poll requestId).2.frames more ∧
      Brings (IsSent payloads) (s.poll requestId).1 := by
  obtain ⟨after, sent⟩ := look_hears short s.codec requestId (s.frames.size + 1) awaits
  unfold poll
  split
  · next r frames looked =>
    rw [looked] at after
    exact ⟨after, sent r frames looked⟩
  · next looked =>
    rw [looked] at after
    exact ⟨after, not_false⟩
  · next looked =>
    rw [looked] at after
    exact ⟨after, trivial⟩

theorem await_hears (s : Session) (requestId : String) (arrivals : List Arrival)
    (awaits : Awaits payloads s.frames (bytesOf arrivals)) :
    Awaits payloads (s.await requestId arrivals).2.1.frames
        (bytesOf (s.await requestId arrivals).2.2) ∧
      Brings (IsHeard payloads arrivals (s.await requestId arrivals).2.2)
        (s.await requestId arrivals).1 := by
  induction arrivals generalizing s with
  | nil =>
    obtain ⟨after, brings⟩ := poll_hears short s requestId awaits
    unfold await
    split
    · next polled =>
      rw [polled] at after brings
      exact ⟨after, brings.imp fun r => Or.inl⟩
    · next polled =>
      rw [polled] at after
      exact ⟨after, trivial⟩
  | cons arrival rest ih =>
    obtain ⟨after, brings⟩ := poll_hears short s requestId awaits
    unfold await
    split
    · next polled =>
      rw [polled] at after brings
      exact ⟨after, brings.imp fun r => Or.inl⟩
    · next later polled =>
      rw [polled] at after
      cases arrival with
      | bytes chunk =>
        have pushed : Awaits payloads (later.frames.push chunk) (bytesOf rest) := by
          obtain ⟨left, last, cut⟩ := after
          refine ⟨left, last, ?_⟩
          rwa [FrameBuffer.push, List.append_assoc]
        obtain ⟨onward, brings⟩ := ih { later with frames := later.frames.push chunk } pushed
        refine ⟨onward, brings.imp fun r heard => heard.imp_right ?_⟩
        rintro ⟨⟨used, same⟩, given⟩
        exact ⟨⟨.bytes chunk :: used, congrArg _ same⟩, given⟩
      | ended => exact ⟨after, not_false⟩
      | cancelled => exact ⟨after, Or.inr ⟨⟨[], rfl⟩, rfl⟩⟩

/-- A call that ends with what a response says has heard one that says so. -/
theorem call_hears (s : Session) (request : Request) (requestId : String)
    {arrivals rest : List Arrival} {result : Option (Except Error Response)} {s' : Session}
    (awaits : Awaits payloads s.frames (bytesOf arrivals))
    (called : s.call request requestId arrivals = (result, s', rest)) :
    Awaits payloads s'.frames (bytesOf rest) ∧
      ∀ e, result = some (.error e) → e.IsVerdict →
        ∃ r, IsHeard payloads arrivals rest r ∧ classify r = .error e := by
  obtain ⟨after, brings⟩ := await_hears short s requestId arrivals awaits
  unfold call at called
  split at called
  · cases called
    refine ⟨awaits, ?_⟩
    rintro e ⟨⟩ verdict
    exact verdict.elim
  · split at called
    · next r later more waited =>
      cases called
      rw [waited] at after brings
      refine ⟨?_, fun e ended _ => ⟨r, brings, Option.some.inj ended⟩⟩
      unfold settle
      split <;> exact after
    · next other =>
      rw [called] at after brings
      refine ⟨after, ?_⟩
      rintro e rfl verdict
      exact absurd verdict brings

end Session

end Hearing

end Client

end SessionRelay
