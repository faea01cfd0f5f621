import SessionRelay.Proofs.Wire.Frame

/-!
Two readers of frames. One is given the bytes of a frame and nothing else, the other keeps bytes
until they begin with a frame. They check the same length, the one for being all that follows, the
other for being no more than that, and of any bytes each can be told from the other.
-/

namespace SessionRelay.Wire

/-- A length that no frame of the codec has. -/
def CodecError.RefusesLength : CodecError → Prop
  | .zeroLength => True
  | .lengthTooLarge _ _ => True
  | _ => False

/-- There are fewer bytes than the frame has. -/
def CodecError.WantsMore : CodecError → Prop
  | .frameTooShort _ => True
  | .lengthMismatch declared actual => actual < declared
  | _ => False

theorem CodecError.RefusesLength.not_wantsMore {e : CodecError} (h : e.RefusesLength) :
    ¬ e.WantsMore := by
  cases e <;> simp_all [RefusesLength, WantsMore]

namespace Codec

variable {α : Type} {codec : Codec} {bytes payload : Bytes} {e : CodecError}

theorem refusesLength_of_checkLength {declared : Nat}
    (h : codec.checkLength declared = .error e) : e.RefusesLength := by
  rcases FrameBuffer.checkLength_eq_error h with ⟨-, rfl⟩ | ⟨-, rfl⟩ <;> trivial

section Buffered

variable (take : Json.Taking α)

/-! What the one reader says, by what the other gave. -/

theorem decode_of_next_error (h : (FrameBuffer.mk bytes).next codec = .error e) :
    codec.decode take bytes = .error e ∧ e.RefusesLength := by
  unfold FrameBuffer.next at h
  split at h
  · cases h
  · next declared rest split =>
    dsimp only at split
    split at h
    · next refused =>
      cases h
      rw [decode, split]
      dsimp only
      rw [refused]
      exact ⟨rfl, refusesLength_of_checkLength refused⟩
    · split at h <;> cases h

theorem decode_of_next_none (h : (FrameBuffer.mk bytes).next codec = .ok none) :
    ∃ e, codec.decode take bytes = .error e ∧ e.WantsMore := by
  unfold FrameBuffer.next at h
  split at h
  · next split =>
    dsimp only at split
    exact ⟨.frameTooShort bytes.length, by rw [decode, split], trivial⟩
  · next declared rest split =>
    dsimp only at split
    split at h
    · cases h
    · next accepted =>
      split at h
      · next less =>
        have other : rest.length ≠ declared := Nat.ne_of_lt less
        refine ⟨.lengthMismatch declared rest.length, ?_, less⟩
        rw [decode, split]
        dsimp only
        rw [accepted]
        exact if_neg other
      · cases h

theorem decode_of_next_some {rest : FrameBuffer}
    (h : (FrameBuffer.mk bytes).next codec = .ok (some (payload, rest))) :
    codec.decode take bytes =
      if rest.pending = [] then decodePayload take payload
      else .error (.lengthMismatch payload.length (payload.length + rest.size)) := by
  obtain ⟨length, four, value, positive, fits, whole⟩ := FrameBuffer.split_of_next h
  have accepted : codec.checkLength payload.length = .ok () :=
    FrameBuffer.checkLength_eq_ok.mpr ⟨positive, fits⟩
  dsimp only at whole
  rw [decode, whole, splitHeader?_append four, value]
  dsimp only
  rw [accepted, List.length_append]
  dsimp only
  by_cases all : rest.pending = []
  · rw [if_pos all, all, List.append_nil]
    exact if_pos rfl
  · have more : rest.pending.length ≠ 0 := fun none => all (List.length_eq_zero_iff.mp none)
    rw [if_neg all]
    exact if_neg (by omega)

end Buffered

/-- What is handed out and what is kept are the bytes after the length. -/
theorem pending_of_next {rest : FrameBuffer}
    (h : (FrameBuffer.mk bytes).next codec = .ok (some (payload, rest))) :
    rest.pending = bytes.drop (headerSize + payload.length) := by
  obtain ⟨length, four, -, -, -, whole⟩ := FrameBuffer.split_of_next h
  dsimp only at whole
  have size : (length ++ payload).length = headerSize + payload.length := by
    rw [List.length_append, four, headerSize]
  rw [whole, ← List.append_assoc, ← size, List.drop_left]

/-- What bytes decode to as a frame, and what a new buffer gives that is fed with them. -/
structure Agrees (codec : Codec) (take : Json.Taking α) (bytes : Bytes) : Prop where
  value : ∀ a, codec.decode take bytes = .ok a ↔
    ∃ payload, (FrameBuffer.empty.push bytes).next codec = .ok (some (payload, .empty)) ∧
      decodePayload take payload = .ok a
  fault : ∀ reason, codec.decode take bytes = .error (.decodeFailed reason) ↔
    ∃ payload, (FrameBuffer.empty.push bytes).next codec = .ok (some (payload, .empty)) ∧
      decodePayload take payload = .error (.decodeFailed reason)
  refusal : ∀ e, codec.decode take bytes = .error e ∧ e.RefusesLength ↔
    (FrameBuffer.empty.push bytes).next codec = .error e
  want : (∃ e, codec.decode take bytes = .error e ∧ e.WantsMore) ↔
    (FrameBuffer.empty.push bytes).next codec = .ok none
  surplus : ∀ declared actual,
    codec.decode take bytes = .error (.lengthMismatch declared actual) ∧ declared < actual ↔
      ∃ payload rest, (FrameBuffer.empty.push bytes).next codec = .ok (some (payload, rest)) ∧
        payload.length = declared ∧ payload.length + rest.size = actual ∧
        rest.pending ≠ [] ∧ rest.pending = bytes.drop (headerSize + declared)

theorem push_empty (bytes : Bytes) : FrameBuffer.empty.push bytes = ⟨bytes⟩ := rfl

theorem agrees_of_next_error (take : Json.Taking α)
    (h : (FrameBuffer.mk bytes).next codec = .error e) : Agrees codec take bytes := by
  obtain ⟨decoded, refuses⟩ := decode_of_next_error take h
  constructor
  case value => simp [push_empty, decoded, h]
  case fault =>
    intro reason
    simp only [push_empty, decoded, h, Except.error.injEq, reduceCtorEq, false_and, exists_false,
      iff_false]
    rintro rfl
    exact refuses
  case refusal =>
    intro e'
    simp only [push_empty, decoded, h, Except.error.injEq]
    exact ⟨fun same => same.1, fun same => ⟨same, same ▸ refuses⟩⟩
  case want =>
    simp only [push_empty, decoded, h, Except.error.injEq, reduceCtorEq, iff_false]
    rintro ⟨e', rfl, wants⟩
    exact refuses.not_wantsMore wants
  case surplus =>
    intro declared actual
    simp only [push_empty, decoded, h, Except.error.injEq, reduceCtorEq, false_and, exists_false,
      iff_false]
    rintro ⟨rfl, -⟩
    exact refuses

theorem agrees_of_next_none (take : Json.Taking α)
    (h : (FrameBuffer.mk bytes).next codec = .ok none) : Agrees codec take bytes := by
  obtain ⟨e, decoded, wants⟩ := decode_of_next_none take h
  constructor
  case value => simp [push_empty, decoded, h]
  case fault =>
    intro reason
    simp only [push_empty, decoded, h, Except.error.injEq, Except.ok.injEq, reduceCtorEq, false_and,
      exists_false, iff_false]
    rintro rfl
    exact wants
  case refusal =>
    intro e'
    simp only [push_empty, decoded, h, Except.error.injEq, reduceCtorEq, iff_false]
    rintro ⟨rfl, refuses⟩
    exact refuses.not_wantsMore wants
  case want => exact ⟨fun _ => h, fun _ => ⟨e, decoded, wants⟩⟩
  case surplus =>
    intro declared actual
    simp only [push_empty, decoded, h, Except.error.injEq, Except.ok.injEq, reduceCtorEq, false_and,
      exists_false, iff_false]
    rintro ⟨rfl, more⟩
    exact Nat.lt_asymm more wants

theorem agrees_of_next_whole (take : Json.Taking α)
    (h : (FrameBuffer.mk bytes).next codec = .ok (some (payload, .empty))) :
    Agrees codec take bytes := by
  have decoded : codec.decode take bytes = decodePayload take payload :=
    decode_of_next_some take h
  have failed {e : CodecError} (error : decodePayload take payload = .error e) :
      ∃ reason, e = .decodeFailed reason := decodePayload_eq_error error
  constructor
  case value => simp [push_empty, decoded, h]
  case fault => simp [push_empty, decoded, h]
  case refusal =>
    intro e
    simp only [push_empty, decoded, h, reduceCtorEq, iff_false]
    rintro ⟨error, refuses⟩
    obtain ⟨reason, rfl⟩ := failed error
    exact refuses
  case want =>
    simp only [push_empty, decoded, h, Except.ok.injEq, reduceCtorEq, iff_false]
    rintro ⟨e, error, wants⟩
    obtain ⟨reason, rfl⟩ := failed error
    exact wants
  case surplus =>
    intro declared actual
    simp only [push_empty, decoded, h]
    constructor
    · rintro ⟨error, -⟩
      obtain ⟨reason, other⟩ := failed error
      cases other
    · rintro ⟨_, _, same, -, -, kept, -⟩
      cases same
      exact absurd rfl kept

theorem agrees_of_next_more (take : Json.Taking α) {rest : FrameBuffer}
    (h : (FrameBuffer.mk bytes).next codec = .ok (some (payload, rest)))
    (more : rest.pending ≠ []) : Agrees codec take bytes := by
  have decoded := decode_of_next_some take h
  rw [if_neg more] at decoded
  have other : rest ≠ .empty := fun none => more (congrArg FrameBuffer.pending none)
  have size : 0 < rest.size := List.length_pos_iff.mpr more
  constructor
  case value => simp [push_empty, decoded, h, other]
  case fault => simp [push_empty, decoded, h, other]
  case refusal =>
    intro e
    simp only [push_empty, decoded, h, Except.error.injEq, reduceCtorEq, iff_false]
    rintro ⟨rfl, refuses⟩
    exact refuses
  case want =>
    simp only [push_empty, decoded, h, Except.error.injEq, Except.ok.injEq, reduceCtorEq, iff_false]
    rintro ⟨e, rfl, wants⟩
    exact Nat.not_lt_of_le (Nat.le_add_right _ _) wants
  case surplus =>
    intro declared actual
    simp only [push_empty, decoded, h, Except.error.injEq, CodecError.lengthMismatch.injEq,
      Except.ok.injEq, Option.some.injEq, Prod.mk.injEq]
    constructor
    · rintro ⟨⟨rfl, rfl⟩, -⟩
      exact ⟨payload, rest, ⟨rfl, rfl⟩, rfl, rfl, more, pending_of_next h⟩
    · rintro ⟨_, _, ⟨rfl, rfl⟩, rfl, rfl, -, -⟩
      exact ⟨⟨rfl, rfl⟩, by omega⟩

/-- Any bytes are a frame for the one reader as they are for the other, and where they are not, both
tell why in the same way: a length that is refused, bytes that are wanted, or bytes too many. -/
theorem decode_agrees_with_next (codec : Codec) (take : Json.Taking α) (bytes : Bytes) :
    Agrees codec take bytes := by
  cases h : (FrameBuffer.mk bytes).next codec with
  | error e => exact agrees_of_next_error take h
  | ok given =>
    cases given with
    | none => exact agrees_of_next_none take h
    | some given =>
      obtain ⟨payload, ⟨rest⟩⟩ := given
      cases rest with
      | nil => exact agrees_of_next_whole take h
      | cons b rest => exact agrees_of_next_more take h (List.cons_ne_nil b rest)

end Codec

end SessionRelay.Wire
