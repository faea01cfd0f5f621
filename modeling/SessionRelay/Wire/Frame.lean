import SessionRelay.Json.Decode

/-!
Frames: a payload with its length in front, four bytes, most significant first. `Codec.encode`
writes one, `Codec.decode` reads exactly one, and a `FrameBuffer` collects the bytes of a stream and
hands out the payloads as they become complete.
-/

namespace SessionRelay.Wire

/-- Why a frame cannot be written or read. -/
inductive CodecError where
  | payloadTooLarge (size limit : Nat)
  | frameTooShort (size : Nat)
  | lengthMismatch (declared actual : Nat)
  | zeroLength
  | lengthTooLarge (length limit : Nat)
  | encodeFailed (reason : String)
  | decodeFailed (reason : String)
  deriving DecidableEq, Repr

def CodecError.message : CodecError → String
  | .payloadTooLarge size limit => s!"payload size {size} exceeds limit {limit}"
  | .frameTooShort size => s!"frame size {size} is smaller than 4-byte header"
  | .lengthMismatch declared actual =>
    s!"frame length mismatch: declared {declared} bytes, actual payload {actual} bytes"
  | .zeroLength => "protocol error: frame length cannot be zero"
  | .lengthTooLarge length limit => s!"protocol error: frame length {length} exceeds max {limit}"
  | .encodeFailed reason => s!"json encode error: {reason}"
  | .decodeFailed reason => s!"json decode error: {reason}"

def headerSize : Nat := 4

def defaultLimit : Nat := 8 * 1024 * 1024

/-- The four bytes of a length; what does not fit them is cut off. -/
def header (length : Nat) : Bytes :=
  [UInt8.ofNat (length / 0x1000000), UInt8.ofNat (length / 0x10000), UInt8.ofNat (length / 0x100),
    UInt8.ofNat length]

/-- The length that four bytes declare, and the bytes after them. -/
def splitHeader? : Bytes → Option (Nat × Bytes)
  | a :: b :: c :: d :: rest =>
    some (((a.toNat * 256 + b.toNat) * 256 + c.toNat) * 256 + d.toNat, rest)
  | _ => none

/-- A codec with the greatest payload it writes or reads. -/
structure Codec where
  limit : Nat
  deriving DecidableEq, Repr

namespace Codec

def standard : Codec := ⟨defaultLimit⟩

def frame (codec : Codec) (payload : Bytes) : Except CodecError Bytes :=
  if payload.isEmpty then .error .zeroLength
  else if codec.limit < payload.length then
    .error (.payloadTooLarge payload.length codec.limit)
  else .ok (header payload.length ++ payload)

def encode (codec : Codec) (v : Json.Value) : Except CodecError Bytes :=
  codec.frame v.bytes

/-- Accepts a declared length. -/
def checkLength (codec : Codec) (declared : Nat) : Except CodecError Unit :=
  if declared = 0 then .error .zeroLength
  else if codec.limit < declared then .error (.lengthTooLarge declared codec.limit)
  else .ok ()

def decodePayload {α : Type} (take : Json.Taking α) (payload : Bytes) : Except CodecError α :=
  match take.whole payload with
  | .ok a => .ok a
  | .error fault => .error (.decodeFailed fault.text)

/-- The value in a frame with nothing after it. -/
def decode {α : Type} (codec : Codec) (take : Json.Taking α) (bytes : Bytes) :
    Except CodecError α :=
  match splitHeader? bytes with
  | none => .error (.frameTooShort bytes.length)
  | some (declared, payload) =>
    match codec.checkLength declared with
    | .error e => .error e
    | .ok () =>
      if payload.length = declared then decodePayload take payload
      else .error (.lengthMismatch declared payload.length)

end Codec

/-- The bytes of a stream that have not been handed out. -/
structure FrameBuffer where
  pending : Bytes
  deriving DecidableEq, Repr

namespace FrameBuffer

def empty : FrameBuffer := ⟨[]⟩

def push (b : FrameBuffer) (bytes : Bytes) : FrameBuffer := ⟨b.pending ++ bytes⟩

def size (b : FrameBuffer) : Nat := b.pending.length

/-- The next complete payload and the buffer without it; none while more bytes are needed. A length
that the codec refuses leaves the bytes where they are. -/
def next (b : FrameBuffer) (codec : Codec) : Except CodecError (Option (Bytes × FrameBuffer)) :=
  match splitHeader? b.pending with
  | none => .ok none
  | some (declared, rest) =>
    match codec.checkLength declared with
    | .error e => .error e
    | .ok () =>
      if rest.length < declared then .ok none
      else .ok (some (rest.take declared, ⟨rest.drop declared⟩))

/-- What a buffer gives until more bytes are needed or a length is refused, and what is left. -/
structure Drained where
  payloads : List Bytes
  refusal : Option CodecError
  left : FrameBuffer
  deriving DecidableEq, Repr

theorem splitHeader?_length {bytes : Bytes} {declared : Nat} {rest : Bytes}
    (h : splitHeader? bytes = some (declared, rest)) : rest.length < bytes.length := by
  unfold splitHeader? at h
  split at h
  · simp only [Option.some.injEq, Prod.mk.injEq] at h
    obtain ⟨-, rfl⟩ := h
    simp only [List.length_cons]
    omega
  · cases h

/-- A payload that is handed out leaves fewer bytes behind. -/
theorem size_lt_of_next {b rest : FrameBuffer} {codec : Codec} {payload : Bytes}
    (h : b.next codec = .ok (some (payload, rest))) : rest.size < b.size := by
  unfold next at h
  split at h
  · cases h
  · next declared bytes hsplit =>
    have hlt := splitHeader?_length hsplit
    split at h
    · cases h
    · split at h
      · cases h
      · simp only [Except.ok.injEq, Option.some.injEq, Prod.mk.injEq] at h
        obtain ⟨-, rfl⟩ := h
        simp only [size, List.length_drop]
        omega

/-- Takes out all payloads that are complete. -/
def drain (b : FrameBuffer) (codec : Codec) : Drained :=
  match _h : b.next codec with
  | .error e => ⟨[], some e, b⟩
  | .ok none => ⟨[], none, b⟩
  | .ok (some (payload, rest)) =>
    let more := rest.drain codec
    { more with payloads := payload :: more.payloads }
termination_by b.size
decreasing_by exact size_lt_of_next _h

end FrameBuffer

end SessionRelay.Wire
