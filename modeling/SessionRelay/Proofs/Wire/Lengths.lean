import SessionRelay.Config.Settings
import SessionRelay.Proofs.Json.Scanned
import SessionRelay.Proofs.Wire.Frame

/-!
What the length in front of a frame says. Four bytes hold it, and the limit of a codec may be more
than they can hold. A payload below that comes back from its frame; of a longer one the length is
cut, and its frame is either refused or taken for another, shorter one with bytes after it.
-/

namespace SessionRelay.Wire

open Json

/-- The length in front of a frame is that of the bytes after it. -/
def TellsLength (frame : Bytes) : Prop :=
  bigEndian (frame.take headerSize) = (frame.drop headerSize).length

section

variable (payload : Bytes)

@[simp] theorem take_framed : (framed payload).take headerSize = header payload.length := rfl

@[simp] theorem drop_framed : (framed payload).drop headerSize = payload := rfl

theorem splitHeader?_framed :
    splitHeader? (framed payload) = some (payload.length % 0x100000000, payload) := by
  have four : (header payload.length).length = 4 := rfl
  rw [framed, splitHeader?_append four, bigEndian_header_mod]

theorem tellsLength_framed : TellsLength (framed payload) ↔ payload.length < 0x100000000 := by
  rw [TellsLength, take_framed, drop_framed, bigEndian_header_mod,
    Nat.mod_eq_iff_lt (by decide)]

end

/-- A frame gives its payload, to those who are given it whole and to those who collect it. Only
what the payload itself says can be wrong with it. -/
structure ComesBack (codec : Codec) (payload frame : Bytes) : Prop where
  whole : frame = framed payload
  tells : TellsLength frame
  decode : ∀ {α : Type} (take : Taking α),
    codec.decode take frame = Codec.decodePayload take payload
  fault : ∀ {α : Type} (take : Taking α) (e : CodecError), codec.decode take frame = .error e →
    ∃ reason, e = .decodeFailed reason
  next : (FrameBuffer.empty.push frame).next codec = .ok (some (payload, .empty))

/-- The length in front of a frame is less than that of its payload. A length of zero is refused;
any other one ends the frame where its payload goes on. -/
structure GoesAstray (codec : Codec) (payload frame : Bytes) : Prop where
  whole : frame = framed payload
  less : bigEndian (frame.take headerSize) < (frame.drop headerSize).length
  refused : bigEndian (frame.take headerSize) = 0 →
    (∀ {α : Type} (take : Taking α), codec.decode take frame = .error .zeroLength) ∧
      (FrameBuffer.empty.push frame).next codec = .error .zeroLength
  cut : bigEndian (frame.take headerSize) ≠ 0 →
    (∀ {α : Type} (take : Taking α), codec.decode take frame =
      .error (.lengthMismatch (bigEndian (frame.take headerSize)) payload.length)) ∧
    (FrameBuffer.empty.push frame).next codec =
      .ok (some (payload.take (bigEndian (frame.take headerSize)),
        ⟨payload.drop (bigEndian (frame.take headerSize))⟩))

variable {codec : Codec} {payload frame : Bytes}

theorem comesBack_of_lt (written : codec.frame payload = .ok frame)
    (fits : payload.length < 0x100000000) : ComesBack codec payload frame := by
  obtain ⟨rfl, small⟩ := eq_framed written
  have positive : 1 ≤ payload.length := List.length_pos_iff.mpr (ne_nil_of_framed written)
  have accepted : codec.checkLength payload.length = .ok () :=
    FrameBuffer.checkLength_eq_ok.mpr ⟨positive, small⟩
  have split := splitHeader?_framed payload
  rw [Nat.mod_eq_of_lt fits] at split
  have decoded {α : Type} (take : Taking α) :
      codec.decode take (framed payload) = Codec.decodePayload take payload := by
    simp [Codec.decode, split, accepted]
  constructor
  case whole => rfl
  case tells => exact (tellsLength_framed payload).mpr fits
  case decode => exact decoded
  case fault =>
    intro α take e wrong
    exact Codec.decodePayload_eq_error (decoded take ▸ wrong)
  case next => simp [FrameBuffer.next, FrameBuffer.empty, FrameBuffer.push, split, accepted]

theorem goesAstray_of_le (written : codec.frame payload = .ok frame)
    (long : 0x100000000 ≤ payload.length) : GoesAstray codec payload frame := by
  obtain ⟨rfl, small⟩ := eq_framed written
  have split := splitHeader?_framed payload
  have declared : bigEndian ((framed payload).take headerSize) = payload.length % 0x100000000 := by
    rw [take_framed, bigEndian_header_mod]
  have less : payload.length % 0x100000000 < payload.length :=
    Nat.lt_of_lt_of_le (Nat.mod_lt _ (by decide)) long
  constructor
  case whole => rfl
  case less => rwa [declared, drop_framed]
  case refused =>
    rw [declared]
    intro zero
    have refused : codec.checkLength (payload.length % 0x100000000) = .error .zeroLength :=
      if_pos zero
    simp [Codec.decode, FrameBuffer.next, FrameBuffer.empty, FrameBuffer.push, split, refused]
  case cut =>
    rw [declared]
    intro some
    have accepted : codec.checkLength (payload.length % 0x100000000) = .ok () :=
      FrameBuffer.checkLength_eq_ok.mpr ⟨by omega, by omega⟩
    have other : payload.length ≠ payload.length % 0x100000000 := Nat.ne_of_gt less
    have enough : ¬ payload.length < payload.length % 0x100000000 := by omega
    constructor
    · intro α take
      simp only [Codec.decode, split, accepted]
      exact if_neg other
    · simp only [FrameBuffer.next, FrameBuffer.empty, FrameBuffer.push, List.nil_append, split,
        accepted]
      exact if_neg enough

/-- A value comes back from its frame if its length can be told in four bytes, as it always can
within a limit that can. Any other value that the limit admits goes astray. -/
theorem Codec.comesBack_iff_lt {codec : Codec} {v : Value} {frame : Bytes}
    (encoded : codec.encode v = .ok frame) :
    (codec.limit < 0x100000000 → v.bytes.length < 0x100000000) ∧
      (ComesBack codec v.bytes frame ↔ v.bytes.length < 0x100000000) ∧
      (GoesAstray codec v.bytes frame ↔ 0x100000000 ≤ v.bytes.length) := by
  obtain ⟨whole, small⟩ := eq_framed encoded
  refine ⟨fun limit => by omega, ⟨fun back => ?_, comesBack_of_lt encoded⟩,
    fun astray => ?_, goesAstray_of_le encoded⟩
  · exact (tellsLength_framed v.bytes).mp (whole ▸ back.tells)
  · refine Nat.le_of_not_lt fun fits => ?_
    have tells : TellsLength frame := whole ▸ (tellsLength_framed v.bytes).mpr fits
    exact Nat.ne_of_lt astray.less tells

/-- A text of so many letters. -/
def letters (n : Nat) : Value := .string (String.ofList (List.replicate n 'a'))

theorem length_letters (n : Nat) : (letters n).bytes.length = n + 2 := by
  have plain : escapeChar 'a' = ['a'] := by decide
  have single : String.utf8EncodeChar 'a' = [0x61] := by decide
  have quote : (String.utf8EncodeChar '\x22').length = 1 := by decide
  rw [Value.bytes_eq]
  simp [letters, Value.chars, stringChars, plain, List.flatMap_replicate, single, quote]
  omega

theorem encode_letters {codec : Codec} {n : Nat} (fits : n + 2 ≤ codec.limit) :
    codec.encode (letters n) = .ok (framed (letters n).bytes) := by
  have length := length_letters n
  have some : (letters n).bytes ≠ [] := List.ne_nil_of_length_pos (by omega)
  rw [Codec.encode, Codec.frame, if_neg (by simpa using some), if_neg (by omega), framed]

theorem three_letters_comeBack :
    Codec.standard.encode (letters 3) = .ok (framed (letters 3).bytes) ∧
      ComesBack .standard (letters 3).bytes (framed (letters 3).bytes) := by
  have encoded : Codec.standard.encode (letters 3) = .ok (framed (letters 3).bytes) :=
    encode_letters (by decide)
  have length := length_letters 3
  obtain ⟨-, back, -⟩ := Codec.comesBack_iff_lt encoded
  exact ⟨encoded, back.mpr (by omega)⟩

/-- The least limit that four bytes cannot hold. -/
def vastSettings : Config.Settings := { Config.Settings.standard with wire := ⟨0x100000000⟩ }

/-- As many letters as such a limit admits, with the quotes around them. -/
theorem vast_letters_goAstray :
    vastSettings.checked = .ok vastSettings ∧
    vastSettings.codec.encode (letters 0xFFFFFFFE) = .ok (framed (letters 0xFFFFFFFE).bytes) ∧
    ¬ TellsLength (framed (letters 0xFFFFFFFE).bytes) ∧
    vastSettings.codec.decode (Taking.value Value.maxDepth) (framed (letters 0xFFFFFFFE).bytes) =
      .error .zeroLength ∧
    (FrameBuffer.empty.push (framed (letters 0xFFFFFFFE).bytes)).next vastSettings.codec =
      .error .zeroLength := by
  have length := length_letters 0xFFFFFFFE
  have encoded : vastSettings.codec.encode (letters 0xFFFFFFFE) =
      .ok (framed (letters 0xFFFFFFFE).bytes) := encode_letters (by decide)
  have astray := goesAstray_of_le encoded (by omega)
  have zero : bigEndian ((framed (letters 0xFFFFFFFE).bytes).take headerSize) = 0 := by
    rw [take_framed, bigEndian_header_mod, length]
  obtain ⟨decoded, given⟩ := astray.refused zero
  have checked : vastSettings.checked = .ok vastSettings := by
    rw [Config.Settings.checked, if_neg (by decide), if_neg (by decide), if_neg (by decide),
      if_neg (by decide)]
  exact ⟨checked, encoded, Nat.ne_of_lt astray.less, decoded _, given⟩

end SessionRelay.Wire
