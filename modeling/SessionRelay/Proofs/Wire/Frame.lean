import SessionRelay.Wire.Frame

/-!
A stream of frames, and what a frame buffer makes of it. The grammar of streams does not know of
buffers or chunks; a buffer that is fed any chunks gives what the grammar gives for all their bytes.
-/

namespace SessionRelay.Wire

/-- The number that bytes write, most significant first. -/
def bigEndian (bytes : Bytes) : Nat := bytes.foldl (fun n b => n * 256 + b.toNat) 0

/-- How a stream ends: in the middle of a frame or between two, or in a length that is refused and
whatever follows it. -/
inductive Ending where
  | incomplete (tail : Bytes)
  | refused (e : CodecError) (left : Bytes)
  deriving DecidableEq, Repr

namespace Ending

def refusal : Ending → Option CodecError
  | .incomplete _ => none
  | .refused e _ => some e

/-- The bytes that belong to no complete frame. -/
def left : Ending → Bytes
  | .incomplete tail => tail
  | .refused _ left => left

theorem ext_of {a b : Ending} (refusal : a.refusal = b.refusal) (left : a.left = b.left) :
    a = b := by
  cases a with
  | incomplete tail =>
    cases b with
    | incomplete tail' => exact congrArg _ left
    | refused e rest => cases refusal
  | refused e rest =>
    cases b with
    | incomplete tail => cases refusal
    | refused e' rest' =>
      cases refusal
      exact congrArg _ left

end Ending

/-- The payloads of a stream and how it ends: frames of a length of four bytes and as many bytes as
it says, which are at least one and at most the limit. -/
inductive Parses (limit : Nat) : Bytes → List Bytes → Ending → Prop where
  | frame {length payload rest : Bytes} {payloads : List Bytes} {ending : Ending} :
    length.length = 4 → bigEndian length = payload.length → 1 ≤ payload.length →
    payload.length ≤ limit → Parses limit rest payloads ending →
    Parses limit (length ++ (payload ++ rest)) (payload :: payloads) ending
  | short {tail : Bytes} : tail.length < 4 → Parses limit tail [] (.incomplete tail)
  | partway {length body : Bytes} :
    length.length = 4 → 1 ≤ bigEndian length → bigEndian length ≤ limit →
    body.length < bigEndian length →
    Parses limit (length ++ body) [] (.incomplete (length ++ body))
  | zero {length rest : Bytes} :
    length.length = 4 → bigEndian length = 0 →
    Parses limit (length ++ rest) [] (.refused .zeroLength (length ++ rest))
  | tooLarge {length rest : Bytes} :
    length.length = 4 → limit < bigEndian length →
    Parses limit (length ++ rest) []
      (.refused (.lengthTooLarge (bigEndian length) limit) (length ++ rest))

/-- What gives no payload is left as it is. -/
theorem Parses.left_eq {limit : Nat} {s : Bytes} {ending : Ending}
    (parses : Parses limit s [] ending) : ending.left = s := by
  cases parses <;> rfl

/-! ### Lengths -/

theorem splitHeader?_append {length : Bytes} (four : length.length = 4) (rest : Bytes) :
    splitHeader? (length ++ rest) = some (bigEndian length, rest) := by
  match length, four with
  | [a, b, c, d], _ => simp [splitHeader?, bigEndian]

theorem splitHeader?_eq_none {bytes : Bytes} (short : bytes.length < 4) :
    splitHeader? bytes = none := by
  match bytes, short with
  | [], _ => rfl
  | [_], _ => rfl
  | [_, _], _ => rfl
  | [_, _, _], _ => rfl
  | _ :: _ :: _ :: _ :: _, long =>
    simp only [List.length_cons] at long
    omega

theorem splitHeader?_push {bytes rest : Bytes} {declared : Nat}
    (split : splitHeader? bytes = some (declared, rest)) (more : Bytes) :
    splitHeader? (bytes ++ more) = some (declared, rest ++ more) := by
  unfold splitHeader? at split
  split at split
  · cases split
    rfl
  · cases split

theorem length_of_splitHeader?_none {bytes : Bytes} (none : splitHeader? bytes = none) :
    bytes.length < 4 := by
  match bytes, none with
  | [], _ => decide
  | [_], _ => simp
  | [_, _], _ => simp
  | [_, _, _], _ => simp

theorem eq_append_of_splitHeader? {bytes rest : Bytes} {declared : Nat}
    (split : splitHeader? bytes = some (declared, rest)) :
    ∃ length, length.length = 4 ∧ bytes = length ++ rest ∧ bigEndian length = declared := by
  unfold splitHeader? at split
  split at split
  · next a b c d rest' =>
    cases split
    exact ⟨[a, b, c, d], rfl, rfl, by simp [bigEndian]⟩
  · cases split

/-- Of a length that is written as much is read as four bytes can hold. -/
theorem bigEndian_header_mod (n : Nat) : bigEndian (header n) = n % 0x100000000 := by
  simp only [bigEndian, header, List.foldl_cons, List.foldl_nil, UInt8.toNat_ofNat']
  omega

theorem bigEndian_header {n : Nat} (fits : n < 0x100000000) : bigEndian (header n) = n := by
  rw [bigEndian_header_mod, Nat.mod_eq_of_lt fits]

/-! ### Frames as they are written -/

/-- A payload as it is sent, with its length in front. -/
def framed (payload : Bytes) : Bytes := header payload.length ++ payload

theorem length_framed (payload : Bytes) : (framed payload).length = headerSize + payload.length :=
  List.length_append

theorem eq_framed {codec : Codec} {payload frame : Bytes}
    (written : codec.frame payload = .ok frame) :
    frame = framed payload ∧ payload.length ≤ codec.limit := by
  unfold Codec.frame at written
  split at written
  · cases written
  · split at written
    · cases written
    · next small =>
      cases written
      exact ⟨rfl, Nat.le_of_not_lt small⟩

theorem ne_nil_of_framed {codec : Codec} {payload frame : Bytes}
    (written : codec.frame payload = .ok frame) : payload ≠ [] := by
  rintro rfl
  cases written

theorem Codec.decodePayload_eq_error {α : Type} {take : Json.Taking α} {payload : Bytes}
    {e : CodecError} (wrong : decodePayload take payload = .error e) :
    ∃ reason, e = .decodeFailed reason := by
  unfold decodePayload at wrong
  split at wrong <;> cases wrong
  exact ⟨_, rfl⟩

/-! ### Buffers -/

namespace FrameBuffer

variable {b rest : FrameBuffer} {codec : Codec} {payload : Bytes} {e : CodecError}

@[simp] theorem push_nil (b : FrameBuffer) : b.push [] = b := by
  rw [push, List.append_nil]

theorem push_append (b : FrameBuffer) (bytes more : Bytes) :
    b.push (bytes ++ more) = (b.push bytes).push more := by
  rw [push, push, push, List.append_assoc]

theorem drain_of_error (h : b.next codec = .error e) : b.drain codec = ⟨[], some e, b⟩ := by
  rw [drain]
  split
  · next e' found =>
    rw [h] at found
    cases found
    rfl
  · next found =>
    rw [h] at found
    cases found
  · next found =>
    rw [h] at found
    cases found

theorem drain_of_none (h : b.next codec = .ok none) : b.drain codec = ⟨[], none, b⟩ := by
  rw [drain]
  split
  · next found =>
    rw [h] at found
    cases found
  · rfl
  · next found =>
    rw [h] at found
    cases found

theorem drain_of_some (h : b.next codec = .ok (some (payload, rest))) :
    b.drain codec =
      { rest.drain codec with payloads := payload :: (rest.drain codec).payloads } := by
  rw [drain]
  split
  · next found =>
    rw [h] at found
    cases found
  · next found =>
    rw [h] at found
    cases found
  · next payload' rest' found =>
    rw [h] at found
    cases found
    rfl

/-- A length that is refused stays refused, whatever follows it. -/
theorem next_push_of_error (h : b.next codec = .error e) (more : Bytes) :
    (b.push more).next codec = .error e := by
  unfold next at h
  split at h
  · cases h
  · next declared bytes split =>
    unfold next
    rw [push, splitHeader?_push split]
    dsimp only
    split at h
    · cases h
      rfl
    · split at h
      · cases h
      · cases h

/-- A payload that is complete stays as it is, and what follows it comes after what is left. -/
theorem next_push_of_some (h : b.next codec = .ok (some (payload, rest))) (more : Bytes) :
    (b.push more).next codec = .ok (some (payload, rest.push more)) := by
  unfold next at h
  split at h
  · cases h
  · next declared bytes split =>
    unfold next
    rw [push, splitHeader?_push split]
    dsimp only
    split at h
    · cases h
    · split at h
      · cases h
      · next complete =>
        cases h
        have enough : declared ≤ bytes.length := Nat.le_of_not_lt complete
        rw [if_neg (by rw [List.length_append]; omega), List.take_append_of_le_length enough,
          List.drop_append_of_le_length enough]
        rfl

/-- What comes later does not change what was given before. -/
theorem drain_push (b : FrameBuffer) (codec : Codec) (more : Bytes) :
    (b.push more).drain codec =
      { ((b.drain codec).left.push more).drain codec with
        payloads := (b.drain codec).payloads ++
          (((b.drain codec).left.push more).drain codec).payloads } := by
  induction b using drain.induct codec with
  | case1 b e h => rw [drain_of_error h, List.nil_append]
  | case2 b h => rw [drain_of_none h, List.nil_append]
  | case3 b payload rest h ih =>
    rw [drain_of_some (next_push_of_some h more), drain_of_some h, ih]
    rfl

/-- What is left gives nothing more. -/
theorem drain_left (b : FrameBuffer) (codec : Codec) :
    (b.drain codec).left.drain codec =
      ⟨[], (b.drain codec).refusal, (b.drain codec).left⟩ := by
  induction b using drain.induct codec with
  | case1 b e h => rw [drain_of_error h, drain_of_error h]
  | case2 b h => rw [drain_of_none h, drain_of_none h]
  | case3 b payload rest h ih =>
    rw [drain_of_some h]
    exact ih

theorem next_left_of_refusal (refused : (b.drain codec).refusal = some e) :
    (b.drain codec).left.next codec = .error e := by
  induction b using drain.induct codec with
  | case1 b e' h =>
    rw [drain_of_error h] at refused ⊢
    cases refused
    exact h
  | case2 b h =>
    rw [drain_of_none h] at refused
    cases refused
  | case3 b payload rest h ih =>
    rw [drain_of_some h] at refused ⊢
    exact ih refused

/-- After a refused length nothing is given any more, and the bytes stay where they are. -/
theorem drain_push_of_refusal (refused : (b.drain codec).refusal = some e) (more : Bytes) :
    (b.push more).drain codec =
      ⟨(b.drain codec).payloads, some e, (b.drain codec).left.push more⟩ := by
  have stuck := next_push_of_error (next_left_of_refusal refused) more
  rw [drain_push, drain_of_error stuck, List.append_nil]

/-- Pushes a chunk and takes out what is complete then. -/
def Drained.feed (codec : Codec) (d : Drained) (chunk : Bytes) : Drained :=
  let more := (d.left.push chunk).drain codec
  { more with payloads := d.payloads ++ more.payloads }

/-- What an empty buffer gives when it is fed chunks one by one. -/
def feed (codec : Codec) (chunks : List Bytes) : Drained :=
  chunks.foldl (Drained.feed codec) ⟨[], none, .empty⟩

/-- Chunks give what all their bytes give at once. -/
theorem feed_eq_drain (codec : Codec) (chunks : List Bytes) :
    feed codec chunks = (FrameBuffer.mk chunks.flatten).drain codec := by
  have from_start (s : Bytes) :
      chunks.foldl (Drained.feed codec) ((FrameBuffer.mk s).drain codec) =
        (FrameBuffer.mk (s ++ chunks.flatten)).drain codec := by
    induction chunks generalizing s with
    | nil => rw [List.flatten_nil, List.append_nil, List.foldl_nil]
    | cons chunk rest ih =>
      have first : ((FrameBuffer.mk s).drain codec).feed codec chunk =
          (FrameBuffer.mk (s ++ chunk)).drain codec := (drain_push ⟨s⟩ codec chunk).symm
      rw [List.foldl_cons, first, ih, List.flatten_cons, List.append_assoc]
  have empty : (FrameBuffer.mk []).drain codec = ⟨[], none, .empty⟩ := drain_of_none rfl
  rw [feed, ← empty]
  exact from_start []

/-! ### The grammar -/

theorem checkLength_eq_ok {limit declared : Nat} :
    (Codec.mk limit).checkLength declared = .ok () ↔ 1 ≤ declared ∧ declared ≤ limit := by
  unfold Codec.checkLength
  dsimp only
  split
  · next zero => simp [zero]
  · split
    · next more => simp only [reduceCtorEq, false_iff]; omega
    · next fits => simp only [true_iff]; omega

theorem checkLength_eq_error {limit declared : Nat} {e : CodecError}
    (refused : (Codec.mk limit).checkLength declared = .error e) :
    declared = 0 ∧ e = .zeroLength ∨ limit < declared ∧ e = .lengthTooLarge declared limit := by
  unfold Codec.checkLength at refused
  split at refused
  · next zero =>
    cases refused
    exact Or.inl ⟨zero, rfl⟩
  · split at refused
    · next more =>
      cases refused
      exact Or.inr ⟨more, rfl⟩
    · cases refused

/-- How a buffer that was emptied of payloads stands to the end of its stream. -/
def Drained.ending (d : Drained) : Ending :=
  match d.refusal with
  | none => .incomplete d.left.pending
  | some e => .refused e d.left.pending

theorem parses_of_error {limit : Nat} (h : b.next ⟨limit⟩ = .error e) :
    Parses limit b.pending [] (.refused e b.pending) := by
  unfold next at h
  split at h
  · cases h
  · next declared bytes split =>
    obtain ⟨length, four, whole, value⟩ := eq_append_of_splitHeader? split
    subst value
    split at h
    · next refused =>
      cases h
      rw [whole]
      rcases checkLength_eq_error refused with ⟨none, rfl⟩ | ⟨more, rfl⟩
      · exact .zero four none
      · exact .tooLarge four more
    · split at h
      · cases h
      · cases h

theorem parses_of_none {limit : Nat} (h : b.next ⟨limit⟩ = .ok none) :
    Parses limit b.pending [] (.incomplete b.pending) := by
  unfold next at h
  split at h
  · next split => exact .short (length_of_splitHeader?_none split)
  · next declared bytes split =>
    obtain ⟨length, four, whole, value⟩ := eq_append_of_splitHeader? split
    subst value
    split at h
    · cases h
    · next accepted =>
      split at h
      · next less =>
        obtain ⟨positive, fits⟩ := checkLength_eq_ok.mp accepted
        rw [whole]
        exact .partway four positive fits less
      · cases h

/-- A payload that is handed out stands first, after its length. -/
theorem split_of_next {limit : Nat} (h : b.next ⟨limit⟩ = .ok (some (payload, rest))) :
    ∃ length, length.length = 4 ∧ bigEndian length = payload.length ∧ 1 ≤ payload.length ∧
      payload.length ≤ limit ∧ b.pending = length ++ (payload ++ rest.pending) := by
  unfold next at h
  split at h
  · cases h
  · next declared bytes split =>
    obtain ⟨length, four, whole, value⟩ := eq_append_of_splitHeader? split
    split at h
    · cases h
    · next accepted =>
      split at h
      · cases h
      · next complete =>
        cases h
        obtain ⟨positive, fits⟩ := checkLength_eq_ok.mp accepted
        have size : (bytes.take declared).length = declared :=
          List.length_take_of_le (Nat.le_of_not_lt complete)
        refine ⟨length, four, value.trans size.symm, by omega, by omega, ?_⟩
        rw [List.take_append_drop, whole]

theorem parses_of_some {limit : Nat} (h : b.next ⟨limit⟩ = .ok (some (payload, rest)))
    {payloads : List Bytes} {ending : Ending}
    (parses : Parses limit rest.pending payloads ending) :
    Parses limit b.pending (payload :: payloads) ending := by
  obtain ⟨length, four, value, positive, fits, parts⟩ := split_of_next h
  rw [parts]
  exact .frame four value positive fits parses

/-- A buffer gives what its bytes are by the grammar. -/
theorem parses_drain (b : FrameBuffer) (limit : Nat) :
    Parses limit b.pending (b.drain ⟨limit⟩).payloads (b.drain ⟨limit⟩).ending := by
  induction b using drain.induct ⟨limit⟩ with
  | case1 b e h =>
    rw [drain_of_error h]
    exact parses_of_error h
  | case2 b h =>
    rw [drain_of_none h]
    exact parses_of_none h
  | case3 b payload rest h ih =>
    rw [drain_of_some h]
    exact parses_of_some h ih

/-- A frame gives its payload, whatever follows it. -/
theorem next_of_frame {limit : Nat} {length payload : Bytes} (four : length.length = 4)
    (declared : bigEndian length = payload.length) (positive : 1 ≤ payload.length)
    (fits : payload.length ≤ limit) (rest : Bytes) :
    (FrameBuffer.mk (length ++ (payload ++ rest))).next ⟨limit⟩ = .ok (some (payload, ⟨rest⟩)) := by
  rw [FrameBuffer.next, splitHeader?_append four, declared]
  dsimp only
  rw [checkLength_eq_ok.mpr ⟨positive, fits⟩]
  dsimp only
  rw [if_neg (by rw [List.length_append]; omega), List.take_left, List.drop_left]

/-- What bytes are by the grammar is what a buffer gives. -/
theorem drain_of_parses {limit : Nat} {s : Bytes} {payloads : List Bytes} {ending : Ending}
    (parses : Parses limit s payloads ending) :
    (FrameBuffer.mk s).drain ⟨limit⟩ = ⟨payloads, ending.refusal, ⟨ending.left⟩⟩ := by
  induction parses with
  | @frame length payload rest payloads ending four declared positive fits parses ih =>
    rw [drain_of_some (next_of_frame four declared positive fits rest), ih]
  | short less => exact drain_of_none (by rw [FrameBuffer.next, splitHeader?_eq_none less])
  | partway four positive fits less =>
    refine drain_of_none ?_
    rw [FrameBuffer.next, splitHeader?_append four]
    dsimp only
    rw [checkLength_eq_ok.mpr ⟨positive, fits⟩]
    dsimp only
    rw [if_pos less]
  | zero four none =>
    refine drain_of_error ?_
    rw [FrameBuffer.next, splitHeader?_append four, none]
    rfl
  | @tooLarge length rest four more =>
    refine drain_of_error ?_
    rw [FrameBuffer.next, splitHeader?_append four]
    dsimp only
    rw [Codec.checkLength, if_neg (by omega), if_pos more]

/-- A buffer that begins with a refused length, by the grammar. -/
theorem next_eq_error {limit : Nat} {s : Bytes} :
    (FrameBuffer.mk s).next ⟨limit⟩ = .error e ↔ Parses limit s [] (.refused e s) := by
  refine ⟨parses_of_error, fun parses => ?_⟩
  have drained := drain_of_parses parses
  cases h : (FrameBuffer.mk s).next ⟨limit⟩ with
  | error e' =>
    rw [drain_of_error h] at drained
    cases drained
    rfl
  | ok given =>
    cases given with
    | none =>
      rw [drain_of_none h] at drained
      cases drained
    | some given =>
      rw [drain_of_some h] at drained
      cases drained

/-- A buffer that begins with an incomplete frame, by the grammar. -/
theorem next_eq_none {limit : Nat} {s : Bytes} :
    (FrameBuffer.mk s).next ⟨limit⟩ = .ok none ↔ Parses limit s [] (.incomplete s) := by
  refine ⟨parses_of_none, fun parses => ?_⟩
  have drained := drain_of_parses parses
  cases h : (FrameBuffer.mk s).next ⟨limit⟩ with
  | error e' =>
    rw [drain_of_error h] at drained
    cases drained
  | ok given =>
    cases given with
    | none => rfl
    | some given =>
      rw [drain_of_some h] at drained
      cases drained

/-- A buffer that begins with a frame, by the grammar. -/
theorem next_eq_some {limit : Nat} {s : Bytes} :
    (FrameBuffer.mk s).next ⟨limit⟩ = .ok (some (payload, rest)) ↔
      ∃ frame, s = frame ++ rest.pending ∧ Parses limit frame [payload] (.incomplete []) := by
  constructor
  · intro h
    obtain ⟨length, four, value, positive, fits, parts⟩ := split_of_next h
    refine ⟨length ++ payload, by rw [List.append_assoc]; exact parts, ?_⟩
    have nothing : ([] : Bytes).length < 4 := by decide
    have alone := Parses.frame four value positive fits (.short nothing)
    rwa [List.append_nil] at alone
  · rintro ⟨frame, rfl, parses⟩
    have first : (FrameBuffer.mk frame).next ⟨limit⟩ = .ok (some (payload, .empty)) := by
      cases parses with
      | frame four declared positive fits after =>
        cases after.left_eq
        exact next_of_frame four declared positive fits []
    exact next_push_of_some first rest.pending

end FrameBuffer

/-- Every stream is of the grammar in exactly one way. -/
theorem Parses.unique {limit : Nat} {s : Bytes} {payloads others : List Bytes}
    {ending ending' : Ending} (one : Parses limit s payloads ending)
    (other : Parses limit s others ending') : payloads = others ∧ ending = ending' := by
  have same := (FrameBuffer.drain_of_parses one).symm.trans (FrameBuffer.drain_of_parses other)
  injection same with payloads refusal left
  exact ⟨payloads, Ending.ext_of refusal (FrameBuffer.mk.inj left)⟩

/-- A length is refused for being zero or for being too large. -/
theorem Parses.refused_cases {limit : Nat} {s : Bytes} {payloads : List Bytes} {ending : Ending}
    (parses : Parses limit s payloads ending) {e : CodecError} (refused : ending.refusal = some e) :
    e = .zeroLength ∨ ∃ length, e = .lengthTooLarge length limit := by
  induction parses with
  | frame _ _ _ _ _ ih => exact ih refused
  | short _ => cases refused
  | partway _ _ _ _ => cases refused
  | zero _ _ =>
    cases refused
    exact Or.inl rfl
  | tooLarge _ _ =>
    cases refused
    exact Or.inr ⟨_, rfl⟩

/-- A length that is refused stays refused. -/
theorem Parses.stuck {limit : Nat} {s left : Bytes} {payloads : List Bytes} {e : CodecError}
    (parses : Parses limit s payloads (.refused e left)) (more : Bytes) :
    (FrameBuffer.mk (left ++ more)).next ⟨limit⟩ = .error e := by
  have drained := FrameBuffer.drain_of_parses parses
  have refused : ((FrameBuffer.mk s).drain ⟨limit⟩).refusal = some e := by
    rw [drained]
    rfl
  have first := FrameBuffer.next_left_of_refusal refused
  rw [drained] at first
  exact FrameBuffer.next_push_of_error first more

/-- A frame around a payload whose length fits in four bytes comes back as that payload. -/
theorem parses_frame {codec : Codec} {payload frame : Bytes}
    (written : codec.frame payload = .ok frame) (fits : payload.length < 0x100000000)
    {rest : Bytes} {payloads : List Bytes} {ending : Ending}
    (parses : Parses codec.limit rest payloads ending) :
    Parses codec.limit (frame ++ rest) (payload :: payloads) ending := by
  obtain ⟨rfl, small⟩ := eq_framed written
  have positive : 1 ≤ payload.length := List.length_pos_iff.mpr (ne_nil_of_framed written)
  rw [framed, List.append_assoc]
  exact .frame rfl (bigEndian_header fits) positive small parses

/-- Frames that were written one after the other come back as their payloads, and nothing is
left. -/
theorem parses_encoded {codec : Codec} (written : List (Json.Value × Bytes))
    (encoded : ∀ w ∈ written, codec.encode w.1 = .ok w.2)
    (fits : ∀ w ∈ written, w.1.bytes.length < 0x100000000) :
    Parses codec.limit (written.flatMap Prod.snd) (written.map fun w => w.1.bytes)
      (.incomplete []) := by
  induction written with
  | nil => exact .short (by decide)
  | cons first rest ih =>
    rw [List.flatMap_cons, List.map_cons]
    refine parses_frame (encoded first List.mem_cons_self) (fits first List.mem_cons_self) ?_
    exact ih (fun w member => encoded w (List.mem_cons_of_mem _ member))
      fun w member => fits w (List.mem_cons_of_mem _ member)

end SessionRelay.Wire
