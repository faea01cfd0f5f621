import SessionRelay.Broker.Reader
import SessionRelay.Proofs.Wire.Frame

/-!
What the broker hears of a client is what the client's stream is by the grammar of frames, however
the stream was cut into chunks and whatever timeouts came between them.
-/

namespace SessionRelay.Broker

open Wire

namespace Chunk

/-- Is the stream at its end? -/
def isEnd : Chunk → Bool
  | .bytes data => data.isEmpty
  | .finished => true
  | .failed fault => !fault.isTimeout

def content : Chunk → Bytes
  | .bytes data => data
  | _ => []

/-- The bytes that reads give before the stream ends. -/
def stream : List Chunk → Bytes
  | [] => []
  | chunk :: rest => if chunk.isEnd then [] else chunk.content ++ stream rest

end Chunk

/-- What is heard of a client after its frames: a refused length, if there is one, and the end. -/
def closing (client : Nat) (refusal : Option CodecError) (ended : Bool) : List Arrival :=
  match refusal with
  | some e => [.malformed client e.message, .disconnected client]
  | none => if ended then [.disconnected client] else []

namespace Reader

/-- All that is heard from one read after the other. -/
def hears (codec : Codec) : Reader → List Chunk → List Arrival
  | _, [] => []
  | r, chunk :: rest => (r.take codec chunk).2 ++ hears codec (r.take codec chunk).1 rest

theorem hears_done (codec : Codec) {r : Reader} (done : r.isDone = true) (chunks : List Chunk) :
    r.hears codec chunks = [] := by
  induction chunks with
  | nil => rfl
  | cons chunk rest ih =>
    have silent : r.take codec chunk = (r, []) := by
      unfold take
      rw [if_pos done]
    rw [hears, silent, ih]
    rfl

variable {r : Reader} (running : r.isDone = false)
include running

theorem take_of_isEnd (codec : Codec) {chunk : Chunk} (ends : chunk.isEnd = true) :
    r.take codec chunk = ({ r with isDone := true }, [.disconnected r.client]) := by
  unfold take
  rw [if_neg (by simp [running])]
  cases chunk with
  | bytes data =>
    cases data with
    | nil => rfl
    | cons b rest => cases ends
  | finished => rfl
  | failed fault =>
    simp only [Chunk.isEnd, Bool.not_eq_true'] at ends
    simp [ends, finish]

/-- A read before the end gives the frames that are complete with it, and after a refused length
the reader stops. -/
theorem take_of_not_isEnd (codec : Codec) {chunk : Chunk}
    (idle : r.buffer.drain codec = ⟨[], none, r.buffer⟩) (goes : chunk.isEnd = false) :
    r.take codec chunk =
      let drained := (r.buffer.push chunk.content).drain codec
      ({ r with buffer := drained.left, isDone := drained.refusal.isSome },
        drained.payloads.map (.frame r.client) ++ closing r.client drained.refusal false) := by
  unfold take
  rw [if_neg (by simp [running])]
  cases chunk with
  | bytes data =>
    cases data with
    | nil => cases goes
    | cons b rest =>
      simp only [Chunk.content]
      cases refusal : ((r.buffer.push (b :: rest)).drain codec).refusal with
      | none => simp [closing, running]
      | some e => simp [closing, finish]
  | finished => cases goes
  | failed fault =>
    simp only [Chunk.isEnd, Bool.not_eq_false'] at goes
    simp only [Chunk.content, FrameBuffer.push_nil, idle, goes, if_true]
    simp [closing, ← running]

/-- What is heard is the frames of the stream, and then the end. -/
theorem hears_eq (codec : Codec) (idle : r.buffer.drain codec = ⟨[], none, r.buffer⟩)
    (chunks : List Chunk) :
    r.hears codec chunks =
      let drained := (r.buffer.push (Chunk.stream chunks)).drain codec
      drained.payloads.map (.frame r.client) ++
        closing r.client drained.refusal (chunks.any Chunk.isEnd) := by
  induction chunks generalizing r with
  | nil =>
    simp only [hears, Chunk.stream, FrameBuffer.push_nil, idle]
    rfl
  | cons chunk rest ih =>
    rw [hears, Chunk.stream, List.any_cons]
    cases ends : chunk.isEnd with
    | true =>
      rw [take_of_isEnd running codec ends, hears_done codec rfl]
      simp only [if_true, FrameBuffer.push_nil, idle]
      rfl
    | false =>
      rw [take_of_not_isEnd running codec idle ends]
      simp only [Bool.false_or, Bool.false_eq_true, if_false, FrameBuffer.push_append]
      cases refusal : ((r.buffer.push chunk.content).drain codec).refusal with
      | some e =>
        rw [hears_done codec rfl, FrameBuffer.drain_push_of_refusal refusal, List.append_nil]
        rfl
      | none =>
        have left := FrameBuffer.drain_left (r.buffer.push chunk.content) codec
        rw [refusal] at left
        rw [ih rfl left, FrameBuffer.drain_push (r.buffer.push chunk.content)]
        simp [closing]

end Reader

/-- A stream is of the grammar in exactly one way, and that is what a buffer makes of it and what
the broker hears of it, however it is cut. A refused length stays refused: it leaves the bytes in
their place and gives nothing more. What was written as frames comes back payload by payload. -/
theorem stream_heard_as_parsed (limit : Nat) (s : Bytes) :
    ∃ payloads ending, Parses limit s payloads ending ∧
      (∀ others ending', Parses limit s others ending' → others = payloads ∧ ending' = ending) ∧
      (∀ chunks : List Bytes, chunks.flatten = s →
        FrameBuffer.feed ⟨limit⟩ chunks = ⟨payloads, ending.refusal, ⟨ending.left⟩⟩ ∧
        (FrameBuffer.feed ⟨limit⟩ chunks).left.size = ending.left.length) ∧
      (∀ e left, ending = .refused e left →
        (e = .zeroLength ∨ ∃ length, e = .lengthTooLarge length limit) ∧
        ∀ more, (FrameBuffer.mk (left ++ more)).next ⟨limit⟩ = .error e ∧
          (FrameBuffer.mk (left ++ more)).drain ⟨limit⟩ = ⟨[], some e, ⟨left ++ more⟩⟩) ∧
      (∀ client reads, Chunk.stream reads = s →
        (Reader.new client).hears ⟨limit⟩ reads =
          payloads.map (.frame client) ++
            closing client ending.refusal (reads.any Chunk.isEnd)) ∧
      (∀ written : List (Json.Value × Bytes),
        (∀ w ∈ written, Codec.encode ⟨limit⟩ w.1 = .ok w.2 ∧ w.1.bytes.length < 0x100000000) →
        written.flatMap Prod.snd = s →
        payloads = (written.map fun w => w.1.bytes) ∧ ending = .incomplete []) := by
  obtain ⟨payloads, ending, parses⟩ : ∃ payloads ending, Parses limit s payloads ending :=
    ⟨_, _, FrameBuffer.parses_drain ⟨s⟩ limit⟩
  have drained := FrameBuffer.drain_of_parses parses
  refine ⟨payloads, ending, parses, fun _ _ other => other.unique parses, ?_, ?_, ?_, ?_⟩
  · intro chunks cut
    rw [FrameBuffer.feed_eq_drain, cut, drained]
    exact ⟨rfl, rfl⟩
  · rintro e left rfl
    refine ⟨parses.refused_cases rfl, fun more => ?_⟩
    exact ⟨parses.stuck more, FrameBuffer.drain_of_error (parses.stuck more)⟩
  · intro client reads cut
    have heard := Reader.hears_eq (r := .new client) rfl ⟨limit⟩ (FrameBuffer.drain_of_none rfl)
      reads
    have whole : (Reader.new client).buffer.push (Chunk.stream reads) = ⟨s⟩ := by
      rw [cut]
      rfl
    rw [heard, whole, drained]
    rfl
  · rintro written encoded rfl
    exact parses.unique (parses_encoded written (fun w member => (encoded w member).1)
      fun w member => (encoded w member).2)

/-- Two frames that were cut within a length are the frames that they are in one piece. -/
theorem split_frames_heard :
    FrameBuffer.feed ⟨16⟩ [[0, 0], [0, 1, 65, 0, 0, 0], [1, 66]] =
      FrameBuffer.feed ⟨16⟩ [[0, 0, 0, 1, 65, 0, 0, 0, 1, 66]] := by
  obtain ⟨payloads, ending, -, -, fed, -⟩ :=
    stream_heard_as_parsed 16 [0, 0, 0, 1, 65, 0, 0, 0, 1, 66]
  exact (fed _ rfl).1.trans (fed _ rfl).1.symm

end SessionRelay.Broker
