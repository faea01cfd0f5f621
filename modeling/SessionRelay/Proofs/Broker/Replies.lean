import SessionRelay.Broker.Relay
import SessionRelay.Proofs.Broker.Journal
import SessionRelay.Proofs.Wire.Envelope

/-!
What a reply writes. A response that fits a frame is written as it is. One that does not is excused
by a failure that tells of the same request, and if not even that fits, nothing is written and the
connection is shut. No frame is ever cut short.
-/

namespace SessionRelay

open Wire

namespace Wire

/-- What is written of a response is read as what arrives of it. -/
def Response.ReadsAsWritten (r : Response) : Prop :=
  Codec.decodePayload Response.take r.toValue.bytes = .ok r.arrived

/-- A response is written within the limit of a codec. -/
def Response.Fits (codec : Codec) (r : Response) : Prop := r.toValue.bytes.length ≤ codec.limit

instance (codec : Codec) (r : Response) : Decidable (r.Fits codec) :=
  inferInstanceAs (Decidable (r.toValue.bytes.length ≤ codec.limit))

theorem Response.Portable.readsAsWritten {r : Response} (portable : r.Portable) :
    r.ReadsAsWritten :=
  Response.decodePayload_eq portable

section

variable {codec : Codec} {response : Response}

theorem Response.Fits.encode_eq (fits : response.Fits codec) :
    codec.encode response.toValue = .ok (framed response.toValue.bytes) :=
  encode_eq_ok codec (object_bytes_ne_nil _) fits

theorem Response.encode_of_not_fits (large : ¬ response.Fits codec) :
    codec.encode response.toValue =
      .error (.payloadTooLarge response.toValue.bytes.length codec.limit) := by
  have some : response.toValue.bytes ≠ [] := object_bytes_ne_nil _
  rw [Codec.encode, Codec.frame, if_neg (by simpa using some), if_pos (Nat.lt_of_not_le large)]

theorem Response.Fits.comesBack (fits : response.Fits codec) (narrow : codec.limit < 0x100000000) :
    ComesBack codec response.toValue.bytes (framed response.toValue.bytes) :=
  comesBack_of_lt fits.encode_eq (Nat.lt_of_le_of_lt fits narrow)

end

end Wire

namespace Broker

/-- The client and the frame, if one leaves. -/
def Effect.frame? : Effect → Option (Nat × Bytes)
  | .sent client frame => some (client, frame)
  | _ => none

/-- The frames that left, each with its client, the last one first. -/
def framesSent (journal : List Effect) : List (Nat × Bytes) := journal.filterMap Effect.frame?

/-- What takes the place of a response that is too large. -/
def excuse (codec : Codec) (response : Response) : Response :=
  substitute response (.payloadTooLarge response.toValue.bytes.length codec.limit)

/-- A failure that says of the same request that the response to it was too large. -/
structure Excuses (response said : Response) : Prop where
  success : said.success = false
  worker : said.worker = response.worker
  requestId : said.requestId = response.requestId
  responseTime : said.responseTime = response.responseTime
  message : ∃ why, said.message = some ("response too large: " ++ why)
  responseLength : said.responseLength = none
  payload : said.payload = none
  metadata : said.metadata = none

theorem excuse_excuses (codec : Codec) (response : Response) :
    Excuses response (excuse codec response) where
  success := rfl
  worker := rfl
  requestId := rfl
  responseTime := rfl
  message := ⟨_, rfl⟩
  responseLength := rfl
  payload := rfl
  metadata := rfl

/-- Whatever the response had in it, the excuse for it is read as it was written. -/
theorem decodePayload_excuse {response : Response} (codec : Codec)
    (timed : response.responseTime ≤ Integer.maxUnsigned) :
    Codec.decodePayload Response.take (excuse codec response).toValue.bytes =
      .ok (excuse codec response) :=
  Response.decodePayload_eq (Response.portable_failed response.worker _ response.requestId timed)

namespace Router

variable {α : Type} {r r' : Router α} {client : Nat} {response : Response}

/-! ### The courses of a reply -/

/-- The answer is decided on, and noted to be too large. -/
def warned (r : Router α) (client : Nat) (response : Response) : Router α :=
  let e : CodecError := .payloadTooLarge response.toValue.bytes.length r.setup.codec.limit
  (r.note (.answered client response)).log .warn
    "Response could not be encoded, answering with failure"
    [("client_id", .nat client), ("error", .string e.message)]

theorem reply_of_absent (response : Response) (absent : r.connection? client = none) :
    ∃ entry, r.reply client response = (r.note (.answered client response)).note (.log entry) := by
  have still : (r.note (.answered client response)).connection? client = none := absent
  simp only [reply, still]
  exact ⟨_, rfl⟩

section

variable {c : Connection} (found : r.connection? client = some c)
include found

theorem client_eq_of_connection? : c.client = client := by
  simpa using List.find?_some found

theorem reply_of_fits (fits : response.Fits r.setup.codec) :
    r.reply client response =
      (r.note (.answered client response)).send c (framed response.toValue.bytes) := by
  have there : (r.note (.answered client response)).connection? client = some c := found
  have encoded : (r.note (.answered client response)).setup.codec.encode response.toValue =
      .ok (framed response.toValue.bytes) := fits.encode_eq
  simp only [reply, there, encoded]

theorem reply_of_excuse_fits (large : ¬ response.Fits r.setup.codec)
    (fits : (excuse r.setup.codec response).Fits r.setup.codec) :
    r.reply client response =
      (r.warned client response).send c (framed (excuse r.setup.codec response).toValue.bytes) := by
  have there : (r.note (.answered client response)).connection? client = some c := found
  have refused : (r.note (.answered client response)).setup.codec.encode response.toValue =
      .error (.payloadTooLarge response.toValue.bytes.length r.setup.codec.limit) :=
    Response.encode_of_not_fits large
  have encoded : (r.warned client response).setup.codec.encode
      (excuse r.setup.codec response).toValue =
      .ok (framed (excuse r.setup.codec response).toValue.bytes) := fits.encode_eq
  simp only [warned, excuse] at encoded ⊢
  simp only [reply, there, refused, encoded]

/-- If not even the excuse fits, the client is given up. -/
theorem reply_of_nothing_fits (large : ¬ response.Fits r.setup.codec)
    (also : ¬ (excuse r.setup.codec response).Fits r.setup.codec) :
    ∃ reason, r.reply client response = (r.warned client response).giveUp client reason := by
  have there : (r.note (.answered client response)).connection? client = some c := found
  have refused : (r.note (.answered client response)).setup.codec.encode response.toValue =
      .error (.payloadTooLarge response.toValue.bytes.length r.setup.codec.limit) :=
    Response.encode_of_not_fits large
  have again : (r.warned client response).setup.codec.encode
      (excuse r.setup.codec response).toValue =
      .error (.payloadTooLarge (excuse r.setup.codec response).toValue.bytes.length
        r.setup.codec.limit) := Response.encode_of_not_fits also
  simp only [warned, excuse] at again ⊢
  simp only [reply, there, refused, again]
  exact ⟨_, rfl⟩

end

/-! ### What is written -/

/-- These frames leave for a client, and nothing but its connection and the journal is touched. -/
structure Writes (r : Router α) (client : Nat) (frames : List Bytes) (r' : Router α) : Prop where
  sent : framesSent r'.journal = frames.map (Prod.mk client) ++ framesSent r.journal
  others : r'.connections.filter (fun c => c.client != client) =
    r.connections.filter fun c => c.client != client
  rest : r' = { r with connections := r'.connections, journal := r'.journal }

/-- Nothing leaves for a client, and its connection is shut. -/
structure Drops (r : Router α) (client : Nat) (r' : Router α) : Prop where
  writes : r.Writes client [] r'
  connections : r'.connections = r.connections.filter fun c => c.client != client
  closed : r'.journal.head? = some (.closed client)

theorem Writes.trans {r'' : Router α} {frames more : List Bytes} (h : r.Writes client frames r')
    (h' : r'.Writes client more r'') : r.Writes client (more ++ frames) r'' where
  sent := by rw [h'.sent, h.sent, List.map_append, List.append_assoc]
  others := h'.others.trans h.others
  rest := by
    rw [h'.rest, h.rest]

theorem writes_note (r : Router α) (client : Nat) {e : Effect} (none : e.frame? = none) :
    r.Writes client [] (r.note e) where
  sent := List.filterMap_cons_none none
  others := rfl
  rest := rfl

theorem writes_warned (r : Router α) (client : Nat) (response : Response) :
    r.Writes client [] (r.warned client response) :=
  (r.writes_note client (e := .answered client response) rfl).trans (writes_note _ client rfl)

theorem writes_sent (r : Router α) (client : Nat) (frame : Bytes) :
    r.Writes client [frame] (r.note (.sent client frame)) where
  sent := rfl
  others := rfl
  rest := rfl

theorem drops_giveUp {c : Connection} (found : r.connection? client = some c) (reason : String) :
    r.Drops client (r.giveUp client reason) := by
  have there : ((r.log .warn "Failed to write response"
      [("client_id", .nat client), ("error", .string reason)]).connection? client).isSome := by
    exact Option.isSome_of_eq_some found
  rw [giveUp, disconnect, if_pos there]
  constructor
  case writes =>
    constructor
    case sent => rfl
    case others => exact List.filter_filter.trans (by simp only [Bool.and_self]; rfl)
    case rest => rfl
  case connections => rfl
  case closed => rfl

/-- The three ways to answer a client that can be written to, of which its limit decides. -/
structure Replies (r : Router α) (client : Nat) (response : Response) (r' : Router α) : Prop where
  whole : response.Fits r.setup.codec →
    r.Writes client [framed response.toValue.bytes] r' ∧ r'.connections = r.connections ∧
      ComesBack r.setup.codec response.toValue.bytes (framed response.toValue.bytes) ∧
      (response.ReadsAsWritten → r.setup.codec.decode Response.take
        (framed response.toValue.bytes) = .ok response.arrived)
  excused : ¬ response.Fits r.setup.codec →
    (excuse r.setup.codec response).Fits r.setup.codec →
    ∃ said, Excuses response said ∧ r.Writes client [framed said.toValue.bytes] r' ∧
      r'.connections = r.connections ∧
      ComesBack r.setup.codec said.toValue.bytes (framed said.toValue.bytes) ∧
      r.setup.codec.decode Response.take (framed said.toValue.bytes) = .ok said
  dropped : ¬ response.Fits r.setup.codec →
    ¬ (excuse r.setup.codec response).Fits r.setup.codec → r.Drops client r'
  kept : r'.connection? client = none →
    ¬ response.Fits r.setup.codec ∧ ¬ (excuse r.setup.codec response).Fits r.setup.codec

section

variable {c : Connection} (found : r.connection? client = some c)
include found

theorem writes_send_answered {before : Router α} (writes : r.Writes client [] before)
    (sound : c.fault = none) (frame : Bytes) : r.Writes client [frame] (before.send c frame) := by
  rw [send, sound, client_eq_of_connection? found]
  exact writes.trans (before.writes_sent client frame)

theorem writes_send_any {before : Router α} (writes : r.Writes client [] before)
    (there : before.connection? client = some c) (frame : Bytes) :
    ∃ frames, r.Writes client frames (before.send c frame) ∧
      frames.flatten.length ≤ frame.length := by
  cases fault : c.fault with
  | none => exact ⟨[frame], writes_send_answered found writes fault frame, by simp⟩
  | some reason =>
    refine ⟨[], ?_, Nat.zero_le _⟩
    rw [send, fault, client_eq_of_connection? found]
    exact writes.trans (drops_giveUp there reason).writes

end

theorem replies_reply {c : Connection} (found : r.connection? client = some c)
    (sound : c.fault = none) (narrow : r.setup.codec.limit < 0x100000000)
    (timed : response.responseTime ≤ Integer.maxUnsigned) :
    r.Replies client response (r.reply client response) := by
  have same := client_eq_of_connection? found
  constructor
  case whole =>
    intro fits
    have back := fits.comesBack narrow
    have writes := writes_send_answered found
      (r.writes_note client (e := .answered client response) rfl) sound
      (framed response.toValue.bytes)
    rw [← reply_of_fits found fits] at writes
    refine ⟨writes, ?_, back, fun reads => (back.decode _).trans reads⟩
    rw [reply_of_fits found fits, send, sound]
    rfl
  case excused =>
    intro large fits
    have back := fits.comesBack narrow
    have writes := writes_send_answered found (r.writes_warned client response) sound
      (framed (excuse r.setup.codec response).toValue.bytes)
    rw [← reply_of_excuse_fits found large fits] at writes
    refine ⟨excuse r.setup.codec response, excuse_excuses _ _, writes, ?_, back,
      (back.decode _).trans (decodePayload_excuse _ timed)⟩
    rw [reply_of_excuse_fits found large fits, send, sound]
    rfl
  case dropped =>
    intro large also
    obtain ⟨reason, replied⟩ := reply_of_nothing_fits found large also
    have there : (r.warned client response).connection? client = some c := found
    obtain ⟨writes, connections, closed⟩ := drops_giveUp there reason
    rw [replied]
    exact ⟨(r.writes_warned client response).trans writes, connections, closed⟩
  case kept =>
    intro gone
    by_cases fits : response.Fits r.setup.codec
    · rw [reply_of_fits found fits, send, sound] at gone
      cases found.symm.trans gone
    · refine ⟨fits, fun also => ?_⟩
      rw [reply_of_excuse_fits found fits also, send, sound] at gone
      cases found.symm.trans gone

/-- Whatever stands in the way of a connection, no more leaves than a frame within the limit. -/
theorem writes_reply (r : Router α) (client : Nat) (response : Response) :
    ∃ frames, r.Writes client frames (r.reply client response) ∧
      frames.flatten.length ≤ r.setup.codec.limit + headerSize := by
  cases found : r.connection? client with
  | none =>
    obtain ⟨entry, replied⟩ := reply_of_absent response found
    refine ⟨[], ?_, Nat.zero_le _⟩
    rw [replied]
    exact (r.writes_note client rfl).trans (writes_note _ client rfl)
  | some c =>
    have within {said : Response} (fits : said.Fits r.setup.codec) :
        (framed said.toValue.bytes).length ≤ r.setup.codec.limit + headerSize := by
      rw [length_framed, Nat.add_comm]
      exact Nat.add_le_add_right fits _
    by_cases fits : response.Fits r.setup.codec
    · obtain ⟨frames, writes, size⟩ := writes_send_any found
        (r.writes_note client (e := .answered client response) rfl) found
        (framed response.toValue.bytes)
      rw [← reply_of_fits found fits] at writes
      exact ⟨frames, writes, Nat.le_trans size (within fits)⟩
    · by_cases also : (excuse r.setup.codec response).Fits r.setup.codec
      · obtain ⟨frames, writes, size⟩ := writes_send_any found (r.writes_warned client response)
          found (framed (excuse r.setup.codec response).toValue.bytes)
        rw [← reply_of_excuse_fits found fits also] at writes
        exact ⟨frames, writes, Nat.le_trans size (within also)⟩
      · obtain ⟨reason, replied⟩ := reply_of_nothing_fits found fits also
        have there : (r.warned client response).connection? client = some c := found
        refine ⟨[], ?_, Nat.zero_le _⟩
        rw [replied]
        exact (r.writes_warned client response).trans (drops_giveUp there reason).writes

/-- A reply writes one whole frame, of the response or of the excuse for it, or it writes nothing.
It shuts no connection but that of its client, and that one only if not even the excuse fits. -/
theorem reply_writes_whole_frame (r : Router α) (client : Nat) (response : Response)
    (narrow : r.setup.codec.limit < 0x100000000)
    (timed : response.responseTime ≤ Integer.maxUnsigned) :
    (∃ frames, r.Writes client frames (r.reply client response) ∧
      frames.flatten.length ≤ r.setup.codec.limit + headerSize) ∧
    (r.connection? client = none → r.Writes client [] (r.reply client response) ∧
      (r.reply client response).connections = r.connections) ∧
    ∀ c, r.connection? client = some c → c.fault = none →
      r.Replies client response (r.reply client response) := by
  refine ⟨r.writes_reply client response, fun absent => ?_, fun c found sound =>
    replies_reply found sound narrow timed⟩
  obtain ⟨entry, replied⟩ := reply_of_absent response absent
  rw [replied]
  exact ⟨(r.writes_note client rfl).trans (writes_note _ client rfl), rfl⟩

/-- A broker with one client, and frames that have no room for much. -/
def cramped : Router Integration.Family where
  setup := .relay "127.0.0.1:0" 190 (fun _ => .error "nobody") 10 10
  sessions := []
  retired := []
  pending := []
  draining := false
  recruited := 0
  connections := [⟨1, none⟩]
  journal := []

/-- The answer to a request for so many letters. -/
def lettersFor (requestId : String) (n : Nat) : Response :=
  { Response.succeeded "w" with requestId := some requestId, payload := some (letters n) }

/-- The excuse for one size of answers. -/
theorem excuse_lettersFor {requestId : String} {n : Nat}
    (size : (lettersFor requestId n).toValue.bytes.length = 239) :
    excuse cramped.setup.codec (lettersFor requestId n) =
      { Response.failed "w" "response too large: payload size 239 exceeds limit 190" with
        requestId := some requestId } := by
  have told : s!"response too large: {(CodecError.payloadTooLarge 239 190).message}" =
      "response too large: payload size 239 exceeds limit 190" := by decide +kernel
  rw [excuse, size, substitute]
  dsimp only [cramped, Setup.relay]
  rw [told]
  rfl

/-- A few letters are sent. Of many the client is told that they are too many, unless the name of
its request is long. -/
theorem cramped_replies :
    cramped.setup.codec.limit < 0x100000000 ∧
    ((lettersFor "7" 3).Fits cramped.setup.codec ∧ (lettersFor "7" 3).ReadsAsWritten ∧
      cramped.Replies 1 (lettersFor "7" 3) (cramped.reply 1 (lettersFor "7" 3))) ∧
    (¬ (lettersFor "7" 108).Fits cramped.setup.codec ∧
      (excuse cramped.setup.codec (lettersFor "7" 108)).Fits cramped.setup.codec ∧
      cramped.Replies 1 (lettersFor "7" 108) (cramped.reply 1 (lettersFor "7" 108))) ∧
    (¬ (lettersFor "1234567890" 99).Fits cramped.setup.codec ∧
      ¬ (excuse cramped.setup.codec (lettersFor "1234567890" 99)).Fits cramped.setup.codec ∧
      cramped.Replies 1 (lettersFor "1234567890" 99)
        (cramped.reply 1 (lettersFor "1234567890" 99))) := by
  have narrow : cramped.setup.codec.limit < 0x100000000 := by decide
  have replies (requestId : String) (n : Nat) :
      cramped.Replies 1 (lettersFor requestId n) (cramped.reply 1 (lettersFor requestId n)) :=
    (reply_writes_whole_frame cramped 1 (lettersFor requestId n) narrow (Nat.zero_le _)).2.2
      ⟨1, none⟩ rfl rfl
  have large {requestId : String} {n : Nat}
      (size : (lettersFor requestId n).toValue.bytes.length = 239) :
      ¬ (lettersFor requestId n).Fits cramped.setup.codec := by
    rw [Response.Fits, size]
    decide
  have few : (lettersFor "7" 3).Fits cramped.setup.codec := by
    rw [Response.Fits, Json.Value.bytes_eq]
    decide +kernel
  have portable : (lettersFor "7" 3).Portable := by
    constructor
    case whole =>
      simp [lettersFor, letters, Response.succeeded, Response.toValue, Json.Value.Whole,
        Json.Value.Throughout, Json.Value.ThroughoutMembers, Json.Value.wholeHere,
        Json.Number.IsWhole, Json.Value.ofOption, Json.Value.nat, Integer.minSigned,
        Integer.maxUnsigned]
    case shallow => decide
    case payload =>
      rintro v ⟨⟩
      exact trivial
    case metadata => rintro members ⟨⟩
  have short : (lettersFor "7" 108).toValue.bytes.length = 239 := by
    rw [Json.Value.bytes_eq]
    decide +kernel
  have long : (lettersFor "1234567890" 99).toValue.bytes.length = 239 := by
    rw [Json.Value.bytes_eq]
    decide +kernel
  refine ⟨narrow, ⟨few, portable.readsAsWritten, replies _ _⟩,
    ⟨large short, ?_, replies _ _⟩, large long, ?_, replies _ _⟩
  · rw [excuse_lettersFor short, Response.Fits, Json.Value.bytes_eq]
    decide +kernel
  · rw [excuse_lettersFor long, Response.Fits, Json.Value.bytes_eq]
    decide +kernel

end Router

end Broker

end SessionRelay
