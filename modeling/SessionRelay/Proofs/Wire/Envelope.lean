import Mathlib.Data.List.Flatten
import SessionRelay.Integration.Input
import SessionRelay.Proofs.Json.ReadBack
import SessionRelay.Proofs.Wire.Lengths

/-!
Envelopes on the wire. A request or a response in a frame is read back as it was written, except
that a payload that is null arrives as no payload. Handlers do not tell these two apart.
-/

namespace SessionRelay

/-! ### Parts of values -/

namespace Json.Value

theorem throughoutMembers_iff {P : Value → Prop} {members : List (String × Value)} :
    ThroughoutMembers P members ↔ ∀ member ∈ members, member.2.Throughout P := by
  induction members with
  | nil => simp [ThroughoutMembers]
  | cons member rest ih => simp [ThroughoutMembers, ih]

theorem depth_le_membersDepth {members : List (String × Value)} {member : String × Value}
    (inside : member ∈ members) : member.2.depth ≤ membersDepth members := by
  induction members with
  | nil => cases inside
  | cons first rest ih =>
    simp only [membersDepth]
    rcases List.mem_cons.mp inside with rfl | later
    · omega
    · have := ih later
      omega

theorem membersDepth_append (members more : List (String × Value)) :
    membersDepth (members ++ more) = max (membersDepth members) (membersDepth more) := by
  induction members with
  | nil => simp [membersDepth]
  | cons member rest ih => rw [List.cons_append, membersDepth, membersDepth, ih, Nat.max_assoc]

theorem whole_of_mem {members : List (String × Value)} (whole : (Value.object members).Whole)
    (member : String × Value) (inside : member ∈ members) : member.2.Whole :=
  throughoutMembers_iff.mp whole.2 member inside

/-- A member less is nothing more to write. -/
theorem membersChars_sublist (members more : List (String × Value)) :
    (membersChars members).Sublist (membersChars (members ++ more)) := by
  induction members with
  | nil =>
    rw [List.nil_append, membersChars]
    refine List.singleton_sublist.mpr ?_
    induction more with
    | nil => exact List.mem_singleton.mpr rfl
    | cons member rest ih =>
      rw [membersChars]
      exact List.mem_append_right _ ih
  | cons member rest ih =>
    rw [List.cons_append, membersChars, membersChars]
    exact (List.Sublist.refl _).append ih

theorem length_bytes_le (first : String × Value) (members more : List (String × Value)) :
    (Value.object (first :: members)).bytes.length ≤
      (Value.object (first :: (members ++ more))).bytes.length := by
  have shorter : (Value.object (first :: members)).chars.Sublist
      (Value.object (first :: (members ++ more))).chars := by
    rw [chars, chars]
    exact (List.Sublist.refl _).append (membersChars_sublist members more)
  rw [bytes_eq, bytes_eq]
  exact (shorter.flatMap String.utf8EncodeChar).length_le

end Json.Value

namespace Wire

open Json

theorem decode_frame {codec : Codec} {payload frame : Bytes}
    (written : codec.frame payload = .ok frame) (limit : codec.limit < 0x100000000)
    {α : Type} (take : Taking α) :
    codec.decode take frame = Codec.decodePayload take payload := by
  have small := (eq_framed written).2
  exact (comesBack_of_lt written (by omega)).decode take

/-- A value that is taken from its tokens is decoded from its frame. -/
theorem decode_encode {codec : Codec} {α : Type} {take : Taking α} {v : Value} {a : α}
    {frame : Bytes} (limit : codec.limit < 0x100000000) (whole : v.Whole) (takes : Takes take v a)
    (encoded : codec.encode v = .ok frame) : codec.decode take frame = .ok a := by
  rw [decode_frame encoded limit, Codec.decodePayload, whole_bytes whole takes]

theorem encode_eq_ok (codec : Codec) {v : Value} (some : v.bytes ≠ [])
    (fits : v.bytes.length ≤ codec.limit) :
    codec.encode v = .ok (header v.bytes.length ++ v.bytes) := by
  rw [Codec.encode, Codec.frame, if_neg (by simpa using some), if_neg (by omega)]

/-- What is no longer than something that fits a frame fits one too. -/
theorem encode_of_le {codec : Codec} {v other : Value} {frame : Bytes} (some : v.bytes ≠ [])
    (shorter : v.bytes.length ≤ other.bytes.length) (encoded : codec.encode other = .ok frame) :
    ∃ again, codec.encode v = .ok again := by
  have fits := (eq_framed encoded).2
  exact ⟨_, encode_eq_ok codec some (by omega)⟩

/-- A payload as it arrives: null is nothing. -/
def arriving : Option Value → Option Value
  | some .null => none
  | payload => payload

/-- A request as it arrives. -/
def Request.arrived (r : Request) : Request := { r with payload := arriving r.payload }

/-- A response as it arrives. -/
def Response.arrived (r : Response) : Response := { r with payload := arriving r.payload }

/-- A request that can be written and read: its numbers are whole, it is not too deep, and its
objects are in order. -/
structure Request.Portable (r : Request) : Prop where
  whole : r.toValue.Whole
  shallow : r.toValue.depth ≤ Value.maxDepth
  context : r.context.toValue.Ordered
  payload : ∀ v, r.payload = some v → v.Ordered

/-- A response that can be written and read. -/
structure Response.Portable (r : Response) : Prop where
  whole : r.toValue.Whole
  shallow : r.toValue.depth ≤ Value.maxDepth
  payload : ∀ v, r.payload = some v → v.Ordered
  metadata : ∀ members, r.metadata = some members → (Value.object members).Ordered

theorem takes_ofTaking {ρ α : Type} {take : Taking α} {v : Value} {a : α} {name : String}
    {required : Bool} {set : ρ → α → ρ} {r : ρ} (takes : Takes take v a) :
    Takes ((Field.ofTaking name required take set).take r) v (set r a) := by
  intro rest
  simp only [Field.ofTaking, takes rest]
  rfl

/-- What a record's member is, within the limits of the record. -/
theorem inner_depth {members : List (String × Value)}
    (shallow : (Value.object members).depth ≤ Value.maxDepth) (member : String × Value)
    (inside : member ∈ members) : member.2.depth ≤ innerDepth := by
  have := Value.depth_le_membersDepth inside
  simp only [Value.depth] at shallow
  simp only [innerDepth]
  omega

theorem takes_payload {payload : Option Value}
    (portable : ∀ v, payload = some v → v.Whole ∧ v.Ordered ∧ v.depth ≤ innerDepth) :
    Takes (Taking.optional (Taking.value innerDepth)) (.ofOption payload) (arriving payload) := by
  cases payload with
  | none => exact takes_null
  | some v =>
    obtain ⟨whole, ordered, shallow⟩ := portable v rfl
    have takes := takes_value whole ordered shallow
    cases v with
    | null => exact takes_null
    | bool _ | number _ | string _ | array _ | object _ => exact takes.optional nofun

theorem Request.takes {r : Request} (portable : r.Portable) :
    Takes Request.take r.toValue r.arrived := by
  obtain ⟨action, requestId, worker, context, payload⟩ := r
  have inside := inner_depth portable.shallow
  have whole := Value.whole_of_mem portable.whole
  have named : Takes Taking.text (.string action) action := takes_text action
  have identified : Takes Taking.text (.string requestId) requestId := takes_text requestId
  have settings : Takes (Taking.map innerDepth) context.toValue context.settings :=
    takes_map (whole ("context", context.toValue) (by simp)) portable.context
      (inside ("context", context.toValue) (by simp))
  have content : Takes (Taking.optional (Taking.value innerDepth)) (.ofOption payload)
      (arriving payload) := by
    refine takes_payload fun v some => ?_
    subst some
    exact ⟨whole ("payload", v) (by simp), portable.payload v rfl, inside ("payload", v) (by simp)⟩
  cases worker with
  | none =>
    cases payload with
    | none =>
      exact Record.takes_of_fills
        ⟨_, _, rfl, rfl, takes_ofTaking named, _, _, rfl, rfl, takes_ofTaking identified,
          _, _, rfl, rfl, takes_ofTaking settings, rfl, rfl⟩ nofun rfl
    | some v =>
      exact Record.takes_of_fills
        ⟨_, _, rfl, rfl, takes_ofTaking named, _, _, rfl, rfl, takes_ofTaking identified,
          _, _, rfl, rfl, takes_ofTaking settings, _, _, rfl, rfl, takes_ofTaking content,
          rfl, rfl⟩ nofun rfl
  | some worker =>
    have assigned : Takes (Taking.optional Taking.text) (.string worker) (some worker) :=
      (takes_text worker).optional nofun
    cases payload with
    | none =>
      exact Record.takes_of_fills
        ⟨_, _, rfl, rfl, takes_ofTaking named, _, _, rfl, rfl, takes_ofTaking identified,
          _, _, rfl, rfl, takes_ofTaking assigned, _, _, rfl, rfl, takes_ofTaking settings,
          rfl, rfl⟩ nofun rfl
    | some v =>
      exact Record.takes_of_fills
        ⟨_, _, rfl, rfl, takes_ofTaking named, _, _, rfl, rfl, takes_ofTaking identified,
          _, _, rfl, rfl, takes_ofTaking assigned, _, _, rfl, rfl, takes_ofTaking settings,
          _, _, rfl, rfl, takes_ofTaking content, rfl, rfl⟩ nofun rfl

theorem Response.takes {r : Response} (portable : r.Portable) :
    Takes Response.take r.toValue r.arrived := by
  obtain ⟨success, worker, requestId, message, responseTime, responseLength, payload, metadata⟩ := r
  have inside := inner_depth portable.shallow
  have whole := Value.whole_of_mem portable.whole
  have said : Takes (Taking.optional Taking.text) (.ofOption (message.map .string)) message :=
    takes_ofOption message fun s _ => ⟨takes_text s, nofun⟩
  have unsigned {n : Nat} (whole : (Value.nat n).Whole) : Takes Taking.unsigned (.nat n) n := by
    refine takes_unsigned ?_
    have fits := whole.2
    omega
  have timed := unsigned (whole ("response_time", .nat responseTime) (by simp))
  have measured : Takes (Taking.optional Taking.unsigned) (.ofOption (responseLength.map .nat))
      responseLength := by
    refine takes_ofOption responseLength fun n some => ?_
    subst some
    exact ⟨unsigned (whole ("response_length", .nat n) (by simp [Value.ofOption])), nofun⟩
  have content : Takes (Taking.optional (Taking.value innerDepth)) (.ofOption payload)
      (arriving payload) := by
    refine takes_payload fun v some => ?_
    subst some
    exact ⟨whole ("payload", v) (by simp [Value.ofOption]), portable.payload v rfl,
      inside ("payload", v) (by simp [Value.ofOption])⟩
  have described : Takes (Taking.optional (Taking.map innerDepth))
      (.ofOption (metadata.map .object)) metadata := by
    refine takes_ofOption metadata fun members some => ?_
    subst some
    have takes := takes_map (whole ("metadata", .object members) (by simp [Value.ofOption]))
      (portable.metadata members rfl) (inside ("metadata", .object members)
        (by simp [Value.ofOption]))
    exact ⟨takes, nofun⟩
  cases requestId with
  | none =>
    exact Record.takes_of_fills
      ⟨_, _, rfl, rfl, takes_ofTaking (takes_bool success),
        _, _, rfl, rfl, takes_ofTaking (takes_text worker),
        _, _, rfl, rfl, takes_ofTaking said, _, _, rfl, rfl, takes_ofTaking timed,
        _, _, rfl, rfl, takes_ofTaking measured, _, _, rfl, rfl, takes_ofTaking content,
        _, _, rfl, rfl, takes_ofTaking described, rfl, rfl⟩ nofun rfl
  | some requestId =>
    have named : Takes (Taking.optional Taking.text) (.string requestId) (some requestId) :=
      (takes_text requestId).optional nofun
    exact Record.takes_of_fills
      ⟨_, _, rfl, rfl, takes_ofTaking (takes_bool success),
        _, _, rfl, rfl, takes_ofTaking (takes_text worker),
        _, _, rfl, rfl, takes_ofTaking named,
        _, _, rfl, rfl, takes_ofTaking said, _, _, rfl, rfl, takes_ofTaking timed,
        _, _, rfl, rfl, takes_ofTaking measured, _, _, rfl, rfl, takes_ofTaking content,
        _, _, rfl, rfl, takes_ofTaking described, rfl, rfl⟩ nofun rfl

theorem Response.decodePayload_eq {r : Response} (portable : r.Portable) :
    Codec.decodePayload Response.take r.toValue.bytes = .ok r.arrived := by
  rw [Codec.decodePayload, whole_bytes portable.whole (Response.takes portable)]

/-- A failure that says why, and nothing else. -/
theorem Response.portable_failed (worker reason : String) (requestId : Option String) {time : Nat}
    (short : time ≤ Integer.maxUnsigned) :
    Portable { failed worker reason with requestId := requestId, responseTime := time } := by
  constructor
  case whole =>
    cases requestId <;>
      simp [failed, succeeded, toValue, Value.Whole, Value.Throughout, Value.ThroughoutMembers,
        Value.wholeHere, Number.IsWhole, Value.ofOption, Value.nat, Integer.minSigned] <;> omega
  case shallow => cases requestId <;> exact Nat.le_of_ble_eq_true rfl
  case payload => rintro v ⟨⟩
  case metadata => rintro members ⟨⟩

theorem arriving_eq_some {payload : Option Value} {v : Value} (h : arriving payload = some v) :
    payload = some v := by
  unfold arriving at h
  split at h
  · cases h
  · exact h

theorem arriving_arriving (payload : Option Value) :
    arriving (arriving payload) = arriving payload := by
  cases payload with
  | none => rfl
  | some v => cases v <;> rfl

/-- A value that is written in place of another is as good to write, and no longer. -/
structure Rewrites (v again : Value) : Prop where
  whole : again.Whole
  shallow : again.depth ≤ v.depth
  some : again.bytes ≠ []
  shorter : again.bytes.length ≤ v.bytes.length

theorem object_bytes_ne_nil (members : List (String × Value)) :
    (Value.object members).bytes ≠ [] := by
  have brace : ∃ cs, (Value.object members).chars = '\x7b' :: cs := by
    cases members <;> exact ⟨_, rfl⟩
  obtain ⟨cs, chars⟩ := brace
  rw [Value.bytes_eq, chars, List.flatMap_cons]
  exact List.append_ne_nil_of_left_ne_nil (by decide) _

theorem rewrites_self {members : List (String × Value)} (whole : (Value.object members).Whole) :
    Rewrites (.object members) (.object members) :=
  ⟨whole, Nat.le_refl _, object_bytes_ne_nil members, Nat.le_refl _⟩

/-- Members at the end may be left out. -/
theorem rewrites_prefix {first : String × Value} (members : List (String × Value))
    {more : List (String × Value)}
    (whole : (Value.object (first :: (members ++ more))).Whole) :
    Rewrites (.object (first :: (members ++ more))) (.object (first :: members)) where
  whole := by
    refine ⟨trivial, Value.throughoutMembers_iff.mpr fun member inside => ?_⟩
    refine Value.whole_of_mem whole member ?_
    rw [← List.cons_append]
    exact List.mem_append_left more inside
  shallow := by
    have within := Value.membersDepth_append (first :: members) more
    rw [List.cons_append] at within
    simp only [Value.depth, within]
    omega
  some := object_bytes_ne_nil _
  shorter := Value.length_bytes_le first members more

theorem Request.rewrites {r : Request} (whole : r.toValue.Whole) :
    Rewrites r.toValue r.arrived.toValue := by
  obtain ⟨action, requestId, worker, context, payload⟩ := r
  cases payload with
  | none => exact rewrites_self whole
  | some v =>
    cases v with
    | null =>
      cases worker with
      | none => exact rewrites_prefix [_, _] whole
      | some worker => exact rewrites_prefix [_, _, _] whole
    | bool _ | number _ | string _ | array _ | object _ => exact rewrites_self whole

/-- A response without payload is written as one with null. -/
theorem Response.toValue_arrived (r : Response) : r.arrived.toValue = r.toValue := by
  obtain ⟨success, worker, requestId, message, responseTime, responseLength, payload, metadata⟩ := r
  cases payload with
  | none => rfl
  | some v => cases v <;> rfl

theorem Request.Portable.arrived {r : Request} (portable : r.Portable) : r.arrived.Portable where
  whole := (Request.rewrites portable.whole).whole
  shallow := Nat.le_trans (Request.rewrites portable.whole).shallow portable.shallow
  context := portable.context
  payload v some := portable.payload v (arriving_eq_some some)

theorem Response.Portable.arrived {r : Response} (portable : r.Portable) : r.arrived.Portable where
  whole := r.toValue_arrived.symm ▸ portable.whole
  shallow := r.toValue_arrived.symm ▸ portable.shallow
  payload v some := portable.payload v (arriving_eq_some some)
  metadata := portable.metadata

theorem Request.arrived_arrived (r : Request) : r.arrived.arrived = r.arrived := by
  simp only [Request.arrived, arriving_arriving]

theorem Response.arrived_arrived (r : Response) : r.arrived.arrived = r.arrived := by
  simp only [Response.arrived, arriving_arriving]

/-- A frame is read as an envelope, which is written in turn and read again as the same. -/
def ReadsBack {α : Type} (codec : Codec) (take : Taking α) (write : α → Value) (frame : Bytes)
    (a : α) : Prop :=
  codec.decode take frame = .ok a ∧
    ∃ again, codec.encode (write a) = .ok again ∧ codec.decode take again = .ok a

section

variable {codec : Codec} (limit : codec.limit < 0x100000000) {frame : Bytes}
include limit

theorem Request.readsBack {r : Request} (portable : r.Portable)
    (encoded : codec.encode r.toValue = .ok frame) :
    ReadsBack codec Request.take Request.toValue frame r.arrived := by
  have rewrites := Request.rewrites portable.whole
  obtain ⟨again, written⟩ := encode_of_le rewrites.some rewrites.shorter encoded
  have takes := Request.takes portable.arrived
  rw [r.arrived_arrived] at takes
  exact ⟨decode_encode limit portable.whole (Request.takes portable) encoded, again, written,
    decode_encode limit rewrites.whole takes written⟩

theorem Response.readsBack {r : Response} (portable : r.Portable)
    (encoded : codec.encode r.toValue = .ok frame) :
    ReadsBack codec Response.take Response.toValue frame r.arrived := by
  have decoded := decode_encode limit portable.whole (Response.takes portable) encoded
  exact ⟨decoded, frame, r.toValue_arrived ▸ encoded, decoded⟩

end

open Integration in
/-- Whatever is written in a frame is read as it was, but for a payload that is null. That one
arrives as none, which is the same to those who handle the request. -/
theorem envelopes_read_back {codec : Codec} (limit : codec.limit < 0x100000000) :
    (∀ (r : Request) (frame : Bytes), r.Portable → codec.encode r.toValue = .ok frame →
      ReadsBack codec Request.take Request.toValue frame r.arrived) ∧
    (∀ (r : Response) (frame : Bytes), r.Portable → codec.encode r.toValue = .ok frame →
      ReadsBack codec Response.take Response.toValue frame r.arrived) ∧
    ∀ r : Request, payloadBytes { r with payload := some .null } =
        payloadBytes { r with payload := none } ∧
      ensureNoPayload { r with payload := some .null } =
        ensureNoPayload { r with payload := none } :=
  ⟨fun _ _ portable encoded => Request.readsBack limit portable encoded,
    fun _ _ portable encoded => Response.readsBack limit portable encoded, fun _ => ⟨rfl, rfl⟩⟩

/-- A request to put a list into a queue, without a name of its own. -/
def listRequest : Request :=
  ⟨"PUT", "", some "W1", ⟨[("queue", .string "q\n")]⟩,
    some (.array [.number (.integer (-7)), .null, .object []])⟩

/-- The response to a request that nobody named, with a payload that is null. -/
def blankResponse : Response :=
  ⟨false, "W1", none, some "no \x22payload\x22", 12, some 0, some .null, some [("a", .bool true)]⟩

theorem list_request_reads_back : ∃ asked said,
    Codec.standard.encode listRequest.toValue = .ok asked ∧
    Codec.standard.encode blankResponse.toValue = .ok said ∧
    ReadsBack Codec.standard Request.take Request.toValue asked listRequest ∧
    ReadsBack Codec.standard Response.take Response.toValue said
      { blankResponse with payload := none } := by
  have limit : Codec.standard.limit < 0x100000000 := by decide
  have asking : listRequest.Portable := by
    constructor
    case whole =>
      simp [listRequest, Request.toValue, Value.Whole, Value.Throughout, Value.ThroughoutMembers,
        Value.ThroughoutItems, Value.wholeHere, Number.IsWhole, Context.toValue, Integer.minSigned,
        Integer.maxUnsigned]
    case shallow => decide
    case context => exact ⟨List.pairwise_singleton _ _, trivial, trivial⟩
    case payload =>
      rintro v ⟨⟩
      exact ⟨trivial, trivial, trivial, ⟨.nil, trivial⟩, trivial⟩
  have answering : blankResponse.Portable := by
    constructor
    case whole =>
      simp [blankResponse, Response.toValue, Value.Whole, Value.Throughout,
        Value.ThroughoutMembers, Value.wholeHere, Number.IsWhole, Value.ofOption, Value.nat,
        Integer.minSigned, Integer.maxUnsigned]
    case shallow => decide
    case payload =>
      rintro v ⟨⟩
      exact trivial
    case metadata =>
      rintro members ⟨⟩
      exact ⟨List.pairwise_singleton _ _, trivial, trivial⟩
  have asked := encode_eq_ok .standard (v := listRequest.toValue)
    (object_bytes_ne_nil _) (by decide +kernel)
  have said := encode_eq_ok .standard (v := blankResponse.toValue)
    (object_bytes_ne_nil _) (by decide +kernel)
  obtain ⟨requests, responses, -⟩ := envelopes_read_back limit
  exact ⟨_, _, asked, said, requests listRequest _ asking asked,
    responses blankResponse _ answering said⟩

end Wire

end SessionRelay
