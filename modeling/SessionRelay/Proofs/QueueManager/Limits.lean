import SessionRelay.Proofs.Integration.Breakage
import SessionRelay.Proofs.Rfh2.Encoding
import SessionRelay.QueueManager.Session

/-!
How much a session with a queue manager delivers. Its limit is for what comes out of a compressed
body: that is delivered if it is within the limit and refused if not. All other messages are
delivered whatever their length.
-/

namespace SessionRelay.QueueManager

open Integration Wire
open Backend hiding Error

/-- The sessions of a worker with a limit, after any requests with any answers to their calls. -/
inductive Reaches (worker : String) (limit : Nat) : Session → Prop
  | new : Reaches worker limit (.new worker limit)
  | handle {s s' : Session} (earlier : Reaches worker limit s) (moment : Moment)
      {request : Request} {heard : List Exchange} {response : Response}
      (given : (Service.handle moment request s).Gives heard (response, s')) :
      Reaches worker limit s'

/-- The frame of a stored message says that its body is compressed. -/
def Compressed (stored : Bytes) : Prop :=
  ∃ m, Rfh2.Message.decode stored = .ok m ∧ m.contentEncoding? = some Rfh2.gzipEncoding

/-- What a stored message holds, without frame and compression. -/
inductive Carries : Bytes → Bytes → Prop
  | plain {stored : Bytes} (unframed : Rfh2.isFramed stored = false) : Carries stored stored
  | framed {stored : Bytes} {m : Rfh2.Message} (read : Rfh2.Message.decode stored = .ok m)
      (raw : m.contentEncoding? ≠ some Rfh2.gzipEncoding) : Carries stored m.body
  | compressed {stored content : Bytes} {m : Rfh2.Message}
      (read : Rfh2.Message.decode stored = .ok m)
      (led : m.contentEncoding? = some Rfh2.gzipEncoding) (holds : Gzip.Holds m.body content) :
      Carries stored content

/-- The only call was one to get a message, and it found this one. -/
def Finds (heard : List Exchange) (message : Message) : Prop :=
  ∃ connection queue wait, heard = [⟨.get connection queue wait, .ok (some message)⟩]

/-- What a `GET` comes to under a limit, by the calls that were made for it. -/
structure Limited (limit : Nat) (heard : List Exchange) (r : Response) : Prop where
  success : r.success = true ↔ ∃ message content, Finds heard message ∧
    Carries message.body content ∧ (Compressed message.body → content.length ≤ limit)
  payload : ∀ message content, r.success = true → Finds heard message →
    Carries message.body content → r.payload = some (receivedPayload content)
  refused : ∀ message content, Finds heard message → Carries message.body content →
    Compressed message.body → limit < content.length →
      r.success = false ∧ r.message = some (Error.framing (.bodyTooLarge limit)).message

theorem isFramed_of_decode {stored : Bytes} {m : Rfh2.Message}
    (read : Rfh2.Message.decode stored = .ok m) : Rfh2.isFramed stored = true := by
  cases framed : Rfh2.isFramed stored with
  | true => rfl
  | false =>
    rw [Rfh2.Message.decode, framed, if_pos Bool.not_false] at read
    cases read

namespace Session

theorem unframed_of_decode {stored : Bytes} {m : Rfh2.Message}
    (read : Rfh2.Message.decode stored = .ok m) (limit : Nat) :
    unframed stored limit = (m.payload limit).mapError .framing := by
  rw [unframed, if_pos (isFramed_of_decode read), read]
  dsimp only
  cases m.payload limit <;> rfl

/-- A content is given if it is within the limit or was not compressed, and else is too large. -/
theorem unframed_of_carries {stored content : Bytes} (carries : Carries stored content)
    (limit : Nat) :
    (Compressed stored → content.length ≤ limit) ∧ unframed stored limit = .ok content ∨
    Compressed stored ∧ limit < content.length ∧
      unframed stored limit = .error (.framing (.bodyTooLarge limit)) := by
  cases carries with
  | plain plain =>
    refine Or.inl ⟨?_, ?_⟩
    · rintro ⟨m, read, -⟩
      rw [isFramed_of_decode read] at plain
      cases plain
    · rw [unframed, plain, if_neg Bool.false_ne_true]
  | framed read raw =>
    refine Or.inl ⟨?_, ?_⟩
    · rintro ⟨m', read', led⟩
      cases read.symm.trans read'
      exact absurd led raw
    · rw [unframed_of_decode read, Rfh2.Message.payload, if_neg raw]
      rfl
  | compressed read led holds =>
    have opened := unframed_of_decode read limit
    rw [Rfh2.Message.payload, if_pos led, holds limit] at opened
    by_cases inside : content.length ≤ limit
    · rw [if_pos inside] at opened
      exact Or.inl ⟨fun _ => inside, opened⟩
    · rw [if_neg inside] at opened
      exact Or.inr ⟨⟨_, read, led⟩, Nat.lt_of_not_le inside, opened⟩

theorem carries_of_unframed {stored content : Bytes} {limit : Nat}
    (given : unframed stored limit = .ok content) : Carries stored content := by
  cases framed : Rfh2.isFramed stored with
  | false =>
    rw [unframed, framed, if_neg Bool.false_ne_true] at given
    cases given
    exact .plain framed
  | true =>
    rw [unframed, framed, if_pos rfl] at given
    split at given
    · cases given
    · next m read =>
      split at given
      · cases given
      · next payload opened =>
        cases given
        rw [Rfh2.Message.payload_eq] at opened
        split at opened
        · next led =>
          have decompressed := Rfh2.Message.gunzipped_eq_ok.mp opened
          exact .compressed read led (Gzip.holds_of_decompress decompressed)
        · next raw =>
          cases opened
          exact .framed read raw

/-- A stored message carries one content at most. -/
theorem eq_of_carries {stored content content' : Bytes} (carries : Carries stored content)
    (carries' : Carries stored content') : content = content' := by
  have given {content : Bytes} (carries : Carries stored content) {limit : Nat}
      (room : content.length ≤ limit) : unframed stored limit = .ok content := by
    rcases unframed_of_carries carries limit with ⟨-, given⟩ | ⟨-, outside, -⟩
    · exact given
    · exact absurd room (Nat.not_le_of_lt outside)
  have first := given carries (Nat.le_max_left _ content'.length)
  have second := given carries' (Nat.le_max_right content.length _)
  exact Except.ok.inj (first.symm.trans second)

theorem unframed_eq_ok {stored content : Bytes} {limit : Nat} :
    unframed stored limit = .ok content ↔
      Carries stored content ∧ (Compressed stored → content.length ≤ limit) := by
  constructor
  · intro given
    have carries := carries_of_unframed given
    rcases unframed_of_carries carries limit with ⟨inside, -⟩ | ⟨-, -, failed⟩
    · exact ⟨carries, inside⟩
    · rw [given] at failed
      cases failed
  · rintro ⟨carries, inside⟩
    rcases unframed_of_carries carries limit with ⟨-, given⟩ | ⟨compressed, outside, -⟩
    · exact given
    · exact absurd (inside compressed) (Nat.not_le_of_lt outside)

variable {s s' : Session} {request : Request}

/-- All that a `GET` can come to under a limit, with the call that is made for it. -/
inductive Course (limit : Nat) : List Exchange → Except Error Outcome → Prop
  | refused (e : Error) : Course limit [] (.error e)
  | failed (c : Call) (e : Backend.Error) : Course limit [⟨c, .error e⟩] (.error (.backend e))
  | answered (connection : Connection) (queue : String) (wait : Wait) (message? : Option Message) :
      Course limit [⟨.get connection queue wait, .ok message?⟩] (received queue limit message?)

theorem get_course (moment : Moment) (request : Request) (s : Session) :
    (get moment request s).EndsAfter fun heard result => Course s.maxPayload heard result.1 := by
  unfold get
  split
  · exact .refused _
  · split
    · exact .refused _
    · intro answer
      cases answer with
      | ok message? => exact .answered _ _ _ message?
      | error e => exact .failed _ e

namespace Course

variable {limit : Nat} {heard : List Exchange} {result : Except Error Outcome}

/-- A message that was found is what the result is about. -/
theorem of_finds (course : Course limit heard result) {message : Message}
    (finds : Finds heard message) :
    ∃ queue, result = received queue limit (some message) := by
  obtain ⟨connection, queue, wait, rfl⟩ := finds
  cases course
  exact ⟨queue, rfl⟩

/-- Without a message there is no success. -/
theorem exists_of_ok (course : Course limit heard result) (succeeded : result.isOk = true) :
    ∃ message content, Finds heard message ∧ unframed message.body limit = .ok content := by
  cases course with
  | refused | failed => cases succeeded
  | answered connection queue wait message? =>
    cases message? with
    | none => cases succeeded
    | some message =>
      cases given : unframed message.body limit with
      | ok content => exact ⟨message, content, ⟨connection, queue, wait, rfl⟩, given⟩
      | error e =>
        rw [received, given] at succeeded
        cases succeeded

theorem limited (course : Course limit heard result) (moment : Moment) (request : Request)
    (worker : String) :
    Limited limit heard (finished moment request (responseOf worker result)) := by
  obtain ⟨name, same⟩ := finished_eq moment request (responseOf worker result)
  constructor
  case success =>
    rw [finished_success, responseOf_success]
    constructor
    · intro succeeded
      obtain ⟨message, content, finds, given⟩ := course.exists_of_ok succeeded
      exact ⟨message, content, finds, unframed_eq_ok.mp given⟩
    · rintro ⟨message, content, finds, carries⟩
      obtain ⟨queue, rfl⟩ := course.of_finds finds
      rw [received, unframed_eq_ok.mpr carries]
      rfl
  case payload =>
    intro message content succeeded finds carries
    obtain ⟨queue, rfl⟩ := course.of_finds finds
    rw [finished_success, responseOf_success] at succeeded
    rw [same]
    rcases unframed_of_carries carries limit with ⟨-, given⟩ | ⟨-, -, failed⟩
    · rw [received, given]
      rfl
    · rw [received, failed] at succeeded
      cases succeeded
  case refused =>
    intro message content finds carries compressed outside
    obtain ⟨queue, rfl⟩ := course.of_finds finds
    rw [same]
    rcases unframed_of_carries carries limit with ⟨inside, -⟩ | ⟨-, -, failed⟩
    · exact absurd (inside compressed) (Nat.not_le_of_lt outside)
    · rw [received, failed]
      exact ⟨rfl, rfl⟩

end Course

theorem handle_limited (moment : Moment) (s : Session)
    (asks : request.action = "GET" ∨ request.action = "RECEIVE") :
    (Service.handle moment request s).EndsAfter fun heard result =>
      Limited s.maxPayload heard result.1 := by
  have handle : Service.handle moment request s = respond actions s.worker moment request s := rfl
  have found : actions.get? request.action = some get := by
    rcases asks with named | named <;> rw [named] <;> rfl
  rw [handle, respond, found]
  refine Dialog.endsAfter_map.mpr ((get_course moment request s).imp ?_)
  exact fun heard result course => course.limited moment request s.worker

end Session

theorem Reaches.maxPayload_eq {worker : String} {limit : Nat} {s : Session}
    (reached : Reaches worker limit s) : s.maxPayload = limit := by
  induction reached with
  | new => rfl
  | handle earlier moment given ih =>
    have kept := (Session.handle_keeps_madeFor moment _ _).endsAfter.gives given
    exact kept.2.maxPayload_eq.trans ih

/-- Whatever a session with a limit has handled and whatever its calls give, a `GET` succeeds just
in case that it finds a message with a content, which has to be within the limit if it was
compressed. -/
theorem limit_binds_compressed {worker : String} {limit : Nat} {s s' : Session}
    (reached : Reaches worker limit s) {moment : Moment} {request : Request}
    (asks : request.action = "GET" ∨ request.action = "RECEIVE") {heard : List Exchange}
    {response : Response} (given : (Service.handle moment request s).Gives heard (response, s')) :
    Limited limit heard response := by
  have limited := (Session.handle_limited moment s asks).gives given
  rwa [reached.maxPayload_eq] at limited

/-- A session with a limit of one byte that is connected to a queue manager. -/
def narrow : Session := ⟨"w", some ⟨0⟩, 0, 1, true⟩

theorem reaches_narrow : Reaches "w" 1 narrow := by
  let connected : List Exchange :=
    [⟨.connect ⟨"M", [("channel", "C"), ("host", "h"), ("port", "1")]⟩, .ok ⟨0⟩⟩]
  have given : (Service.handle ⟨0, 0⟩
      (.new "CONN" ⟨[("url", .string "mq://h:1/?QueueManager=M&Channel=C")]⟩)
      (Session.new "w" 1)).Gives connected (_, narrow) := .ask _ (.done _)
  exact .handle .new _ given

/-- A `GET` on that session, and the call that finds a text of two bytes for it. -/
def getText : Request := .new "GET" ⟨[("endpoint", .string "queue:Q")]⟩

def foundText : List Exchange := [⟨.get ⟨0⟩ "Q" 0, .ok (some ⟨"1", [0x61, 0x62]⟩)⟩]

theorem narrow_limited : ∃ response,
    (Service.handle ⟨0, 0⟩ getText narrow).Gives foundText (response, narrow) ∧
    Limited 1 foundText response := by
  have given : (Service.handle ⟨0, 0⟩ getText narrow).Gives foundText (_, narrow) :=
    .ask _ (.done _)
  exact ⟨_, given, limit_binds_compressed reaches_narrow (Or.inl rfl) given⟩

/-- The text is longer than the limit and is delivered. -/
theorem longer_text_delivered : ∃ response,
    Reaches "w" 1 narrow ∧
    (Service.handle ⟨0, 0⟩ getText narrow).Gives foundText (response, narrow) ∧
    Carries [0x61, 0x62] [0x61, 0x62] ∧ 1 < [0x61, 0x62].length ∧
    response.success = true ∧ response.payload = some (receivedPayload [0x61, 0x62]) :=
  ⟨_, reaches_narrow, .ask _ (.done _), .plain (by decide), by decide, rfl, rfl⟩

end SessionRelay.QueueManager
