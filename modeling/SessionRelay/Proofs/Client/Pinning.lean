import SessionRelay.Proofs.Client.Conversation

/-!
The worker that a client keeps to. Over all its calls, however they end, it is the worker of the
first response that the client accepted and that names one, if that response does not say that the
caller gave up; each request goes to the worker that its caller chose, and else to this one.
-/

namespace SessionRelay.Client

open Wire

/-- A call as its surroundings have it: what is asked and under which name, what arrives, and how
the connection fails, if it does. -/
structure Turn where
  request : Request
  requestId : String
  arrivals : List Arrival
  breach : Option Breach
  deriving Repr

/-- The response that a wait ends with. -/
def response? : Option (Except Error Response) → Option Response
  | some (.ok r) => some r
  | _ => none

namespace Session

def take (s : Session) (t : Turn) : Option (Except Error Response) × Session × List Arrival :=
  s.attempt t.request t.requestId t.arrivals t.breach

/-- The frame that a call sends, or why there is none. -/
def frame (s : Session) (t : Turn) : Except CodecError Bytes :=
  s.codec.encode (s.address t.request t.requestId).toValue

/-- The response that a call takes for its answer, from the connection or of its own making, if it
could send its request. -/
def accepted? (s : Session) (t : Turn) : Option Response :=
  match s.frame t with
  | .error _ => none
  | .ok _ =>
    match t.breach with
    | some (.writing _) => none
    | _ => response? (s.await t.requestId t.arrivals).1

/-- The client after some calls. -/
def after (s : Session) (turns : List Turn) : Session :=
  turns.foldl (fun s t => (s.take t).2.1) s

/-- What the calls accepted, in turn. -/
def accepted (s : Session) : List Turn → List Response
  | [] => []
  | t :: turns => (s.accepted? t).toList ++ ((s.take t).2.1).accepted turns

end Session

/-- Does a response tell a client whom to keep to? -/
def Names (r : Response) : Prop := r.isAbort = false ∧ r.worker ≠ ""

/-- The worker that a response tells a client to keep to. -/
def named? (r : Response) : Option String :=
  if r.isAbort || r.worker.isEmpty then none else some r.worker

theorem named?_eq_some {r : Response} (names : Names r) : named? r = some r.worker := by
  simp [named?, names.1, names.2]

theorem named?_eq_none {r : Response} (nameless : ¬ Names r) : named? r = none := by
  unfold Names at nameless
  unfold named?
  split
  · rfl
  · next given =>
    simp only [Bool.or_eq_true, not_or, Bool.not_eq_true, String.isEmpty_iff] at given
    exact absurd ⟨given.1, given.2⟩ nameless

namespace Session

variable (s : Session)

/-- Only the frames change while a client looks at them. -/
theorem poll_keeps (requestId : String) :
    (s.poll requestId).2.codec = s.codec ∧ (s.poll requestId).2.worker = s.worker ∧
      Brings (fun _ => True) (s.poll requestId).1 := by
  unfold poll
  split
  · exact ⟨rfl, rfl, trivial⟩
  · exact ⟨rfl, rfl, not_false⟩
  · exact ⟨rfl, rfl, trivial⟩

theorem await_keeps (requestId : String) (arrivals : List Arrival) :
    (s.await requestId arrivals).2.1.codec = s.codec ∧
      (s.await requestId arrivals).2.1.worker = s.worker ∧
      Brings (fun _ => True) (s.await requestId arrivals).1 := by
  induction arrivals generalizing s with
  | nil =>
    obtain ⟨codec, worker, brings⟩ := s.poll_keeps requestId
    unfold await
    split
    · next polled =>
      rw [polled] at codec worker brings
      exact ⟨codec, worker, brings⟩
    · next polled =>
      rw [polled] at codec worker
      exact ⟨codec, worker, trivial⟩
  | cons arrival arrivals ih =>
    obtain ⟨codec, worker, brings⟩ := s.poll_keeps requestId
    unfold await
    split
    · next polled =>
      rw [polled] at codec worker brings
      exact ⟨codec, worker, brings⟩
    · next later polled =>
      rw [polled] at codec worker
      cases arrival with
      | bytes chunk =>
        obtain ⟨codec', worker', brings⟩ := ih { later with frames := later.frames.push chunk }
        exact ⟨codec'.trans codec, worker'.trans worker, brings⟩
      | ended => exact ⟨codec, worker, not_false⟩
      | cancelled => exact ⟨codec, worker, trivial⟩

theorem settle_codec (r : Response) : (s.settle r).codec = s.codec := by
  unfold settle
  split <;> rfl

theorem settle_worker (r : Response) : (s.settle r).worker = s.worker.or (named? r) := by
  obtain ⟨codec, frames, worker⟩ := s
  unfold settle named?
  cases worker with
  | some worker => rfl
  | none => cases r.isAbort <;> cases r.worker.isEmpty <;> rfl

/-- What a call ends with, by the response that it accepts: what this one says, or no verdict, or
nothing yet. -/
inductive Concludes : Option Response → Option (Except Error Response) → Prop where
  | verdict (r : Response) : Concludes (some r) (some (classify r))
  | failure {e : Error} : ¬ e.IsVerdict → Concludes none (some (.error e))
  | waiting : Concludes none none

/-- What a call does to the client, and what it ends with, by the response that it accepts. -/
structure Follows (accepted : Option Response) (result : Option (Except Error Response))
    (s' : Session) : Prop where
  codec : s'.codec = s.codec
  worker : s'.worker = s.worker.or (accepted.bind named?)
  result : Concludes accepted result

variable {s}

/-- Nothing is accepted. -/
theorem Follows.idle {result : Option (Except Error Response)} {s' : Session}
    (codec : s'.codec = s.codec) (worker : s'.worker = s.worker)
    (ends : Concludes none result) : s.Follows none result s' :=
  ⟨codec, worker.trans (Option.or_none).symm, ends⟩

theorem call_follows {request : Request} {requestId : String} {frame : Bytes}
    (sent : s.codec.encode (s.address request requestId).toValue = .ok frame)
    (arrivals : List Arrival) :
    s.Follows (response? (s.await requestId arrivals).1)
      (s.call request requestId arrivals).1 (s.call request requestId arrivals).2.1 := by
  obtain ⟨codec, worker, brings⟩ := s.await_keeps requestId arrivals
  unfold call
  rw [sent]
  dsimp only
  generalize s.await requestId arrivals = waited at codec worker brings
  match waited, brings with
  | (some (.ok r), later, rest), _ =>
    refine ⟨(later.settle_codec r).trans codec, (later.settle_worker r).trans ?_, .verdict r⟩
    rw [worker]
    rfl
  | (some (.error e), later, rest), brings => exact .idle codec worker (.failure brings)
  | (none, later, rest), _ => exact .idle codec worker .waiting

theorem call_of_unsent {request : Request} {requestId : String} {e : CodecError}
    (unsent : s.codec.encode (s.address request requestId).toValue = .error e)
    (arrivals : List Arrival) :
    s.call request requestId arrivals = (some (.error (.codec e)), s, arrivals) := by
  unfold call
  rw [unsent]

/-- One call, whatever becomes of it. -/
theorem take_follows (s : Session) (t : Turn) :
    s.Follows (s.accepted? t) (s.take t).1 (s.take t).2.1 := by
  obtain ⟨request, requestId, arrivals, breach⟩ := t
  unfold take accepted? frame
  dsimp only
  cases sent : s.codec.encode (s.address request requestId).toValue with
  | error e =>
    have called := call_of_unsent sent arrivals
    have ended : s.attempt request requestId arrivals breach =
        (some (.error (.codec e)), s, arrivals) := by
      unfold attempt
      rcases breach with _ | ⟨reason⟩ | ⟨reason⟩ <;> dsimp only
      · exact called
      · rw [sent]
      · rw [called]
    rw [ended]
    exact .idle rfl rfl (.failure not_false)
  | ok bytes =>
    have follows := call_follows sent arrivals
    unfold attempt
    rcases breach with _ | ⟨reason⟩ | ⟨reason⟩ <;> dsimp only
    · exact follows
    · rw [sent]
      exact .idle rfl rfl (.failure not_false)
    · generalize s.call request requestId arrivals = called at follows
      generalize response? (s.await requestId arrivals).1 = accepted at follows
      match called, follows with
      | (some result, later, rest), follows => exact follows
      | (none, later, rest), ⟨codec, worker, result⟩ =>
        cases accepted with
        | some r => cases result
        | none => exact ⟨codec, worker, .failure not_false⟩

theorem after_cons (t : Turn) (turns : List Turn) :
    s.after (t :: turns) = ((s.take t).2.1).after turns := rfl

/-- All calls, whatever becomes of them. -/
theorem after_keeps (s : Session) (turns : List Turn) :
    (s.after turns).codec = s.codec ∧
      (s.after turns).worker = s.worker.or ((s.accepted turns).findSome? named?) := by
  induction turns generalizing s with
  | nil => exact ⟨rfl, (Option.or_none).symm⟩
  | cons t turns ih =>
    have follows := s.take_follows t
    obtain ⟨codec, worker⟩ := ih (s := (s.take t).2.1)
    refine ⟨codec.trans follows.codec, ?_⟩
    have first : (s.accepted? t).bind named? = (s.accepted? t).toList.findSome? named? := by
      cases s.accepted? t with
      | none => rfl
      | some r => cases named : named? r <;> simp [named]
    rw [after_cons, worker, follows.worker, Option.or_assoc, accepted, List.findSome?_append, first]

theorem after_append (turns more : List Turn) :
    s.after (turns ++ more) = (s.after turns).after more :=
  List.foldl_append

end Session

/-- The worker member of a request as it is written. -/
theorem member?_worker (r : Request) :
    r.toValue.member? "worker" = r.worker.map Json.Value.string := by
  obtain ⟨action, requestId, worker, context, payload⟩ := r
  cases worker <;> cases payload <;> rfl

/-- The request that goes out for another: under its name, and to the worker that its caller chose
or else to the one that the client keeps to. -/
def outgoing (r : Request) (requestId : String) (pin : Option String) : Request :=
  { r with
    requestId := requestId
    worker := match r.worker with
      | some worker => some worker
      | none => pin }

theorem address_eq (s : Session) (r : Request) (requestId : String) :
    s.address r requestId = outgoing r requestId s.worker := by
  unfold Session.address outgoing
  cases r.worker <;> rfl

theorem frame_eq (s : Session) (t : Turn) :
    s.frame t = s.codec.encode (outgoing t.request t.requestId s.worker).toValue := by
  rw [Session.frame, address_eq]

/-- A client keeps to nobody until it accepts a response that names a worker and does not say that
the caller gave up; from then on it keeps to that worker. Each of its frames goes to the worker that
the caller chose, else to the one that it keeps to then, else to none. -/
theorem pin_is_first_named (codec : Codec) (turns : List Turn) :
    ((∀ r ∈ (Session.new codec).accepted turns, ¬ Names r) →
      ((Session.new codec).after turns).worker = none) ∧
    (∀ earlier r later, (Session.new codec).accepted turns = earlier ++ r :: later →
      (∀ q ∈ earlier, ¬ Names q) → Names r →
      ((Session.new codec).after turns).worker = some r.worker) ∧
    (∀ before more worker, turns = before ++ more →
      ((Session.new codec).after before).worker = some worker →
      ((Session.new codec).after turns).worker = some worker) ∧
    ∀ before t more, turns = before ++ t :: more →
      let s := (Session.new codec).after before
      let sent := outgoing t.request t.requestId s.worker
      s.frame t = codec.encode sent.toValue ∧
      sent.toValue.member? "worker" = sent.worker.map Json.Value.string ∧
      Session.Concludes (s.accepted? t) (s.take t).1 := by
  have worker (turns : List Turn) : ((Session.new codec).after turns).worker =
      ((Session.new codec).accepted turns).findSome? named? :=
    ((Session.new codec).after_keeps turns).2.trans Option.none_or
  refine ⟨?_, ?_, ?_, ?_⟩
  · intro nameless
    rw [worker]
    exact List.findSome?_eq_none_iff.mpr fun r inside => named?_eq_none (nameless r inside)
  · intro earlier r later parts nameless names
    rw [worker, parts, List.findSome?_append,
      List.findSome?_eq_none_iff.mpr fun q inside => named?_eq_none (nameless q inside),
      Option.none_or, List.findSome?_cons, named?_eq_some names]
  · intro before more w parts pinned
    rw [parts, Session.after_append, (Session.after_keeps _ more).2, pinned, Option.some_or]
  · intro before t more _ s sent
    refine ⟨?_, member?_worker _, (s.take_follows t).result⟩
    rw [frame_eq, show s.codec = codec from ((Session.new codec).after_keeps before).1]

end SessionRelay.Client
