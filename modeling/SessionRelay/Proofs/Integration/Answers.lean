import SessionRelay.Integration.Family
import SessionRelay.Proofs.KeyTable

/-!
Answers name whom they are from and what they are for. Whatever the backend says during an action,
the response bears the identity of the worker and the name of the request, and the session stays
with its worker.
-/

namespace SessionRelay

namespace Backend.Dialog

variable {α β : Type}

/-- Whatever the answers to its calls are, the dialog gives only what satisfies `P`. -/
def Ends (P : α → Prop) : Dialog α → Prop
  | .done a => P a
  | .ask _ next => ∀ answer, (next answer).Ends P

theorem ends_map {P : β → Prop} {f : α → β} {d : Dialog α} :
    (d.map f).Ends P ↔ d.Ends fun a => P (f a) := by
  induction d with
  | done a => rfl
  | ask c next ih => exact forall_congr' ih

theorem Ends.imp {P Q : α → Prop} (h : ∀ a, P a → Q a) {d : Dialog α} (hd : d.Ends P) :
    d.Ends Q := by
  induction d with
  | done a => exact h a hd
  | ask c next ih => exact fun answer => ih answer (hd answer)

theorem run_map {σ : Type} (answer : (c : Call) → σ → c.Answer × σ) (f : α → β) (d : Dialog α)
    (s : σ) : (d.map f).run answer s = (f (d.run answer s).1, (d.run answer s).2) := by
  induction d generalizing s with
  | done a => rfl
  | ask c next ih => exact ih _ _

end Backend.Dialog

namespace Wire

/-- The name of a request in its answer; an empty name counts as none. -/
def reference (requestId : String) : Option String :=
  if requestId.isEmpty then none else some requestId

namespace Response

@[simp] theorem failed_worker (worker message : String) :
    (failed worker message).worker = worker := rfl

@[simp] theorem forRequest_worker (r : Response) (requestId : String) :
    (r.forRequest requestId).worker = r.worker := by
  unfold forRequest
  split <;> rfl

/-- A response that named no request so far. -/
theorem forRequest_requestId {r : Response} (h : r.requestId = none) (requestId : String) :
    (r.forRequest requestId).requestId = reference requestId := by
  unfold forRequest reference
  split
  · exact h
  · rfl

@[simp] theorem failed_forRequest_requestId (worker message requestId : String) :
    ((failed worker message).forRequest requestId).requestId = reference requestId :=
  forRequest_requestId rfl requestId

end Response

end Wire

namespace Integration

open Backend Wire

@[simp] theorem finished_worker (moment : Moment) (request : Request) (r : Response) :
    (finished moment request r).worker = r.worker := r.forRequest_worker request.requestId

theorem finished_requestId {r : Response} (h : r.requestId = none) (moment : Moment)
    (request : Request) : (finished moment request r).requestId = reference request.requestId :=
  Response.forRequest_requestId h request.requestId

@[simp] theorem responseOf_worker (worker : String) (result : Except Error Outcome) :
    (responseOf worker result).worker = worker := by
  cases result <;> rfl

@[simp] theorem responseOf_requestId (worker : String) (result : Except Error Outcome) :
    (responseOf worker result).requestId = none := by
  cases result <;> rfl

/-- What is finished is the same response, but for the name of its request and the time. -/
theorem finished_eq (moment : Moment) (request : Request) (r : Response) :
    ∃ name, finished moment request r =
      { r with requestId := name, responseTime := moment.elapsed } := by
  unfold finished Response.forRequest
  split
  · exact ⟨r.requestId, rfl⟩
  · exact ⟨some request.requestId, rfl⟩

@[simp] theorem finished_success (moment : Moment) (request : Request) (r : Response) :
    (finished moment request r).success = r.success := by
  obtain ⟨name, same⟩ := finished_eq moment request r
  rw [same]

/-- A response says whether its action succeeded. -/
@[simp] theorem responseOf_success (worker : String) (result : Except Error Outcome) :
    (responseOf worker result).success = result.isOk := by
  cases result <;> rfl

/-- A payload as a text: a string as it is, any other value as its compact text. -/
def sentText : Json.Value → String
  | .string s => s
  | v => v.text

theorem payloadBytes_eq {request : Request} {v : Json.Value} (given : request.payload = some v)
    (value : v ≠ .null) : payloadBytes request = .ok (Utf8.encode (sentText v)) := by
  rw [payloadBytes, given]
  cases v with
  | null => exact absurd rfl value
  | bool _ | number _ | string _ | array _ | object _ => rfl

theorem exists_of_payloadBytes {request : Request} {body : Bytes}
    (sent : payloadBytes request = .ok body) :
    ∃ v, request.payload = some v ∧ body = Utf8.encode (sentText v) := by
  cases given : request.payload with
  | none =>
    rw [payloadBytes, given] at sent
    cases sent
  | some v =>
    by_cases null : v = .null
    · rw [payloadBytes, given, null] at sent
      cases sent
    · rw [payloadBytes_eq given null] at sent
      exact ⟨v, rfl, (Except.ok.inj sent).symm⟩

/-- A response is from a worker and for a request. -/
def IsAnswer (worker : String) (request : Request) (r : Response) : Prop :=
  r.worker = worker ∧ r.requestId = reference request.requestId

theorem isAnswer_finished {worker : String} {r : Response} (hw : r.worker = worker)
    (hr : r.requestId = none) (moment : Moment) (request : Request) :
    IsAnswer worker request (finished moment request r) :=
  ⟨(finished_worker moment request r).trans hw, finished_requestId hr moment request⟩

section Tables

variable {σ : Type}

/-- An action keeps a property of sessions, whatever the backend answers. -/
def Keeps (P : σ → Prop) (action : Action σ) : Prop :=
  ∀ moment request s, P s → (action moment request s).Ends fun result => P result.2

/-- A table of actions has no others than it was made of. -/
theorem ActionTable.mem_of_get?_ofList {actions : List (String × Action σ)} {name : String}
    {action : Action σ} (h : (ofList actions).get? name = some action) :
    (name, action) ∈ actions := by
  have grown (entries : List (String × Action σ)) (t : ActionTable σ) :
      ∀ entry ∈ (entries.foldl (fun t e => (t.register e.1 e.2).2) t).actions,
        entry ∈ t.actions ∨ entry ∈ entries := by
    induction entries generalizing t with
    | nil =>
      intro entry member
      exact Or.inl member
    | cons first rest ih =>
      intro entry member
      rcases ih _ entry member with earlier | later
      · simp only [register] at earlier
        split at earlier
        · exact Or.inl earlier
        · rcases KeyTable.mem_put earlier with rfl | old
          · exact Or.inr List.mem_cons_self
          · exact Or.inl old
      · exact Or.inr (List.mem_cons_of_mem _ later)
  rcases grown actions empty _ (KeyTable.mem_of_value? h) with none | member
  · cases none
  · exact member

/-- If all actions keep a property, handling a request keeps it and gives an answer to it. -/
theorem respond_ends {table : ActionTable σ} {P : σ → Prop}
    (h : ∀ name action, table.get? name = some action → Keeps P action)
    (worker : String) (moment : Moment) (request : Request) {s : σ} (hs : P s) :
    (respond table worker moment request s).Ends fun result =>
      IsAnswer worker request result.1 ∧ P result.2 := by
  unfold respond
  split
  · exact ⟨isAnswer_finished rfl rfl moment request, hs⟩
  · next action found =>
    rw [Dialog.ends_map]
    refine Dialog.Ends.imp ?_ (h _ action found moment request s hs)
    intro result kept
    exact ⟨isAnswer_finished (responseOf_worker _ _) (responseOf_requestId _ _) moment request,
      kept⟩

end Tables

/-- Services that answer in the name of the worker that owns them. -/
class Accountable (α : Type) [Service α] where
  owner : α → String
  handle_ends : ∀ moment request s, (Service.handle moment request s).Ends fun result =>
    IsAnswer (owner s) request result.1 ∧ owner result.2 = owner s

end Integration

namespace QueueManager.Session

open Backend Integration

/-- A session has the worker and the limit it was made with. -/
structure MadeFor (worker : String) (limit : Nat) (s : Session) : Prop where
  worker_eq : s.worker = worker
  maxPayload_eq : s.maxPayload = limit

variable {worker : String} {limit : Nat}

theorem MadeFor.noting {s : Session} (h : MadeFor worker limit s) (e : Backend.Error) :
    MadeFor worker limit (s.noting e) := by
  unfold Session.noting
  split
  · exact ⟨h.worker_eq, h.maxPayload_eq⟩
  · exact h

theorem connect_keeps_madeFor : Keeps (MadeFor worker limit) connect := by
  intro moment request s hs
  unfold connect
  split
  · exact hs
  · split
    · exact hs
    · intro answer
      cases answer with
      | ok connection => exact ⟨hs.worker_eq, hs.maxPayload_eq⟩
      | error e => exact hs.noting e

theorem put_keeps_madeFor : Keeps (MadeFor worker limit) put := by
  intro moment request s hs
  unfold put
  split
  · exact hs
  · split
    · exact hs
    · intro answer
      cases answer with
      | ok id => exact hs
      | error e => exact hs.noting e

theorem get_keeps_madeFor : Keeps (MadeFor worker limit) get := by
  intro moment request s hs
  unfold get
  split
  · exact hs
  · split
    · exact hs
    · intro answer
      cases answer with
      | ok message? => exact hs
      | error e => exact hs.noting e

theorem disconnect_keeps_madeFor : Keeps (MadeFor worker limit) disconnect := by
  intro moment request s hs
  have closed : MadeFor worker limit { s with connection := none } :=
    ⟨hs.worker_eq, hs.maxPayload_eq⟩
  unfold disconnect
  split
  · exact hs
  · intro answer
    cases answer with
    | ok _ => exact closed
    | error e => exact closed.noting e

theorem actions_keep_madeFor (name : String) (action : Action Session)
    (h : actions.get? name = some action) : Keeps (MadeFor worker limit) action := by
  have member := ActionTable.mem_of_get?_ofList h
  simp only [List.mem_cons, List.not_mem_nil, or_false, Prod.mk.injEq] at member
  rcases member with ⟨-, rfl⟩ | ⟨-, rfl⟩ | ⟨-, rfl⟩ | ⟨-, rfl⟩ | ⟨-, rfl⟩ | ⟨-, rfl⟩
  · exact connect_keeps_madeFor
  · exact put_keeps_madeFor
  · exact put_keeps_madeFor
  · exact get_keeps_madeFor
  · exact get_keeps_madeFor
  · exact disconnect_keeps_madeFor

/-- A session answers in the name of its worker, and keeps worker and limit. -/
theorem handle_keeps_madeFor (moment : Moment) (request : Wire.Request) (s : Session) :
    (Service.handle moment request s).Ends fun result =>
      IsAnswer s.worker request result.1 ∧ MadeFor s.worker s.maxPayload result.2 :=
  respond_ends actions_keep_madeFor s.worker moment request ⟨rfl, rfl⟩

instance : Accountable Session where
  owner s := s.worker
  handle_ends moment request s :=
    (handle_keeps_madeFor moment request s).imp fun _ h => ⟨h.1, h.2.worker_eq⟩

end QueueManager.Session

namespace ServiceBus.Session

open Backend Integration

theorem noting_worker (s : Session) (e : Backend.Error) : (s.noting e).worker = s.worker := by
  unfold noting
  split <;> rfl

theorem hello_keeps_worker (worker : String) :
    Keeps (fun s : Session => s.worker = worker) hello :=
  fun _ _ _ hs => hs

theorem openLink_keeps_worker {worker : String} {s : Session} (hs : s.worker = worker)
    (connection : Connection) (plan : ConnectPlan) :
    (s.openLink connection plan).Ends fun result => result.2.worker = worker := by
  unfold openLink
  split
  · exact hs
  · intro answer
    cases answer with
    | ok _ => exact hs
    | error e => exact (noting_worker s e).trans hs

theorem connect_keeps_worker (worker : String) :
    Keeps (fun s : Session => s.worker = worker) connect := by
  intro moment request s hs
  unfold connect
  split
  · exact hs
  · dsimp only
    split
    · exact hs
    · split
      · exact hs
      · split
        · exact openLink_keeps_worker hs _ _
        · intro answer
          cases answer with
          | ok connection =>
            refine openLink_keeps_worker ?_ connection _
            exact hs
          | error e => exact (noting_worker s e).trans hs

theorem disconnect_keeps_worker (worker : String) :
    Keeps (fun s : Session => s.worker = worker) disconnect := by
  intro moment request s hs
  unfold disconnect
  split
  · exact hs
  · split
    · exact hs
    · dsimp only
      split
      · exact hs
      · split
        · exact hs
        · intro answer
          cases answer with
          | ok _ => exact hs
          | error e => exact (noting_worker _ e).trans hs

theorem send_keeps_worker (worker : String) :
    Keeps (fun s : Session => s.worker = worker) send := by
  intro moment request s hs
  unfold send
  split
  · exact hs
  · exact hs
  · intro answer
    cases answer with
    | ok id => exact hs
    | error e => exact (noting_worker s e).trans hs

theorem receive_keeps_worker (worker : String) :
    Keeps (fun s : Session => s.worker = worker) receive := by
  intro moment request s hs
  unfold receive
  split
  · exact hs
  · exact hs
  · intro answer
    cases answer with
    | ok message? => exact hs
    | error e => exact (noting_worker s e).trans hs

theorem actions_keep_worker (worker : String) (name : String) (action : Action Session)
    (h : actions.get? name = some action) :
    Keeps (fun s : Session => s.worker = worker) action := by
  have member := ActionTable.mem_of_get?_ofList h
  simp only [List.mem_cons, List.not_mem_nil, or_false, Prod.mk.injEq] at member
  rcases member with ⟨-, rfl⟩ | ⟨-, rfl⟩ | ⟨-, rfl⟩ | ⟨-, rfl⟩ | ⟨-, rfl⟩
  · exact hello_keeps_worker worker
  · exact connect_keeps_worker worker
  · exact disconnect_keeps_worker worker
  · exact send_keeps_worker worker
  · exact receive_keeps_worker worker

instance : Accountable Session where
  owner s := s.worker
  handle_ends moment request s :=
    respond_ends (actions_keep_worker s.worker) s.worker moment request rfl

end ServiceBus.Session

namespace Integration

open Backend

instance : Accountable Family where
  owner
    | .queueManager s => Accountable.owner s
    | .serviceBus s => Accountable.owner s
  handle_ends moment request s := by
    cases s with
    | queueManager s => exact Dialog.ends_map.mpr (Accountable.handle_ends moment request s)
    | serviceBus s => exact Dialog.ends_map.mpr (Accountable.handle_ends moment request s)

section Registries

variable {α : Type} [Service α] [Accountable α]

/-- What the factories of a registry make for a worker. -/
def Registry.Makes (P : String → α → Prop) (r : Registry α) : Prop :=
  ∀ scheme worker s, r.create? scheme worker = some s → P worker s

omit [Service α] [Accountable α] in
/-- A registry to which a scheme is added makes what it made before, or what the new factory
makes for that scheme. -/
theorem Registry.source_of_register {r : Registry α} {scheme other worker : String}
    {factory : String → α} {s : α}
    (made : (r.register scheme factory).2.create? other worker = some s) :
    r.create? other worker = some s ∨ other = scheme ∧ factory worker = s := by
  unfold register at made
  split at made
  · exact Or.inl made
  · obtain ⟨found, known, rfl⟩ := Option.map_eq_some_iff.mp made
    by_cases same : other = scheme
    · subst same
      rw [KeyTable.value?_put_self] at known
      cases known
      exact Or.inr ⟨rfl, rfl⟩
    · rw [KeyTable.value?_put_ne same] at known
      exact Or.inl (Option.map_eq_some_iff.mpr ⟨found, known, rfl⟩)

omit [Service α] [Accountable α] in
/-- What a registry makes for a scheme comes from one of the factories that were added for it. -/
theorem Registry.source_of_foldl {factories : List (String × (String → α))} {r : Registry α}
    {scheme worker : String} {s : α}
    (made : (factories.foldl (fun r (scheme, factory) => (r.register scheme factory).2) r).create?
      scheme worker = some s) :
    r.create? scheme worker = some s ∨
      ∃ factory, (scheme, factory) ∈ factories ∧ factory worker = s := by
  induction factories generalizing r with
  | nil => exact Or.inl made
  | cons entry rest ih =>
    rcases ih made with earlier | ⟨factory, member, same⟩
    · rcases source_of_register earlier with before | ⟨rfl, same⟩
      · exact Or.inl before
      · exact Or.inr ⟨entry.2, List.mem_cons_self, same⟩
    · exact Or.inr ⟨factory, List.mem_cons_of_mem _ member, same⟩

/-- Integrations belong to the workers that they are made for. -/
def Registry.Assigns (r : Registry α) : Prop :=
  ∀ scheme worker s, r.create? scheme worker = some s → Accountable.owner s = worker

end Registries

/-- The registry makes sessions of the family to which the scheme belongs. -/
theorem Family.source_of_registry {maxPayload : Nat} {scheme worker : String} {s : Family}
    (made : (Family.registry maxPayload).create? scheme worker = some s) :
    scheme ∈ QueueManager.schemes ∧ s = .queueManager (.new worker maxPayload) ∨
      scheme ∈ ServiceBus.schemes ∧ s = .serviceBus (.new worker) := by
  rcases Registry.source_of_foldl made with none | ⟨factory, member, rfl⟩
  · cases none
  · rcases List.mem_append.mp member with first | second
    · obtain ⟨_, known, ⟨⟩⟩ := List.mem_map.mp first
      exact Or.inl ⟨known, rfl⟩
    · obtain ⟨_, known, ⟨⟩⟩ := List.mem_map.mp second
      exact Or.inr ⟨known, rfl⟩

/-- What holds of the new sessions of both kinds holds of all that the registry makes. -/
theorem Family.registry_makes {P : String → Family → Prop} (maxPayload : Nat)
    (queues : ∀ worker, P worker (.queueManager (.new worker maxPayload)))
    (buses : ∀ worker, P worker (.serviceBus (.new worker))) :
    (Family.registry maxPayload).Makes P := by
  intro scheme worker s made
  rcases Family.source_of_registry made with ⟨-, rfl⟩ | ⟨-, rfl⟩
  · exact queues worker
  · exact buses worker

theorem Family.registry_assigns (maxPayload : Nat) : (Family.registry maxPayload).Assigns :=
  Family.registry_makes maxPayload (fun _ => rfl) fun _ => rfl

end Integration

end SessionRelay
