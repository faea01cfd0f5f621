import SessionRelay.Proofs.Backend.Custody
import SessionRelay.Worker.Basic

/-!
Sessions look after their connections. Handling a request starts with the connection that the
session holds and leaves the one that it holds afterwards, on every path and with every answer, so a
session that serves requests and is closed in the end has closed every connection that it opened.
-/

namespace SessionRelay

namespace Integration

open Backend Wire

section Tables

variable {σ : Type}

/-- An action has the connection of the session in custody. -/
def Minds (holds : σ → Option Connection) (action : Action σ) : Prop :=
  ∀ moment request s, (action moment request s).EndsAfter fun heard result =>
    Custody (holds s) heard (holds result.2)

theorem respond_custody {table : ActionTable σ} {holds : σ → Option Connection}
    (h : ∀ name action, table.get? name = some action → Minds holds action)
    (worker : String) (moment : Moment) (request : Request) (s : σ) :
    (respond table worker moment request s).EndsAfter fun heard result =>
      Custody (holds s) heard (holds result.2) := by
  unfold respond
  split
  · exact rfl
  · next action found => exact Dialog.endsAfter_map.mpr (h _ action found moment request s)

end Tables

/-- Services that have at most one connection in custody, and give it up when they are closed. -/
class Custodian (α : Type) [Service α] where
  holds : α → Option Connection
  handle_custody : ∀ moment request s, (Service.handle moment request s).EndsAfter
    fun heard result => Custody (holds s) heard (holds result.2)
  close_custody : ∀ s, (Service.close s).EndsAfter fun heard _ => Custody (holds s) heard none

end Integration

namespace QueueManager.Session

open Backend Integration

theorem noting_connection (s : Session) (e : Backend.Error) :
    (s.noting e).connection = s.connection := by
  unfold noting
  split <;> rfl

theorem connect_minds : Minds connection connect := by
  intro moment request s
  unfold connect
  split
  · exact rfl
  · next unheld =>
    split
    · exact rfl
    · intro answer
      cases answer with
      | ok c => exact ⟨unheld.symm, rfl⟩
      | error e => exact ⟨unheld.symm, (noting_connection s e).symm⟩

theorem put_minds : Minds connection put := by
  intro moment request s
  unfold put
  split
  · exact rfl
  · next c held =>
    split
    · exact rfl
    · intro answer
      cases answer with
      | ok id => exact ⟨held.symm, rfl⟩
      | error e => exact ⟨held.symm, (noting_connection s e).symm⟩

theorem get_minds : Minds connection get := by
  intro moment request s
  unfold get
  split
  · exact rfl
  · next c held =>
    split
    · exact rfl
    · intro answer
      cases answer with
      | ok message? => exact ⟨held.symm, rfl⟩
      | error e => exact ⟨held.symm, (noting_connection s e).symm⟩

theorem disconnect_minds : Minds connection disconnect := by
  intro moment request s
  unfold disconnect
  split
  · exact rfl
  · next c held =>
    intro answer
    cases answer with
    | ok _ => exact ⟨held.symm, rfl⟩
    | error e => exact ⟨held.symm, (noting_connection { s with connection := none } e).symm⟩

theorem actions_mind (name : String) (action : Action Session)
    (h : actions.get? name = some action) : Minds connection action := by
  have member := ActionTable.mem_of_get?_ofList h
  simp only [List.mem_cons, List.not_mem_nil, or_false, Prod.mk.injEq] at member
  rcases member with ⟨-, rfl⟩ | ⟨-, rfl⟩ | ⟨-, rfl⟩ | ⟨-, rfl⟩ | ⟨-, rfl⟩ | ⟨-, rfl⟩
  · exact connect_minds
  · exact put_minds
  · exact put_minds
  · exact get_minds
  · exact get_minds
  · exact disconnect_minds

theorem close_custody (s : Session) :
    (close s).EndsAfter fun heard _ => Custody s.connection heard none := by
  unfold close
  split
  · next unheld => exact unheld
  · next c held => exact fun _ => ⟨held.symm, rfl⟩

instance : Custodian Session where
  holds := connection
  handle_custody moment request s := respond_custody actions_mind s.worker moment request s
  close_custody := close_custody

end QueueManager.Session

namespace ServiceBus.Session

open Backend Integration

theorem noting_connection (s : Session) (e : Backend.Error) :
    (s.noting e).connection = s.connection := by
  unfold noting
  split <;> rfl

theorem hello_minds : Minds connection hello := fun _ _ _ => rfl

theorem openLink_custody {s : Session} {c : Connection} (held : s.connection = some c)
    (plan : ConnectPlan) :
    (s.openLink c plan).EndsAfter fun heard result =>
      Custody (some c) heard result.2.connection := by
  unfold openLink
  split
  · exact held.symm
  · intro answer
    cases answer with
    | ok _ => exact ⟨rfl, held.symm⟩
    | error e => exact ⟨rfl, held.symm.trans (noting_connection s e).symm⟩

theorem connect_minds : Minds connection connect := by
  intro moment request s
  unfold connect
  split
  · exact rfl
  · dsimp only
    split
    · exact rfl
    · split
      · exact rfl
      · split
        · next c held =>
          rw [held]
          exact openLink_custody held _
        · next unheld =>
          intro answer
          cases answer with
          | ok c =>
            -- from here on the new connection is held, even if the link is not opened
            refine Dialog.EndsAfter.imp ?_ (openLink_custody (by rfl) _)
            exact fun later result custody => ⟨unheld.symm, custody⟩
          | error e => exact ⟨unheld.symm, (noting_connection s e).symm⟩

theorem disconnect_minds : Minds connection disconnect := by
  intro moment request s
  unfold disconnect
  split
  · exact rfl
  · split
    · exact rfl
    · dsimp only
      split
      · exact rfl
      · split
        · next unheld => exact unheld
        · next c held =>
          have freed :=
            noting_connection { s with links := [], space := none, connection := none }
          intro answer
          cases answer with
          | ok _ => exact ⟨held.symm, rfl⟩
          | error e => exact ⟨held.symm, (freed e).symm⟩

theorem send_minds : Minds connection send := by
  intro moment request s
  unfold send
  split
  · exact rfl
  · exact rfl
  · next held =>
    intro answer
    cases answer with
    | ok id => exact ⟨held.symm, rfl⟩
    | error e => exact ⟨held.symm, (noting_connection s e).symm⟩

theorem receive_minds : Minds connection receive := by
  intro moment request s
  unfold receive
  split
  · exact rfl
  · exact rfl
  · next held =>
    intro answer
    cases answer with
    | ok message? => exact ⟨held.symm, rfl⟩
    | error e => exact ⟨held.symm, (noting_connection s e).symm⟩

theorem actions_mind (name : String) (action : Action Session)
    (h : actions.get? name = some action) : Minds connection action := by
  have member := ActionTable.mem_of_get?_ofList h
  simp only [List.mem_cons, List.not_mem_nil, or_false, Prod.mk.injEq] at member
  rcases member with ⟨-, rfl⟩ | ⟨-, rfl⟩ | ⟨-, rfl⟩ | ⟨-, rfl⟩ | ⟨-, rfl⟩
  · exact hello_minds
  · exact connect_minds
  · exact disconnect_minds
  · exact send_minds
  · exact receive_minds

theorem close_custody (s : Session) :
    (close s).EndsAfter fun heard _ => Custody s.connection heard none := by
  unfold close
  split
  · next unheld => exact unheld
  · next c held => exact fun _ => ⟨held.symm, rfl⟩

instance : Custodian Session where
  holds := connection
  handle_custody moment request s := respond_custody actions_mind s.worker moment request s
  close_custody := close_custody

end ServiceBus.Session

namespace Integration

open Backend Wire

instance : Custodian Family where
  holds
    | .queueManager s => s.connection
    | .serviceBus s => s.connection
  handle_custody moment request s := by
    cases s with
    | queueManager s =>
      exact Dialog.endsAfter_map.mpr (Custodian.handle_custody moment request s)
    | serviceBus s =>
      exact Dialog.endsAfter_map.mpr (Custodian.handle_custody moment request s)
  close_custody s := by
    cases s with
    | queueManager s => exact Dialog.endsAfter_map.mpr (Custodian.close_custody s)
    | serviceBus s => exact Dialog.endsAfter_map.mpr (Custodian.close_custody s)

end Integration

namespace Worker

open Backend Integration Wire

variable {α : Type} [Service α]

/-- The worker's integration handles requests one after the other, and the worker closes it. -/
def serve (w : Worker α) (s : α) : List (Moment × Request) → Dialog (Worker α)
  | [] => ({ w with integration := some s } : Worker α).close
  | (moment, request) :: rest =>
    (Service.handle moment request s).bind fun (_, s) => w.serve s rest

variable [Custodian α]

/-- From the first request to the end, whatever the session holds is looked after. -/
theorem serve_custody (w : Worker α) (s : α) (requests : List (Moment × Request)) :
    (w.serve s requests).EndsAfter fun heard _ => Custody (Custodian.holds s) heard none := by
  induction requests generalizing s with
  | nil => exact Dialog.endsAfter_map.mpr (Custodian.close_custody s)
  | cons first rest ih =>
    refine Dialog.EndsAfter.bind (Dialog.EndsAfter.imp ?_
      (Custodian.handle_custody first.1 first.2 s))
    intro heard result custody
    refine Dialog.EndsAfter.imp ?_ (ih result.2)
    exact fun later _ rest => custody_append.mpr ⟨_, custody, rest⟩

/-- The calls of a dialog are balanced whatever the answers are, and a backend in memory never
answers that a connection is closed, whatever others do to it meanwhile. -/
def LooksAfter {β : Type} (d : Dialog β) : Prop :=
  d.EndsAfter fun heard _ =>
    Balanced heard ∧ ∀ m, Met none m heard → ∀ x ∈ heard, x.answer ≠ .error .closed

theorem serve_looksAfter (w : Worker α) {s : α} (empty : Custodian.holds s = none)
    (requests : List (Moment × Request)) : LooksAfter (w.serve s requests) := by
  refine Dialog.EndsAfter.imp ?_ (w.serve_custody s requests)
  intro heard _ custody
  rw [empty] at custody
  exact ⟨custody.balanced, fun m met => custody.unclosed met nofun⟩

/-- New sessions of either kind, whatever they are asked for and whatever the backend answers, have
closed each connection that they opened once when their worker has closed them. -/
theorem connections_balanced (w : Worker Family) (worker : String) (maxPayload : Nat)
    (requests : List (Moment × Request)) :
    LooksAfter (w.serve (.queueManager (.new worker maxPayload)) requests) ∧
      LooksAfter (w.serve (.serviceBus (.new worker)) requests) :=
  ⟨w.serve_looksAfter rfl requests, w.serve_looksAfter rfl requests⟩

end Worker

end SessionRelay
