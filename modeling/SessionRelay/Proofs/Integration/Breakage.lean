import SessionRelay.Proofs.Integration.Answers

/-!
Broken connections. A session that can be used stays so after a request, unless one of the calls
that were made for the request found the connection broken. All other failures are survived.
-/

namespace SessionRelay

namespace Backend

/-- A call and what the backend answered. -/
structure Exchange where
  call : Call
  answer : call.Answer

/-- Did the call find the connection broken? -/
def Exchange.isBroken (x : Exchange) : Bool :=
  match x.answer with
  | .ok _ => false
  | .error e => e.isFatal

namespace Dialog

variable {α β : Type}

/-- Whatever the answers to its calls are, the dialog gives only what goes with the exchanges that
it took. -/
def EndsAfter (P : List Exchange → α → Prop) : Dialog α → Prop
  | .done a => P [] a
  | .ask c next => ∀ answer, (next answer).EndsAfter fun later a => P (⟨c, answer⟩ :: later) a

theorem endsAfter_map {P : List Exchange → β → Prop} {f : α → β} {d : Dialog α} :
    (d.map f).EndsAfter P ↔ d.EndsAfter fun heard a => P heard (f a) := by
  induction d generalizing P with
  | done a => rfl
  | ask c next ih => exact forall_congr' fun answer => ih answer

theorem EndsAfter.imp {P Q : List Exchange → α → Prop} (h : ∀ heard a, P heard a → Q heard a)
    {d : Dialog α} (hd : d.EndsAfter P) : d.EndsAfter Q := by
  induction d generalizing P Q with
  | done a => exact h [] a hd
  | ask c next ih =>
    intro answer
    exact ih answer (fun later a => h (⟨c, answer⟩ :: later) a) (hd answer)

/-- Every dialog ends somehow: the backend may refuse each call. -/
theorem EndsAfter.exists {P : List Exchange → α → Prop} {d : Dialog α} (h : d.EndsAfter P) :
    ∃ heard a, P heard a := by
  induction d generalizing P with
  | done a => exact ⟨[], a, h⟩
  | ask c next ih =>
    obtain ⟨heard, a, last⟩ := ih (.error .closed) (h (.error .closed))
    exact ⟨_, a, last⟩

theorem Ends.after {P : α → Prop} {Q : List Exchange → α → Prop} {d : Dialog α} (hP : d.Ends P)
    (hQ : d.EndsAfter Q) : d.EndsAfter fun heard a => P a ∧ Q heard a := by
  induction d generalizing Q with
  | done a => exact ⟨hP, hQ⟩
  | ask c next ih =>
    intro answer
    exact ih answer (hP answer) (hQ answer)

theorem Ends.endsAfter {P : α → Prop} {d : Dialog α} (h : d.Ends P) :
    d.EndsAfter fun _ a => P a := by
  induction d with
  | done a => exact h
  | ask c next ih => exact fun answer => ih answer (h answer)

/-- What goes with a dialog and with what follows it goes with both in turn. -/
theorem EndsAfter.bind {P : List Exchange → β → Prop} {d : Dialog α} {f : α → Dialog β}
    (h : d.EndsAfter fun heard a => (f a).EndsAfter fun later b => P (heard ++ later) b) :
    (d.bind f).EndsAfter P := by
  induction d generalizing P with
  | done a => exact h
  | ask c next ih => exact fun answer => ih answer (h answer)

/-- With these exchanges, the dialog gives this. -/
inductive Gives : Dialog α → List Exchange → α → Prop
  | done (a : α) : Gives (.done a) [] a
  | ask {c : Call} {next : c.Answer → Dialog α} (answer : c.Answer) {later : List Exchange} {a : α}
      (rest : Gives (next answer) later a) : Gives (.ask c next) (⟨c, answer⟩ :: later) a

theorem EndsAfter.gives {P : List Exchange → α → Prop} {d : Dialog α} (h : d.EndsAfter P)
    {heard : List Exchange} {a : α} (given : d.Gives heard a) : P heard a := by
  induction given generalizing P with
  | done a => exact h
  | ask answer rest ih => exact ih (h answer)

theorem Gives.of_map {f : α → β} {d : Dialog α} {heard : List Exchange} {b : β}
    (given : (d.map f).Gives heard b) : ∃ a, d.Gives heard a ∧ f a = b := by
  induction d generalizing heard with
  | done a =>
    cases given
    exact ⟨a, .done a, rfl⟩
  | ask c next ih =>
    cases given with
    | ask answer rest =>
      obtain ⟨a, given, same⟩ := ih answer rest
      exact ⟨a, .ask answer given, same⟩

/-- A backend that answers every call at once makes exchanges. -/
theorem exists_gives_run {σ : Type} (answer : (c : Call) → σ → c.Answer × σ) (d : Dialog α)
    (s : σ) : ∃ heard, d.Gives heard (d.run answer s).1 := by
  induction d generalizing s with
  | done a => exact ⟨[], .done a⟩
  | ask c next ih =>
    obtain ⟨heard, given⟩ := ih (answer c s).1 (answer c s).2
    exact ⟨_, .ask _ given⟩

end Dialog

end Backend

namespace Integration

open Backend Wire

section Tables

variable {σ : Type}

/-- An action leaves a usable session usable, unless the connection is found broken. -/
def Breaks (usable : σ → Bool) (action : Action σ) : Prop :=
  ∀ moment request s, usable s = true →
    (action moment request s).EndsAfter fun heard result =>
      usable result.2 = !heard.any Exchange.isBroken

theorem respond_endsAfter {table : ActionTable σ} {usable : σ → Bool}
    (h : ∀ name action, table.get? name = some action → Breaks usable action)
    (worker : String) (moment : Moment) (request : Request) {s : σ} (hs : usable s = true) :
    (respond table worker moment request s).EndsAfter fun heard result =>
      usable result.2 = !heard.any Exchange.isBroken := by
  unfold respond
  split
  · exact hs
  · next action found =>
    rw [Dialog.endsAfter_map]
    exact h _ action found moment request s hs

end Tables

/-- Services that become unusable by a broken connection and by nothing else. -/
class Fragile (α : Type) [Service α] : Prop where
  handle_endsAfter : ∀ moment request (s : α), Service.isUsable s = true →
    (Service.handle moment request s).EndsAfter fun heard result =>
      Service.isUsable result.2 = !heard.any Exchange.isBroken

end Integration

namespace QueueManager.Session

open Backend Integration

theorem noting_usable (s : Session) (e : Backend.Error) :
    (s.noting e).usable = (s.usable && !e.isFatal) := by
  unfold noting
  split
  · next fatal => simp [fatal]
  · next survived => simp [survived]

/-- A failed call, whether it was fatal or not. -/
theorem noting_usable_eq {s : Session} (hs : s.usable = true) (c : Call) (e : Backend.Error) :
    (s.noting e).usable = !([⟨c, .error e⟩] : List Exchange).any Exchange.isBroken := by
  simp [noting_usable, hs, Exchange.isBroken]

theorem connect_breaks : Breaks usable connect := by
  intro moment request s hs
  unfold connect
  split
  · exact hs
  · split
    · exact hs
    · intro answer
      cases answer with
      | ok connection => exact hs
      | error e => exact noting_usable_eq hs _ e

theorem put_breaks : Breaks usable put := by
  intro moment request s hs
  unfold put
  split
  · exact hs
  · split
    · exact hs
    · intro answer
      cases answer with
      | ok id => exact hs
      | error e => exact noting_usable_eq hs _ e

theorem get_breaks : Breaks usable get := by
  intro moment request s hs
  unfold get
  split
  · exact hs
  · split
    · exact hs
    · intro answer
      cases answer with
      | ok message? => exact hs
      | error e => exact noting_usable_eq hs _ e

theorem disconnect_breaks : Breaks usable disconnect := by
  intro moment request s hs
  unfold disconnect
  split
  · exact hs
  · intro answer
    have freed : ({ s with connection := none } : Session).usable = true := hs
    cases answer with
    | ok _ => exact freed
    | error e => exact noting_usable_eq freed _ e

theorem actions_break (name : String) (action : Action Session)
    (h : actions.get? name = some action) : Breaks usable action := by
  have member := ActionTable.mem_of_get?_ofList h
  simp only [List.mem_cons, List.not_mem_nil, or_false, Prod.mk.injEq] at member
  rcases member with ⟨-, rfl⟩ | ⟨-, rfl⟩ | ⟨-, rfl⟩ | ⟨-, rfl⟩ | ⟨-, rfl⟩ | ⟨-, rfl⟩
  · exact connect_breaks
  · exact put_breaks
  · exact put_breaks
  · exact get_breaks
  · exact get_breaks
  · exact disconnect_breaks

instance : Fragile Session where
  handle_endsAfter moment request s hs := respond_endsAfter actions_break s.worker moment request hs

end QueueManager.Session

namespace ServiceBus.Session

open Backend Integration

theorem noting_usable (s : Session) (e : Backend.Error) :
    (s.noting e).usable = (s.usable && !e.isFatal) := by
  unfold noting
  split
  · next fatal => simp [fatal]
  · next survived => simp [survived]

/-- A failed call, whether it was fatal or not. -/
theorem noting_usable_eq {s : Session} (hs : s.usable = true) (c : Call) (e : Backend.Error) :
    (s.noting e).usable = !([⟨c, .error e⟩] : List Exchange).any Exchange.isBroken := by
  simp [noting_usable, hs, Exchange.isBroken]

theorem hello_breaks : Breaks usable hello := fun _ _ _ hs => hs

theorem openLink_endsAfter {s : Session} (hs : s.usable = true) (connection : Connection)
    (plan : ConnectPlan) :
    (s.openLink connection plan).EndsAfter fun heard result =>
      result.2.usable = !heard.any Exchange.isBroken := by
  unfold openLink
  split
  · exact hs
  · intro answer
    cases answer with
    | ok _ => exact hs
    | error e => exact noting_usable_eq hs _ e

theorem connect_breaks : Breaks usable connect := by
  intro moment request s hs
  unfold connect
  split
  · exact hs
  · dsimp only
    split
    · exact hs
    · split
      · exact hs
      · split
        · exact openLink_endsAfter hs _ _
        · intro answer
          cases answer with
          | ok connection =>
            refine Dialog.EndsAfter.imp ?_ (openLink_endsAfter (by exact hs) connection _)
            -- the connection itself was opened
            intro later result usable
            simpa [Exchange.isBroken] using usable
          | error e => exact noting_usable_eq hs _ e

theorem disconnect_breaks : Breaks usable disconnect := by
  intro moment request s hs
  unfold disconnect
  split
  · exact hs
  · split
    · exact hs
    · dsimp only
      split
      · exact hs
      · split
        · exact hs
        · intro answer
          cases answer with
          | ok _ => exact hs
          | error e => exact noting_usable_eq (by exact hs) _ e

theorem send_breaks : Breaks usable send := by
  intro moment request s hs
  unfold send
  split
  · exact hs
  · exact hs
  · intro answer
    cases answer with
    | ok id => exact hs
    | error e => exact noting_usable_eq hs _ e

theorem receive_breaks : Breaks usable receive := by
  intro moment request s hs
  unfold receive
  split
  · exact hs
  · exact hs
  · intro answer
    cases answer with
    | ok message? => exact hs
    | error e => exact noting_usable_eq hs _ e

theorem actions_break (name : String) (action : Action Session)
    (h : actions.get? name = some action) : Breaks usable action := by
  have member := ActionTable.mem_of_get?_ofList h
  simp only [List.mem_cons, List.not_mem_nil, or_false, Prod.mk.injEq] at member
  rcases member with ⟨-, rfl⟩ | ⟨-, rfl⟩ | ⟨-, rfl⟩ | ⟨-, rfl⟩ | ⟨-, rfl⟩
  · exact hello_breaks
  · exact connect_breaks
  · exact disconnect_breaks
  · exact send_breaks
  · exact receive_breaks

instance : Fragile Session where
  handle_endsAfter moment request s hs := respond_endsAfter actions_break s.worker moment request hs

end ServiceBus.Session

namespace Integration

open Backend

instance : Fragile Family where
  handle_endsAfter moment request s hs := by
    cases s with
    | queueManager s =>
      exact Dialog.endsAfter_map.mpr (Fragile.handle_endsAfter moment request s hs)
    | serviceBus s =>
      exact Dialog.endsAfter_map.mpr (Fragile.handle_endsAfter moment request s hs)

end Integration

end SessionRelay
