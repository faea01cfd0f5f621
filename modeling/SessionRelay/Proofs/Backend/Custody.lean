import SessionRelay.Proofs.Backend.Ledger
import SessionRelay.Proofs.Integration.Breakage

/-!
Connections in custody. Whoever opens a connection only while holding none, makes all other calls on
the one that it holds, and closes that in the end, closes every connection once and uses none that
is closed. A backend in memory then never has to answer that a connection is closed.
-/

namespace SessionRelay.Backend

/-- The connection that a call is made on. -/
def Call.on? : Call → Option Connection
  | .connect _ => none
  | .declare c _ => some c
  | .put c _ _ => some c
  | .get c _ _ => some c
  | .close c => some c

namespace Exchange

/-- The connection that the backend opened. -/
def opened? : Exchange → Option Connection
  | ⟨.connect _, .ok c⟩ => some c
  | _ => none

/-- The connection that was to be closed. -/
def closed? : Exchange → Option Connection
  | ⟨.close c, _⟩ => some c
  | _ => none

/-- The connection that is held after an exchange. One that was to be closed is given up, whatever
the answer. -/
def leaves (held : Option Connection) : Exchange → Option Connection
  | ⟨.connect _, .ok c⟩ => some c
  | ⟨.close _, _⟩ => none
  | _ => held

end Exchange

/-- The connections that were opened, in this order. -/
def opened (heard : List Exchange) : List Connection := heard.filterMap Exchange.opened?

/-- The connections that were to be closed, in this order. -/
def closed (heard : List Exchange) : List Connection := heard.filterMap Exchange.closed?

theorem opened_append (before after : List Exchange) :
    opened (before ++ after) = opened before ++ opened after := List.filterMap_append

theorem opened_cons (x : Exchange) (rest : List Exchange) :
    opened (x :: rest) = x.opened?.toList ++ opened rest := by
  cases found : x.opened? <;> simp [opened, found]

theorem closed_cons (x : Exchange) (rest : List Exchange) :
    closed (x :: rest) = x.closed?.toList ++ closed rest := by
  cases found : x.closed? <;> simp [closed, found]

/-- Every call is made on the connection that is held, and only a call to connect while none is. -/
def Custody : Option Connection → List Exchange → Option Connection → Prop
  | held, [], final => held = final
  | held, x :: rest, final => x.call.on? = held ∧ Custody (x.leaves held) rest final

variable {held final : Option Connection} {heard before after : List Exchange} {x : Exchange}

theorem custody_append :
    Custody held (before ++ after) final ↔
      ∃ between, Custody held before between ∧ Custody between after final := by
  induction before generalizing held with
  | nil => exact ⟨fun custody => ⟨held, rfl, custody⟩, fun ⟨_, rfl, custody⟩ => custody⟩
  | cons x rest ih =>
    simp only [List.cons_append, Custody, ih]
    constructor
    · rintro ⟨on, between, first, second⟩
      exact ⟨between, ⟨on, first⟩, second⟩
    · rintro ⟨between, ⟨on, first⟩, second⟩
      exact ⟨on, between, first, second⟩

/-- One call: what was held and opened is what was closed and is held. -/
theorem Exchange.balance (on : x.call.on? = held) :
    held.toList ++ x.opened?.toList = x.closed?.toList ++ (x.leaves held).toList := by
  subst on
  obtain ⟨call, answer⟩ := x
  cases call with
  | connect target => cases answer <;> rfl
  | declare | put | get | close => rfl

/-- What was held and opened is what was closed and is held. -/
theorem Custody.balance (custody : Custody held heard final) :
    held.toList ++ opened heard = closed heard ++ final.toList := by
  induction heard generalizing held with
  | nil =>
    cases custody
    simp [opened, closed]
  | cons x rest ih =>
    obtain ⟨on, later⟩ := custody
    calc held.toList ++ opened (x :: rest)
        = held.toList ++ x.opened?.toList ++ opened rest := by
          rw [opened_cons, List.append_assoc]
      _ = x.closed?.toList ++ ((x.leaves held).toList ++ opened rest) := by
          rw [Exchange.balance on, List.append_assoc]
      _ = x.closed?.toList ++ (closed rest ++ final.toList) := by rw [ih later]
      _ = closed (x :: rest) ++ final.toList := by rw [closed_cons, List.append_assoc]

/-- What is held was opened. -/
theorem Custody.mem_opened {c : Connection} (custody : Custody none heard (some c)) :
    c ∈ opened heard := by
  have balance : opened heard = closed heard ++ [c] := custody.balance
  rw [balance]
  exact List.mem_append_right _ (List.mem_singleton.mpr rfl)

/-- A call that closes a connection is the last one on it, if no two connections are the same. -/
theorem Custody.quiet (custody : Custody none heard final) (distinct : (opened heard).Nodup)
    (split : heard = before ++ x :: after) {c : Connection} (closes : x.call = .close c) :
    ∀ y ∈ after, y.call.on? ≠ some c := by
  intro y later on
  obtain ⟨between, rest, rfl⟩ := List.append_of_mem later
  subst split
  obtain ⟨held, upTo, onX, custody⟩ := custody_append.mp custody
  obtain ⟨mid, past, onY, -⟩ := custody_append.mp custody
  obtain ⟨call, answer⟩ := x
  cases closes
  cases onX
  -- opened before it was closed, and once more before it is used
  have first : c ∈ opened before := upTo.mem_opened
  have second : c ∈ opened between := by
    rw [← onY, on] at past
    exact past.mem_opened
  rw [opened_append, opened_cons, opened_append] at distinct
  have apart := (List.nodup_append.mp distinct).2.2 c first c
  exact apart (List.mem_append_right _ (List.mem_append_left _ second)) rfl

/-- The exchanges of somebody who looks after connections from the first to the last. -/
structure Balanced (heard : List Exchange) : Prop where
  /-- Before any call all but at most one of the connections are closed, and the call is made on
  the one that is left. It is to connect if and only if none is. -/
  moments : ∀ before x after, heard = before ++ x :: after → ∃ held : Option Connection,
    opened before = closed before ++ held.toList ∧ x.call.on? = held
  /-- In the end each connection has been closed once. -/
  settled : closed heard = opened heard
  /-- No connection is used after it was closed, if the backend tells them apart. -/
  quiet : (opened heard).Nodup → ∀ before x after c, heard = before ++ x :: after →
    x.call = .close c → ∀ y ∈ after, y.call.on? ≠ some c

theorem Custody.balanced (custody : Custody none heard none) : Balanced heard where
  moments before x after split := by
    subst split
    obtain ⟨held, upTo, on, -⟩ := custody_append.mp custody
    exact ⟨held, upTo.balance, on⟩
  settled := by simpa using custody.balance.symm
  quiet distinct before x after c split closes := custody.quiet distinct split closes

/-! ### With a backend in memory -/

namespace Memory

variable {m now : Memory}

def IsOpen (m : Memory) (c : Connection) : Prop :=
  ∃ address, m.links[c.number]? = some ⟨address, true⟩

theorem IsOpen.of_links {c : Connection} (isOpen : m.IsOpen c) (same : now.links = m.links) :
    now.IsOpen c := by
  obtain ⟨address, found⟩ := isOpen
  exact ⟨address, by rw [same, found]⟩

theorem usable_ne_closed {c : Connection} (isOpen : m.IsOpen c) : m.usable c ≠ .error .closed := by
  obtain ⟨address, found⟩ := isOpen
  simp only [usable, found]
  split
  · contradiction
  · split <;> rintro ⟨⟩

theorem links_deliver (m : Memory) (key : String) (body : Bytes) :
    (m.deliver key body).2.links = m.links := by
  obtain ⟨queues, after⟩ := m.deliver_eq key body
  rw [after]

/-- A new connection is open. -/
theorem isOpen_of_connect {target : Target} {c : Connection} {after : Memory}
    (answered : m.connect target = (.ok c, after)) : after.IsOpen c := by
  unfold connect at answered
  split at answered
  · cases answered
  · split at answered <;> cases answered
    exact ⟨target.address, List.getElem?_concat_length⟩

/-- No call closes a connection but the one that is made for it. -/
theorem IsOpen.answer {c : Connection} (isOpen : m.IsOpen c) {call : Call}
    (spared : call ≠ .close c) : (Memory.answer call m).2.IsOpen c := by
  cases call with
  | connect target =>
    simp only [Memory.answer, connect]
    split
    · exact isOpen
    · split
      · exact isOpen
      · obtain ⟨address, found⟩ := isOpen
        obtain ⟨inside, -⟩ := List.getElem?_eq_some_iff.mp found
        exact ⟨address, (List.getElem?_append_left inside).trans found⟩
  | declare d destination =>
    simp only [Memory.answer, declare]
    split
    · exact isOpen
    · exact isOpen.of_links rfl
  | put d destination body =>
    simp only [Memory.answer, put]
    split
    · exact isOpen
    · exact isOpen.of_links (links_deliver m _ body)
  | get d destination wait =>
    simp only [Memory.answer, poll]
    split
    · exact isOpen
    · split
      · next popped =>
        refine isOpen.of_links ?_
        rw [(pop?_eq_some popped).2.2]
      · exact isOpen
  | close d =>
    simp only [Memory.answer, Memory.close]
    split
    · exact isOpen
    · split
      · have other : d.number ≠ c.number := by
          intro same
          exact spared (by rw [show d = c by cases d; cases c; exact congrArg _ same])
        obtain ⟨address, found⟩ := isOpen
        exact ⟨address, (List.getElem?_set_ne other).trans found⟩
      · exact isOpen

/-- A call on a connection that is open is not told that it is closed. -/
theorem answer_ne_closed {call : Call} (isOpen : ∀ c, call.on? = some c → m.IsOpen c) :
    (Memory.answer call m).1 ≠ .error .closed := by
  cases call with
  | connect target =>
    simp only [Memory.answer, connect]
    split
    · rintro ⟨⟩
    · split <;> rintro ⟨⟩
  | declare c destination =>
    simp only [Memory.answer, declare]
    split
    · next failed =>
      rintro ⟨⟩
      exact usable_ne_closed (isOpen c rfl) failed
    · rintro ⟨⟩
  | put c destination body =>
    simp only [Memory.answer, put]
    split
    · next failed =>
      rintro ⟨⟩
      exact usable_ne_closed (isOpen c rfl) failed
    · rintro ⟨⟩
  | get c destination wait =>
    simp only [Memory.answer, poll]
    split
    · next failed =>
      rintro ⟨⟩
      exact usable_ne_closed (isOpen c rfl) failed
    · split <;> rintro ⟨⟩
  | close c =>
    obtain ⟨address, found⟩ := isOpen c rfl
    simp only [Memory.answer, Memory.close, found]
    rintro ⟨⟩

end Memory

/-- An act does not close the connection. -/
def Act.Spares (c : Connection) : Act → Prop
  | .call made | .expire made => made ≠ .close c
  | _ => True

theorem Memory.IsOpen.perform {m : Memory} {c : Connection} (isOpen : m.IsOpen c) {act : Act}
    (spares : act.Spares c) : (m.entry act).after.IsOpen c := by
  cases act with
  | enqueue address destination body => exact isOpen.of_links (links_deliver m _ body)
  | take address destination =>
    simp only [entry, Memory.perform]
    split
    · next popped =>
      refine isOpen.of_links ?_
      rw [(pop?_eq_some popped).2.2]
    · exact isOpen
  | call made =>
    simp only [entry, Memory.perform]
    split
    · next answered =>
      have after := isOpen.answer spares
      rw [attempt_eq_answered answered] at after
      exact after
    · exact isOpen
  | expire made => exact isOpen.answer spares
  | sever | restore | refuse _ => exact isOpen.of_links rfl

theorem Memory.IsOpen.performAll {m : Memory} {c : Connection} (isOpen : m.IsOpen c)
    {acts : List Act} (spares : ∀ act ∈ acts, act.Spares c) : (m.performAll acts).IsOpen c := by
  induction acts generalizing m with
  | nil => exact isOpen
  | cons act acts ih =>
    exact ih (isOpen.perform (spares act List.mem_cons_self))
      fun other member => spares other (List.mem_cons_of_mem _ member)

/-- Exchanges with a backend in memory. Between them others may do anything to it but close the
connection that is held. -/
inductive Met : Option Connection → Memory → List Exchange → Prop
  | nil {held : Option Connection} {m : Memory} : Met held m []
  | cons {held : Option Connection} {m after : Memory} {x : Exchange} {rest : List Exchange}
      (others : List Act) (spares : ∀ c, held = some c → ∀ act ∈ others, act.Spares c)
      (answered : Memory.answer x.call (m.performAll others) = (x.answer, after))
      (later : Met (x.leaves held) after rest) : Met held m (x :: rest)

/-- So are the exchanges of a dialog that has the backend to itself. -/
theorem exists_met_run {α : Type} (d : Dialog α) (held : Option Connection) (m : Memory) :
    ∃ heard, d.Gives heard (d.run Memory.answer m).1 ∧ Met held m heard := by
  induction d generalizing held m with
  | done a => exact ⟨[], .done a, .nil⟩
  | ask c next ih =>
    obtain ⟨heard, gives, met⟩ :=
      ih (Memory.answer c m).1 (Exchange.leaves held ⟨c, (Memory.answer c m).1⟩)
        (Memory.answer c m).2
    exact ⟨_, .ask _ gives, .cons [] (fun _ _ => nofun) rfl met⟩

/-- The connection that is held after a call is open if that before it was. -/
theorem isOpen_leaves {m after : Memory}
    (answered : Memory.answer x.call m = (x.answer, after)) (on : x.call.on? = held)
    (isOpen : ∀ c, held = some c → m.IsOpen c) (c : Connection) (leaves : x.leaves held = some c) :
    after.IsOpen c := by
  obtain ⟨call, answer⟩ := x
  subst on
  have kept (held : call.on? = some c) (spared : call ≠ .close c) : after.IsOpen c := by
    have open_ := (isOpen c held).answer spared
    rw [answered] at open_
    exact open_
  cases call with
  | connect target =>
    cases answer with
    | ok new =>
      cases leaves
      exact Memory.isOpen_of_connect answered
    | error e => cases leaves
  | declare d destination => exact kept leaves nofun
  | put d destination body => exact kept leaves nofun
  | get d destination wait => exact kept leaves nofun
  | close d => cases leaves

/-- Who has connections in custody never hears that one is closed. -/
theorem Custody.unclosed (custody : Custody held heard final) {m : Memory} (met : Met held m heard)
    (isOpen : ∀ c, held = some c → m.IsOpen c) : ∀ x ∈ heard, x.answer ≠ .error .closed := by
  induction met with
  | nil => nofun
  | @cons held m after x rest others spares answered later ih =>
    obtain ⟨on, custody⟩ := custody
    have isOpen (c : Connection) (h : held = some c) : (m.performAll others).IsOpen c :=
      (isOpen c h).performAll (spares c h)
    refine List.forall_mem_cons.mpr ⟨?_, ih custody (isOpen_leaves answered on isOpen)⟩
    intro closed
    have never := Memory.answer_ne_closed fun c h => isOpen c (on.symm.trans h)
    rw [answered] at never
    exact never closed

end SessionRelay.Backend
