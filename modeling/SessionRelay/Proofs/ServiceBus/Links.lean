import Mathlib.Data.List.Nodup
import SessionRelay.Proofs.Integration.Breakage
import SessionRelay.Proofs.ServiceBus.Subscriptions

/-!
The links of a session with a service bus. After any requests, with any answers of the backend, they
are those that were opened and not closed since, and they stand as long as the connection does.
-/

namespace SessionRelay.ServiceBus

open Integration Wire
open Backend hiding Error

/-- A request that was handled: the calls that were made for it, and the response. -/
structure Handled where
  request : Request
  heard : List Exchange
  response : Response

/-- A session that has handled requests, the last one first, with whatever answers to its calls. -/
inductive Reaches (worker : String) : List Handled → Session → Prop
  | new : Reaches worker [] (.new worker)
  | handle {log : List Handled} {s s' : Session} (earlier : Reaches worker log s) (moment : Moment)
      {request : Request} {heard : List Exchange} {response : Response}
      (given : (Service.handle moment request s).Gives heard (response, s')) :
      Reaches worker (⟨request, heard, response⟩ :: log) s'

/-- A request asks to connect to a namespace by a link of the key. -/
def AsksFor (request : Request) (space : String) (key : LinkKey) : Prop :=
  request.action = "CONN" ∧
    ∃ plan, connectPlan request = .ok plan ∧ plan.url.space = space ∧ plan.key = key

theorem AsksFor.eq {request : Request} {plan : ConnectPlan}
    (planned : connectPlan request = .ok plan)
    {space : String} {key : LinkKey} (asks : AsksFor request space key) :
    plan.url.space = space ∧ plan.key = key := by
  obtain ⟨-, other, also, spaceOf, keyOf⟩ := asks
  cases also.symm.trans planned
  exact ⟨spaceOf, keyOf⟩

/-- A request asks to close the link of the key. -/
def Shuts (request : Request) (key : LinkKey) : Prop :=
  request.action = "DISC" ∧ Session.keyOf request = .ok key

/-- A link to the namespace was opened, and nobody has asked to close it since. -/
def StandsOpen (log : List Handled) (space : String) (key : LinkKey) : Prop :=
  ∃ later opening earlier, log = later ++ opening :: earlier ∧
    opening.response.success = true ∧ AsksFor opening.request space key ∧
    ∀ handled ∈ later, ¬ Shuts handled.request key

theorem not_standsOpen_nil (space : String) (key : LinkKey) : ¬ StandsOpen [] space key := by
  rintro ⟨later, opening, earlier, split, -⟩
  exact absurd split (by simp)

/-- A link stands open because it was just opened, or because it stood so before. -/
theorem standsOpen_cons {log : List Handled} {last : Handled} {space : String} {key : LinkKey} :
    StandsOpen (last :: log) space key ↔
      (last.response.success = true ∧ AsksFor last.request space key) ∨
        (StandsOpen log space key ∧ ¬ Shuts last.request key) := by
  constructor
  · rintro ⟨later, opening, earlier, split, succeeded, asked, unshut⟩
    cases later with
    | nil =>
      cases split
      exact Or.inl ⟨succeeded, asked⟩
    | cons first later =>
      cases split
      refine Or.inr ⟨⟨later, opening, earlier, rfl, succeeded, asked, ?_⟩, ?_⟩
      · exact fun handled member => unshut handled (List.mem_cons_of_mem _ member)
      · exact unshut last List.mem_cons_self
  · rintro (⟨succeeded, asked⟩ | ⟨⟨later, opening, earlier, rfl, succeeded, asked, unshut⟩, kept⟩)
    · exact ⟨[], last, log, rfl, succeeded, asked, nofun⟩
    · refine ⟨last :: later, opening, earlier, rfl, succeeded, asked, ?_⟩
      exact List.forall_mem_cons.mpr ⟨kept, unshut⟩

namespace Session

def keys (s : Session) : List LinkKey := s.links.map Prod.fst

/-- The parts of a session are in step: it knows its namespace as long as it has a connection, links
need one, and each leads where its endpoint says. -/
structure InStep (s : Session) : Prop where
  bound : s.space.isSome = s.connection.isSome
  connected : s.links ≠ [] → s.connection.isSome = true
  distinct : s.keys.Nodup
  destinations : ∀ key link, (key, link) ∈ s.links →
    key.endpoint.destination key.direction = .ok link.destination

variable {s s' : Session}

theorem mem_keys {key : LinkKey} : key ∈ s.keys ↔ ∃ link, (key, link) ∈ s.links := by
  simp [keys]

theorem inStep_empty (worker : String) (usable : Bool) : InStep ⟨worker, none, none, [], usable⟩
    where
  bound := rfl
  connected some := absurd rfl some
  distinct := .nil
  destinations _ _ member := nomatch member

/-- A failed call changes neither the links nor what they hang on. -/
theorem noting_eq (s : Session) (e : Backend.Error) :
    ∃ usable, s.noting e = { s with usable := usable } := by
  unfold noting
  split
  · exact ⟨false, rfl⟩
  · exact ⟨s.usable, rfl⟩

theorem InStep.noting (inStep : s.InStep) (e : Backend.Error) : (s.noting e).InStep := by
  obtain ⟨usable, same⟩ := noting_eq s e
  rw [same]
  exact ⟨inStep.bound, inStep.connected, inStep.distinct, inStep.destinations⟩

@[simp] theorem noting_keys (s : Session) (e : Backend.Error) : (s.noting e).keys = s.keys := by
  obtain ⟨usable, same⟩ := noting_eq s e
  rw [same]
  rfl

@[simp] theorem noting_space (s : Session) (e : Backend.Error) : (s.noting e).space = s.space := by
  obtain ⟨usable, same⟩ := noting_eq s e
  rw [same]

theorem not_mem_keys_of_link? {key : LinkKey} (missing : s.link? key = none) : key ∉ s.keys := by
  intro member
  obtain ⟨link, entry⟩ := mem_keys.mp member
  have absent := List.lookup_eq_none_iff.mp missing (key, link) entry
  simp at absent

/-- What a request does to the links: one that is asked for is there afterwards if the response
says so, one that is to be closed is not, and all others stay. -/
structure Shifts (request : Request) (succeeded : Bool) (s s' : Session) : Prop where
  inStep : s'.InStep
  opened : succeeded = true → ∀ space key, AsksFor request space key →
    key ∈ s'.keys ∧ s'.space = some space
  shut : ∀ key, Shuts request key → key ∉ s'.keys
  kept : ∀ key ∈ s.keys, ¬ Shuts request key → key ∈ s'.keys
  origin : ∀ key ∈ s'.keys, key ∈ s.keys ∨
    (succeeded = true ∧ ∃ space, AsksFor request space key)
  space : s.links ≠ [] → s'.links ≠ [] → s'.space = s.space

variable {request : Request}

theorem not_shuts (other : request.action ≠ "DISC") (key : LinkKey) : ¬ Shuts request key :=
  fun shuts => other shuts.1

theorem not_asksFor (other : request.action ≠ "CONN") (space : String) (key : LinkKey) :
    ¬ AsksFor request space key := fun asks => other asks.1

/-- A request that changes no link and that nobody can take for one that does. -/
theorem shifts_same {succeeded : Bool} (inStep : s'.InStep) (sameKeys : s'.keys = s.keys)
    (sameSpace : s.links ≠ [] → s'.space = s.space)
    (opened : succeeded = true → ∀ space key, AsksFor request space key →
      key ∈ s.keys ∧ s'.space = some space)
    (shut : ∀ key, Shuts request key → key ∉ s.keys) : Shifts request succeeded s s' where
  inStep := inStep
  opened := sameKeys ▸ opened
  shut := sameKeys ▸ shut
  kept _ member _ := sameKeys ▸ member
  origin _ member := Or.inl (sameKeys ▸ member)
  space present _ := sameSpace present

/-- So is a request that fails, if it does not ask to close a link that there is. -/
theorem shifts_failed (inStep : s.InStep) (shut : ∀ key, Shuts request key → key ∉ s.keys) :
    Shifts request false s s :=
  shifts_same inStep rfl (fun _ => rfl) nofun shut

/-- A call fails and leaves the session as it is, or unusable. -/
theorem shifts_noting (inStep : s.InStep) (shut : ∀ key, Shuts request key → key ∉ s.keys)
    (e : Backend.Error) : Shifts request false s (s.noting e) :=
  shifts_same (inStep.noting e) (noting_keys s e) (fun _ => noting_space s e) nofun shut

/-- An action shifts links by what it says, and finds the connection that it needs. -/
def Steady (request : Request) (action : Action Session) : Prop :=
  ∀ moment s, s.InStep → (action moment request s).Ends fun result =>
    Shifts request result.1.isOk s result.2 ∧ result.1 ≠ .error .notConnected

theorem hello_steady (named : request.action = "HELLO") : Steady request hello := by
  intro moment s inStep
  have other : request.action ≠ "CONN" ∧ request.action ≠ "DISC" := by
    rw [named]
    decide
  refine ⟨shifts_same inStep rfl (fun _ => rfl) ?_ ?_, nofun⟩
  · exact fun _ space key asks => absurd asks (not_asksFor other.1 space key)
  · exact fun key shuts => absurd shuts (not_shuts other.2 key)

/-! ### Opening -/

theorem InStep.addLink {plan : ConnectPlan} (inStep : s.InStep)
    (planned : connectPlan request = .ok plan) (held : s.connection.isSome = true)
    (fresh : plan.key ∉ s.keys) : (s.addLink plan).2.InStep where
  bound := inStep.bound
  connected _ := held
  distinct := by
    have keys : (s.addLink plan).2.keys = s.keys ++ [plan.key] := List.map_append
    rw [keys]
    refine List.Nodup.append inStep.distinct (List.nodup_singleton _) ?_
    exact List.disjoint_singleton.mpr fresh
  destinations key link member := by
    rcases List.mem_append.mp member with old | new
    · exact inStep.destinations key link old
    · cases List.mem_singleton.mp new
      exact (connectPlan_eq_ok planned).2.2

/-- Opens a link on a connection that is new or that `s` had before. -/
theorem openLink_shifts (named : request.action = "CONN") {plan : ConnectPlan}
    (planned : connectPlan request = .ok plan) (connection : Connection) (inStep : s'.InStep)
    (sameKeys : s'.keys = s.keys) (sameSpace : s.links ≠ [] → s'.space = s.space)
    (held : s'.connection.isSome = true) (leads : s'.space = some plan.url.space)
    (fresh : plan.key ∉ s'.keys) :
    (s'.openLink connection plan).Ends fun result =>
      Shifts request result.1.isOk s result.2 ∧ result.1 ≠ .error .notConnected := by
  have unshut (key : LinkKey) : ¬ Shuts request key := not_shuts (by rw [named]; decide) key
  have entered : Shifts request true s (s'.addLink plan).2 := by
    have keys : (s'.addLink plan).2.keys = s.keys ++ [plan.key] := by
      rw [← sameKeys]
      exact List.map_append
    constructor
    case inStep => exact inStep.addLink planned held fresh
    case opened =>
      intro _ space key asks
      obtain ⟨rfl, rfl⟩ := asks.eq planned
      rw [keys]
      exact ⟨List.mem_append_right _ (List.mem_singleton.mpr rfl), leads⟩
    case shut => exact fun key shuts => absurd shuts (unshut key)
    case kept =>
      intro key member _
      rw [keys]
      exact List.mem_append_left _ member
    case origin =>
      intro key member
      rw [keys] at member
      rcases List.mem_append.mp member with old | new
      · exact Or.inl old
      · have same := List.mem_singleton.mp new
        exact Or.inr ⟨rfl, plan.url.space, named, plan, planned, rfl, same.symm⟩
    case space => exact fun present _ => sameSpace present
  unfold openLink
  split
  · exact ⟨entered, nofun⟩
  · intro answer
    cases answer with
    | ok _ => exact ⟨entered, nofun⟩
    | error e =>
      refine ⟨shifts_same (inStep.noting e) ?_ ?_ nofun ?_, nofun⟩
      · rw [noting_keys, sameKeys]
      · rw [noting_space]
        exact sameSpace
      · exact fun key shuts => absurd shuts (unshut key)

theorem bind_ne {ε α β : Type} {x : Except ε α} {f : α → Except ε β} {e : ε} (first : x ≠ .error e)
    (rest : ∀ a, f a ≠ .error e) : x >>= f ≠ .error e := by
  cases x with
  | ok a => exact rest a
  | error other =>
    rintro ⟨⟩
    exact first rfl

theorem endpointOf_ne_notConnected : endpointOf request ≠ .error .notConnected := by
  unfold endpointOf Endpoint.parse
  split
  · nofun
  · split <;> nofun

theorem directionOf_ne_notConnected : directionOf request ≠ .error .notConnected := by
  unfold directionOf
  split <;> nofun

theorem messageWait_ne_notConnected (wait : Wait) :
    messageWait request wait ≠ .error .notConnected := by
  unfold messageWait
  split
  · nofun
  · nofun
  · split
    · nofun
    · split <;> nofun

theorem connectPlan_ne_notConnected : connectPlan request ≠ .error .notConnected := by
  unfold connectPlan
  split
  · refine bind_ne nofun fun raw => bind_ne ?_ fun url => bind_ne endpointOf_ne_notConnected
      fun endpoint => bind_ne directionOf_ne_notConnected fun direction => bind_ne ?_
        fun destination => bind_ne (messageWait_ne_notConnected 0) nofun
    · unfold Url.parse
      split <;> nofun
    · unfold Endpoint.destination
      split <;> nofun
  · nofun

theorem connect_steady (named : request.action = "CONN") : Steady request connect := by
  intro moment s inStep
  have unshut (key : LinkKey) : ¬ Shuts request key := not_shuts (by rw [named]; decide) key
  have shut (key : LinkKey) (shuts : Shuts request key) : key ∉ s.keys :=
    absurd shuts (unshut key)
  unfold connect
  split
  · next e failed =>
    refine ⟨shifts_failed inStep shut, ?_⟩
    rintro ⟨⟩
    exact connectPlan_ne_notConnected failed
  · next plan planned =>
    dsimp only
    split
    · exact ⟨shifts_failed inStep shut, nofun⟩
    · next here =>
      -- the session is bound to the namespace of the plan or to none
      have leads (known : s.space.isSome = true) : s.space = some plan.url.space := by
        obtain ⟨space, same⟩ := Option.isSome_iff_exists.mp known
        rw [same] at here ⊢
        simpa using here
      split
      · next reused =>
        obtain ⟨link, found⟩ := Option.isSome_iff_exists.mp reused
        have member : plan.key ∈ s.keys := mem_keys.mpr ⟨link, mem_of_link? found⟩
        have held : s.connection.isSome = true :=
          inStep.connected fun none => by simp [keys, none] at member
        refine ⟨shifts_same inStep rfl (fun _ => rfl) ?_ shut, nofun⟩
        intro _ space key asks
        obtain ⟨rfl, rfl⟩ := asks.eq planned
        exact ⟨member, leads (inStep.bound.trans held)⟩
      · next unused =>
        have fresh : plan.key ∉ s.keys :=
          not_mem_keys_of_link? (Option.not_isSome_iff_eq_none.mp unused)
        split
        · next connection held =>
          have known : s.connection.isSome = true := Option.isSome_of_eq_some held
          exact openLink_shifts named planned connection inStep rfl (fun _ => rfl) known
            (leads (inStep.bound.trans known)) fresh
        · next unheld =>
          have noLinks : s.links = [] := by
            by_contra present
            have held := inStep.connected present
            rw [unheld] at held
            cases held
          intro answer
          cases answer with
          | ok connection =>
            refine openLink_shifts named planned connection ?_ rfl ?_ rfl rfl fresh
            · exact ⟨rfl, fun _ => rfl, inStep.distinct, inStep.destinations⟩
            · exact absurd noLinks
          | error e => exact ⟨shifts_noting inStep shut e, nofun⟩

/-! ### Closing -/

/-- A link is closed that is not the last one. -/
theorem InStep.closeLink (inStep : s.InStep) {links : List (LinkKey × Link)}
    (fewer : links.Sublist s.links) (present : s.links ≠ []) :
    InStep { s with links := links } where
  bound := inStep.bound
  connected _ := inStep.connected present
  distinct := inStep.distinct.sublist (fewer.map Prod.fst)
  destinations key link member := inStep.destinations key link (fewer.subset member)

/-- The links without those of a key are links of all other keys. -/
theorem mem_keys_filter {key other : LinkKey} :
    other ∈ (s.links.filter fun (k, _) => k != key).map Prod.fst ↔
      other ∈ s.keys ∧ other ≠ key := by
  simp only [keys, List.mem_map, List.mem_filter, bne_iff_ne, ne_eq]
  constructor
  · rintro ⟨entry, ⟨member, different⟩, rfl⟩
    exact ⟨⟨entry, member, rfl⟩, different⟩
  · rintro ⟨⟨entry, member, rfl⟩, different⟩
    exact ⟨entry, ⟨member, different⟩, rfl⟩

/-- What closing a link does, whether or not others are left. -/
theorem shifts_closed (named : request.action = "DISC") {succeeded : Bool} {key : LinkKey}
    (asked : keyOf request = .ok key) (inStep : s'.InStep)
    (left : s'.keys = (s.links.filter fun (k, _) => k != key).map Prod.fst)
    (sameSpace : s'.links ≠ [] → s'.space = s.space) : Shifts request succeeded s s' where
  inStep := inStep
  opened _ space other asks := absurd asks (not_asksFor (by rw [named]; decide) space other)
  shut other shuts := by
    cases asked.symm.trans shuts.2
    rw [left, mem_keys_filter]
    exact fun still => still.2 rfl
  kept other member unshut := by
    rw [left, mem_keys_filter]
    exact ⟨member, fun same => unshut (same ▸ ⟨named, asked⟩)⟩
  origin other member := by
    rw [left, mem_keys_filter] at member
    exact Or.inl member.1
  space _ present := sameSpace present

theorem keyOf_ne_notConnected : keyOf request ≠ .error .notConnected :=
  bind_ne endpointOf_ne_notConnected fun _ => bind_ne directionOf_ne_notConnected nofun

theorem link_ne_notConnected (s : Session) (key : LinkKey) : s.link key ≠ .error .notConnected := by
  unfold link
  split <;> nofun

theorem link?_of_link_eq_error {key : LinkKey} {e : Error} (h : s.link key = .error e) :
    s.link? key = none := by
  unfold link at h
  split at h
  · cases h
  · next missing => exact missing

theorem disconnect_steady (named : request.action = "DISC") : Steady request disconnect := by
  intro moment s inStep
  unfold disconnect
  split
  · next e failed =>
    have unshut (key : LinkKey) : ¬ Shuts request key := by
      rintro ⟨-, asked⟩
      cases failed.symm.trans asked
    refine ⟨shifts_failed inStep fun key shuts => absurd shuts (unshut key), ?_⟩
    rintro ⟨⟩
    exact keyOf_ne_notConnected failed
  · next key asked =>
    split
    · next e failed =>
      refine ⟨shifts_failed inStep ?_, ?_⟩
      · rintro other ⟨-, also⟩
        cases asked.symm.trans also
        exact not_mem_keys_of_link? (link?_of_link_eq_error failed)
      · rintro ⟨⟩
        exact link_ne_notConnected s key failed
    · next link found =>
      have present : s.links ≠ [] := List.ne_nil_of_mem (mem_of_link found)
      dsimp only
      split
      · exact ⟨shifts_closed named asked (inStep.closeLink List.filter_sublist present) rfl
          fun _ => rfl, nofun⟩
      · next last =>
        have none : s.links.filter (fun (k, _) => k != key) = [] := by simpa using last
        have freed (usable : Bool) (succeeded : Bool) :
            Shifts request succeeded s ⟨s.worker, .none, .none, [], usable⟩ :=
          shifts_closed named asked (inStep_empty s.worker usable)
            (congrArg (List.map Prod.fst) none).symm (absurd rfl)
        split
        · exact ⟨freed s.usable true, nofun⟩
        · intro answer
          cases answer with
          | ok _ => exact ⟨freed s.usable true, nofun⟩
          | error e =>
            obtain ⟨usable, same⟩ :=
              noting_eq { s with links := [], space := .none, connection := .none } e
            refine ⟨?_, nofun⟩
            rw [same]
            exact freed usable false

/-! ### Sending and receiving -/

/-- The call of a request that sends: a message on the session's own connection, along its own
sender link for the endpoint that the request names. -/
def SendsOn (s : Session) (request : Request) (c : Call) : Prop :=
  ∃ endpoint link connection body, endpointOf request = .ok endpoint ∧
    (⟨.sender, endpoint⟩, link) ∈ s.links ∧ s.connection = some connection ∧
    payloadBytes request = .ok body ∧ c = .put connection link.destination body

/-- The call of a request that receives, along the receiver link for its endpoint. -/
def ReceivesOn (s : Session) (request : Request) (c : Call) : Prop :=
  ∃ endpoint link connection wait, endpointOf request = .ok endpoint ∧
    (⟨.receiver, endpoint⟩, link) ∈ s.links ∧ s.connection = some connection ∧
    c = .get connection link.destination wait

/-- A session with a link has a connection. -/
theorem InStep.connection_ne_none (inStep : s.InStep) {key : LinkKey} {link : Link}
    (member : (key, link) ∈ s.links) : s.connection ≠ none := by
  intro unheld
  have held := inStep.connected (List.ne_nil_of_mem member)
  rw [unheld] at held
  cases held

theorem sendPlan_ne_notConnected : s.sendPlan request ≠ .error .notConnected := by
  unfold sendPlan
  refine bind_ne endpointOf_ne_notConnected fun endpoint =>
    bind_ne (link_ne_notConnected s _) fun link => bind_ne ?_ nofun
  unfold payloadBytes
  split <;> nofun

theorem receivePlan_ne_notConnected : s.receivePlan request ≠ .error .notConnected := by
  unfold receivePlan
  refine bind_ne ?_ fun _ => bind_ne endpointOf_ne_notConnected fun endpoint =>
    bind_ne (link_ne_notConnected s _) fun link =>
      bind_ne (messageWait_ne_notConnected _) nofun
  unfold ensureNoPayload
  split <;> nofun

theorem send_steady (named : request.action = "SEND") : Steady request send := by
  intro moment s inStep
  have shut (key : LinkKey) (shuts : Shuts request key) : key ∉ s.keys :=
    absurd shuts (not_shuts (by rw [named]; decide) key)
  have unopened (succeeded : Bool) : Shifts request succeeded s s :=
    shifts_same inStep rfl (fun _ => rfl)
      (fun _ space key asks => absurd asks (not_asksFor (by rw [named]; decide) space key)) shut
  unfold send
  split
  · next e failed =>
    refine ⟨unopened false, ?_⟩
    rintro ⟨⟩
    exact sendPlan_ne_notConnected failed
  · next planned unheld =>
    obtain ⟨-, -, link, member, -⟩ := sendPlan_eq_ok planned
    exact absurd unheld (inStep.connection_ne_none member)
  · intro answer
    cases answer with
    | ok id => exact ⟨unopened true, nofun⟩
    | error e => exact ⟨shifts_noting inStep shut e, nofun⟩

theorem receive_steady (named : request.action = "RECEIVE") : Steady request receive := by
  intro moment s inStep
  have shut (key : LinkKey) (shuts : Shuts request key) : key ∉ s.keys :=
    absurd shuts (not_shuts (by rw [named]; decide) key)
  have unopened (succeeded : Bool) : Shifts request succeeded s s :=
    shifts_same inStep rfl (fun _ => rfl)
      (fun _ space key asks => absurd asks (not_asksFor (by rw [named]; decide) space key)) shut
  unfold receive
  split
  · next e failed =>
    refine ⟨unopened false, ?_⟩
    rintro ⟨⟩
    exact receivePlan_ne_notConnected failed
  · next planned unheld =>
    obtain ⟨-, link, member, -⟩ := receivePlan_eq_ok planned
    exact absurd unheld (inStep.connection_ne_none member)
  · intro answer
    cases answer with
    | ok message? =>
      cases message? with
      | none => exact ⟨unopened _, nofun⟩
      | some message => exact ⟨unopened _, nofun⟩
    | error e => exact ⟨shifts_noting inStep shut e, nofun⟩

theorem send_calls (moment : Moment) (s : Session) :
    (send moment request s).EndsAfter fun heard _ => ∀ x ∈ heard, SendsOn s request x.call := by
  unfold send
  split
  · exact nofun
  · exact nofun
  · next endpoint destination body connection planned held =>
    obtain ⟨named, given, link, member, rfl⟩ := sendPlan_eq_ok planned
    have own : SendsOn s request (.put connection link.destination body) :=
      ⟨endpoint, link, connection, body, named, member, held, given, rfl⟩
    intro answer
    cases answer with
    | ok id => exact List.forall_mem_singleton.mpr own
    | error e => exact List.forall_mem_singleton.mpr own

theorem receive_calls (moment : Moment) (s : Session) :
    (receive moment request s).EndsAfter fun heard _ =>
      ∀ x ∈ heard, ReceivesOn s request x.call := by
  unfold receive
  split
  · exact nofun
  · exact nofun
  · next endpoint destination wait connection planned held =>
    obtain ⟨named, link, member, rfl⟩ := receivePlan_eq_ok planned
    have own : ReceivesOn s request (.get connection link.destination wait) :=
      ⟨endpoint, link, connection, wait, named, member, held, rfl⟩
    intro answer
    cases answer with
    | ok message? => exact List.forall_mem_singleton.mpr own
    | error e => exact List.forall_mem_singleton.mpr own

/-! ### Requests and runs -/

theorem actions_steady {action : Action Session}
    (found : actions.get? request.action = some action) : Steady request action := by
  have member := ActionTable.mem_of_get?_ofList found
  simp only [List.mem_cons, List.not_mem_nil, or_false, Prod.mk.injEq] at member
  rcases member with ⟨named, rfl⟩ | ⟨named, rfl⟩ | ⟨named, rfl⟩ | ⟨named, rfl⟩ | ⟨named, rfl⟩
  · exact hello_steady named
  · exact connect_steady named
  · exact disconnect_steady named
  · exact send_steady named
  · exact receive_steady named

theorem handle_shifts (moment : Moment) (request : Request) (inStep : s.InStep) :
    (Service.handle moment request s).Ends fun result =>
      Shifts request result.1.success s result.2 := by
  have handle : Service.handle moment request s = respond actions s.worker moment request s := rfl
  rw [handle, respond]
  split
  · next unknown =>
    have other (name : String) (known : (actions.get? name).isSome = true) :
        request.action ≠ name := by
      rintro rfl
      rw [unknown] at known
      cases known
    refine Eq.subst (motive := fun succeeded => Shifts request succeeded s s)
      (finished_success moment request _).symm ?_
    exact shifts_failed inStep fun key shuts => absurd shuts (not_shuts (other "DISC" rfl) key)
  · next action found =>
    rw [Dialog.ends_map]
    refine Dialog.Ends.imp ?_ (actions_steady found moment s inStep)
    intro result shifts
    rw [finished_success, responseOf_success]
    exact shifts.1

/-- A request for the named action runs that action or, if there is none, nothing. -/
theorem handle_calls {P : Call → Prop} {name : String} {action : Action Session}
    (known : actions.get? name = some action) (moment : Moment) (request : Request)
    (named : request.action = name)
    (calls : (action moment request s).EndsAfter fun heard _ => ∀ x ∈ heard, P x.call) :
    (Service.handle moment request s).EndsAfter fun heard _ => ∀ x ∈ heard, P x.call := by
  have handle : Service.handle moment request s = respond actions s.worker moment request s := rfl
  rw [handle, respond, named, known]
  exact Dialog.endsAfter_map.mpr calls

end Session

/-- The links of a session are those that stand open by its log, and they lead to its namespace. -/
structure Tracks (log : List Handled) (s : Session) : Prop where
  inStep : s.InStep
  standing : ∀ key, key ∈ s.keys ↔ ∃ space, StandsOpen log space key
  current : ∀ space key, StandsOpen log space key → s.space = some space

theorem tracks_new (worker : String) : Tracks [] (.new worker) where
  inStep := Session.inStep_empty worker true
  standing key := ⟨nofun, fun ⟨space, stands⟩ => absurd stands (not_standsOpen_nil space key)⟩
  current space key stands := absurd stands (not_standsOpen_nil space key)

theorem Tracks.step {log : List Handled} {s s' : Session} (tracks : Tracks log s) (last : Handled)
    (shifts : s.Shifts last.request last.response.success s') : Tracks (last :: log) s' where
  inStep := shifts.inStep
  standing key := by
    constructor
    · intro member
      rcases shifts.origin key member with old | ⟨succeeded, space, asked⟩
      · obtain ⟨space, stands⟩ := (tracks.standing key).mp old
        have unshut : ¬ Shuts last.request key := fun shuts => shifts.shut key shuts member
        exact ⟨space, standsOpen_cons.mpr (Or.inr ⟨stands, unshut⟩)⟩
      · exact ⟨space, standsOpen_cons.mpr (Or.inl ⟨succeeded, asked⟩)⟩
    · rintro ⟨space, stands⟩
      rcases standsOpen_cons.mp stands with ⟨succeeded, asked⟩ | ⟨stood, unshut⟩
      · exact (shifts.opened succeeded space key asked).1
      · exact shifts.kept key ((tracks.standing key).mpr ⟨space, stood⟩) unshut
  current space key stands := by
    rcases standsOpen_cons.mp stands with ⟨succeeded, asked⟩ | ⟨stood, unshut⟩
    · exact (shifts.opened succeeded space key asked).2
    · -- the link was there before and is there still, so the namespace has not changed
      have before : key ∈ s.keys := (tracks.standing key).mpr ⟨space, stood⟩
      have after : key ∈ s'.keys := shifts.kept key before unshut
      rw [shifts.space (List.ne_nil_of_mem (Session.mem_keys.mp before).choose_spec)
        (List.ne_nil_of_mem (Session.mem_keys.mp after).choose_spec)]
      exact tracks.current space key stood

theorem Reaches.tracks {worker : String} {log : List Handled} {s : Session}
    (reached : Reaches worker log s) : Tracks log s := by
  induction reached with
  | new => exact tracks_new worker
  | handle earlier moment given ih =>
    exact ih.step _ ((Session.handle_shifts moment _ ih.inStep).endsAfter.gives given)

/-- What holds of the links of a session that has handled the requests of a log. -/
structure LinkTable (log : List Handled) (s : Session) : Prop where
  bound : s.space.isSome = s.connection.isSome
  connected : s.links ≠ [] → s.connection.isSome = true
  distinct : s.keys.Nodup
  standing : ∀ key, key ∈ s.keys ↔ ∃ space, StandsOpen log space key
  current : ∀ space key, StandsOpen log space key → s.space = some space
  destinations : ∀ key link, (key, link) ∈ s.links →
    key.endpoint.destination key.direction = .ok link.destination
  attached : ∀ moment request action, Session.actions.get? request.action = some action →
    (action moment request s).Ends fun result => result.1 ≠ .error .notConnected
  sends : ∀ moment request, request.action = "SEND" →
    (Service.handle moment request s).EndsAfter fun heard _ =>
      ∀ x ∈ heard, s.SendsOn request x.call
  receives : ∀ moment request, request.action = "RECEIVE" →
    (Service.handle moment request s).EndsAfter fun heard _ =>
      ∀ x ∈ heard, s.ReceivesOn request x.call
  closed : (Service.close s).Ends fun freed =>
    freed.links = [] ∧ freed.space = none ∧ freed.connection = none

/-- Whatever requests a session has handled and however its calls were answered, its links are those
that were opened and not closed since, all to the namespace that it is connected to, and messages
go along them only. -/
theorem links_stand_open {worker : String} {log : List Handled} {s : Session}
    (reached : Reaches worker log s) : LinkTable log s where
  bound := reached.tracks.inStep.bound
  connected := reached.tracks.inStep.connected
  distinct := reached.tracks.inStep.distinct
  standing := reached.tracks.standing
  current := reached.tracks.current
  destinations := reached.tracks.inStep.destinations
  attached moment _ _ found :=
    (Session.actions_steady found moment s reached.tracks.inStep).imp fun _ steady => steady.2
  sends moment request named :=
    Session.handle_calls rfl moment request named (Session.send_calls moment s)
  receives moment request named :=
    Session.handle_calls rfl moment request named (Session.receive_calls moment s)
  closed := by
    change (Session.close s).Ends _
    unfold Session.close
    split
    · exact ⟨rfl, rfl, rfl⟩
    · exact fun _ => ⟨rfl, rfl, rfl⟩

/-- A session that has opened two links, closed one of them and sent along the other. -/
theorem one_link_stands_open : ∃ log s, Reaches "one" log s ∧
    log.map (fun handled => (handled.request.action, handled.response.success)) =
      [("SEND", true), ("DISC", true), ("CONN", true), ("CONN", true)] ∧
    s.keys = [⟨.sender, .queue "q"⟩] ∧ LinkTable log s := by
  have moves (m : Memory) (request : Request) (s : Session) :
      ∃ heard, (Service.handle ⟨0, 0⟩ request s).Gives heard
        ((Service.handle ⟨0, 0⟩ request s).run Memory.answer m).1 :=
    Dialog.exists_gives_run Memory.answer _ m
  let opened : Memory := { Memory.empty with links := [⟨"ns", true⟩] }
  obtain ⟨_, first⟩ := moves .empty (busRequest "CONN" "queue:q" "sender" none) (.new "one")
  obtain ⟨_, second⟩ := moves opened (busRequest "CONN" "queue:q" "receiver" none) _
  obtain ⟨_, third⟩ := moves opened (busRequest "DISC" "queue:q" "receiver" none) _
  obtain ⟨_, fourth⟩ := moves opened (busRequest "SEND" "queue:q" "sender" (some (.string "x"))) _
  have before := Reaches.handle (.handle (.handle .new _ first) _ second) _ third
  have reached := before.handle _ fourth
  exact ⟨_, _, reached, rfl, rfl, links_stand_open reached⟩

end SessionRelay.ServiceBus
