import SessionRelay.Proofs.Integration.Answers
import SessionRelay.Proofs.Text.Split
import SessionRelay.ServiceBus.Session

/-!
Endpoints and the texts that name them. A text lists names of kinds between commas, and of each kind
the last name counts. Blanks around kinds and names, the order of the parts and names that are given
again are lost when it is read, so that an endpoint has many texts. What it is shown as is one of
them, and a session does the same for a request whichever of them it holds.
-/

namespace SessionRelay.ServiceBus

open Integration Wire
open Backend hiding Error

namespace Endpoint

/-- What a part of a text can give the name of. -/
inductive Kind where
  | queue
  | topic
  | subscription
  deriving DecidableEq, Repr

def Kind.text : Kind → String
  | .queue => "queue"
  | .topic => "topic"
  | .subscription => "subscription"

/-- The part gives the kind the name: they stand on both sides of its first colon, with blanks
around them. -/
def Names (part : List Char) (kind : Kind) (name : String) : Prop :=
  ∃ before after, part = before ++ ':' :: after ∧ ':' ∉ before ∧
    Text.trimBlank before = kind.text.toList ∧ Text.trimBlank after = name.toList ∧ name ≠ ""

/-- The text gives names of kinds, in this order, in the parts between its commas. -/
def Lists (raw : String) (named : List (Kind × String)) : Prop :=
  ∃ parts, parts ≠ [] ∧ raw.toList = [','].intercalate parts ∧ (∀ part ∈ parts, ',' ∉ part) ∧
    List.Forall₂ (fun part entry => Names part entry.1 entry.2) parts named

/-- The name that is given last to a kind. -/
def lastName? (kind : Kind) (named : List (Kind × String)) : Option String :=
  ((named.filter fun entry => entry.1 = kind).getLast?).map Prod.snd

/-- The names are those of a queue alone, or of a topic and no queue. -/
inductive Denotes (named : List (Kind × String)) : Endpoint → Prop
  | queue {name : String} (queue : lastName? .queue named = some name)
      (topic : lastName? .topic named = none)
      (subscription : lastName? .subscription named = none) : Denotes named (.queue name)
  | topic {name : String} (queue : lastName? .queue named = none)
      (topic : lastName? .topic named = some name) :
      Denotes named (.topic name (lastName? .subscription named))

/-! ### Reading -/

namespace Parts

def get? (p : Parts) : Kind → Option String
  | .queue => p.queue
  | .topic => p.topic
  | .subscription => p.subscription

def set (p : Parts) (kind : Kind) (name : String) : Parts :=
  match kind with
  | .queue => { p with queue := some name }
  | .topic => { p with topic := some name }
  | .subscription => { p with subscription := some name }

def setAll (p : Parts) (named : List (Kind × String)) : Parts :=
  named.foldl (fun p entry => p.set entry.1 entry.2) p

theorem get?_set (p : Parts) (kind kind' : Kind) (name : String) :
    (p.set kind name).get? kind' = if kind = kind' then some name else p.get? kind' := by
  cases kind <;> cases kind' <;> simp [set, get?]

theorem lastName?_cons (kind : Kind) (entry : Kind × String) (rest : List (Kind × String)) :
    lastName? kind (entry :: rest) =
      (lastName? kind rest).or (if entry.1 = kind then some entry.2 else none) := by
  by_cases same : entry.1 = kind
  · cases last : (rest.filter fun entry => entry.1 = kind).getLast? <;>
      simp [lastName?, List.getLast?_cons, same, last]
  · simp [lastName?, same]

/-- A name of each kind is that which is given to it last, or else that which it had. -/
theorem get?_setAll (p : Parts) (named : List (Kind × String)) (kind : Kind) :
    (p.setAll named).get? kind = (lastName? kind named).or (p.get? kind) := by
  induction named generalizing p with
  | nil => simp [setAll, lastName?]
  | cons entry rest ih =>
    have step : p.setAll (entry :: rest) = (p.set entry.1 entry.2).setAll rest := rfl
    rw [step, ih, get?_set, lastName?_cons]
    by_cases same : entry.1 = kind <;> cases lastName? kind rest <;> simp [same]

theorem take_eq_ok {p p' : Parts} {part : List Char} :
    p.take part = .ok p' ↔ ∃ kind name, Names part kind name ∧ p' = p.set kind name := by
  constructor
  · intro taken
    unfold take at taken
    split at taken
    · cases taken
    · next before after cut =>
      obtain ⟨rfl, free⟩ := Text.cut?_eq_some.mp cut
      dsimp only at taken
      split at taken
      · cases taken
      · next filled =>
        have some : String.ofList (Text.trimBlank after) ≠ "" := by simpa using filled
        have names {kind : Kind} (written : String.ofList (Text.trimBlank before) = kind.text) :
            Names (before ++ ':' :: after) kind (String.ofList (Text.trimBlank after)) :=
          ⟨before, after, rfl, free, by simp [← written], by simp, some⟩
        split at taken
        · next queue =>
          cases taken
          exact ⟨.queue, _, names queue, rfl⟩
        · next topic =>
          cases taken
          exact ⟨.topic, _, names topic, rfl⟩
        · next subscription =>
          cases taken
          exact ⟨.subscription, _, names subscription, rfl⟩
        · cases taken
  · rintro ⟨kind, name, ⟨before, after, rfl, free, kindly, namely, some⟩, rfl⟩
    rw [take, Text.cut?_append free]
    cases kind <;> simp [kindly, namely, some, Kind.text, set]

theorem takeAll_eq_ok {p p' : Parts} {parts : List (List Char)} :
    p.takeAll parts = .ok p' ↔ ∃ named,
      List.Forall₂ (fun part entry => Names part entry.1 entry.2) parts named ∧
        p' = p.setAll named := by
  induction parts generalizing p with
  | nil =>
    constructor
    · intro taken
      cases taken
      exact ⟨[], .nil, rfl⟩
    · rintro ⟨named, names, rfl⟩
      cases names
      rfl
  | cons part rest ih =>
    constructor
    · intro taken
      unfold takeAll at taken
      split at taken
      · next q first =>
        obtain ⟨kind, name, names, rfl⟩ := take_eq_ok.mp first
        obtain ⟨named, later, rfl⟩ := ih.mp taken
        exact ⟨(kind, name) :: named, .cons names later, rfl⟩
      · cases taken
    · rintro ⟨named, names, rfl⟩
      cases names with
      | cons first later =>
        rw [takeAll, take_eq_ok.mpr ⟨_, _, first, rfl⟩]
        exact ih.mpr ⟨_, later, rfl⟩

theorem endpoint_eq_ok {p : Parts} {e : Endpoint} {named : List (Kind × String)}
    (same : ∀ kind, p.get? kind = lastName? kind named) :
    p.endpoint = .ok e ↔ Denotes named e := by
  have queue : p.queue = _ := same .queue
  have topic : p.topic = _ := same .topic
  have subscription : p.subscription = _ := same .subscription
  obtain ⟨_, _, _⟩ := p
  subst queue topic subscription
  constructor
  · intro read
    unfold endpoint at read
    split at read
    · next name fields =>
      cases read
      obtain ⟨queue, topic, subscription⟩ := Parts.mk.inj fields
      exact .queue queue topic subscription
    · next name subscription fields =>
      cases read
      obtain ⟨queue, topic, rfl⟩ := Parts.mk.inj fields
      exact .topic queue topic
    · cases read
  · rintro (⟨queue, topic, subscription⟩ | ⟨queue, topic⟩)
    · simp [endpoint, queue, topic, subscription]
    · simp [endpoint, queue, topic]

end Parts

theorem check_eq_ok {raw : String} {e : Endpoint} :
    check raw.toList = .ok e ↔ ∃ named, Lists raw named ∧ Denotes named e := by
  have fresh (named : List (Kind × String)) (kind : Kind) :
      (Parts.setAll ⟨none, none, none⟩ named).get? kind = lastName? kind named := by
    rw [Parts.get?_setAll]
    cases kind <;> exact Option.or_none
  constructor
  · intro read
    unfold check at read
    split at read
    · next p taken =>
      obtain ⟨named, names, rfl⟩ := Parts.takeAll_eq_ok.mp taken
      refine ⟨named, ⟨_, Text.pieces_ne_nil ',' raw.toList, ?_, ?_, names⟩, ?_⟩
      · rw [Text.intercalate_pieces]
      · exact fun part member => Text.not_mem_of_mem_pieces member
      · exact (Parts.endpoint_eq_ok (fresh named)).mp read
    · cases read
  · rintro ⟨named, ⟨parts, some, whole, free, names⟩, denotes⟩
    rw [check, whole, Text.pieces_intercalate some free,
      Parts.takeAll_eq_ok.mpr ⟨named, names, rfl⟩]
    exact (Parts.endpoint_eq_ok (fresh named)).mpr denotes

theorem parse_eq_ok {raw : String} {e : Endpoint} :
    parse raw = .ok e ↔ ∃ named, Lists raw named ∧ Denotes named e := by
  rw [← check_eq_ok, parse]
  cases check raw.toList <;> simp

/-! ### The normal form -/

/-- A name as it is when it has been read. -/
structure Clean (name : String) : Prop where
  some : name ≠ ""
  trimmed : Text.trimBlank name.toList = name.toList
  whole : ',' ∉ name.toList

theorem Names.clean {part : List Char} {kind : Kind} {name : String} (names : Names part kind name)
    (free : ',' ∉ part) : Clean name := by
  obtain ⟨before, after, rfl, -, -, trimmed, some⟩ := names
  refine ⟨some, ?_, ?_⟩
  · rw [← trimmed, Text.trimBlank_trimBlank]
  · intro member
    rw [← trimmed] at member
    exact free (by simp [Text.trimBlank_subset after member])

theorem Lists.clean {raw : String} {named : List (Kind × String)} (lists : Lists raw named) :
    ∀ entry ∈ named, Clean entry.2 := by
  obtain ⟨parts, -, -, free, names⟩ := lists
  induction names with
  | nil => simp
  | cons first later ih =>
    obtain ⟨here, there⟩ := List.forall_mem_cons.mp free
    exact List.forall_mem_cons.mpr ⟨first.clean here, ih there⟩

/-- The names that an endpoint is shown with. -/
def named : Endpoint → List (Kind × String)
  | .queue name => [(.queue, name)]
  | .topic name none => [(.topic, name)]
  | .topic name (some subscription) => [(.topic, name), (.subscription, subscription)]

theorem denotes_named (e : Endpoint) : Denotes e.named e := by
  rcases e with name | ⟨name, _ | subscription⟩
  · exact .queue rfl rfl rfl
  · exact .topic rfl rfl
  · exact .topic rfl rfl

theorem names_text (kind : Kind) {name : String} (clean : Clean name) :
    Names (kind.text.toList ++ ':' :: name.toList) kind name := by
  refine ⟨_, _, rfl, ?_, ?_, clean.trimmed, clean.some⟩ <;> cases kind <;> decide

/-- A blank in front of a part does not count. -/
theorem Names.blank {part : List Char} {kind : Kind} {name : String}
    (names : Names part kind name) : Names (' ' :: part) kind name := by
  obtain ⟨before, after, rfl, free, kindly, namely, some⟩ := names
  refine ⟨' ' :: before, after, rfl, by simpa using free, ?_, namely, some⟩
  rw [← kindly]
  rfl

theorem lists_text {e : Endpoint} (clean : ∀ entry ∈ e.named, Clean entry.2) :
    Lists e.text e.named := by
  rcases e with name | ⟨name, _ | subscription⟩
  · have only : Clean name := clean (.queue, name) (by simp [named])
    refine ⟨[Kind.queue.text.toList ++ ':' :: name.toList], by simp, ?_, ?_,
      .cons (names_text .queue only) .nil⟩
    · simp [text, Kind.text, toString]
    · simp [Kind.text, only.whole]
  · have only : Clean name := clean (.topic, name) (by simp [named])
    refine ⟨[Kind.topic.text.toList ++ ':' :: name.toList], by simp, ?_, ?_,
      .cons (names_text .topic only) .nil⟩
    · simp [text, Kind.text, toString]
    · simp [Kind.text, only.whole]
  · have first : Clean name := clean (.topic, name) (by simp [named])
    have second : Clean subscription := clean (.subscription, subscription) (by simp [named])
    refine ⟨[Kind.topic.text.toList ++ ':' :: name.toList,
        ' ' :: (Kind.subscription.text.toList ++ ':' :: subscription.toList)], by simp, ?_, ?_,
      .cons (names_text .topic first) (.cons (names_text .subscription second).blank .nil)⟩
    · simp [text, Kind.text, toString]
    · simp [Kind.text, first.whole, second.whole]

theorem mem_of_lastName? {kind : Kind} {given : List (Kind × String)} {name : String}
    (last : lastName? kind given = some name) : (kind, name) ∈ given := by
  obtain ⟨⟨kind', name'⟩, found, rfl⟩ := Option.map_eq_some_iff.mp last
  obtain ⟨member, same⟩ := List.mem_filter.mp (List.mem_of_getLast? found)
  simpa [← of_decide_eq_true same] using member

theorem Denotes.named_subset {given : List (Kind × String)} {e : Endpoint}
    (denotes : Denotes given e) : e.named ⊆ given := by
  cases denotes with
  | queue queue topic subscription => simpa [named] using mem_of_lastName? queue
  | topic queue topic =>
    cases subscribed : lastName? .subscription given with
    | none => simpa [named] using mem_of_lastName? topic
    | some subscription =>
      simpa [named] using ⟨mem_of_lastName? topic, mem_of_lastName? subscribed⟩

theorem parse_text {raw : String} {e : Endpoint} (read : parse raw = .ok e) :
    parse e.text = .ok e := by
  obtain ⟨given, lists, denotes⟩ := parse_eq_ok.mp read
  have clean : ∀ entry ∈ e.named, Clean entry.2 :=
    fun entry member => lists.clean entry (denotes.named_subset member)
  exact parse_eq_ok.mpr ⟨e.named, lists_text clean, denotes_named e⟩

end Endpoint

/-! ### Requests -/

/-- The request with another text for its endpoint. -/
def naming (request : Request) (text : String) : Request :=
  { request with context := ⟨KeyTable.put "endpoint" (.string text) request.context.settings⟩ }

/-- A session takes nothing from the two requests that is not the same. -/
structure Alike (request request' : Request) : Prop where
  action : request'.action = request.action
  requestId : request'.requestId = request.requestId
  payload : request'.payload = request.payload
  url : request'.context.url? = request.context.url?
  endpoint : endpointOf request' = endpointOf request
  direction : directionOf request' = directionOf request
  messageWait : ∀ default, messageWait request' default = messageWait request default

theorem get?_naming {key : String} (other : key ≠ "endpoint") (request : Request) (text : String) :
    (naming request text).context.get? key = request.context.get? key :=
  KeyTable.value?_put_ne other _ _

theorem endpointOf_naming (request : Request) {text : String} {e : Endpoint}
    (read : Endpoint.parse text = .ok e) : endpointOf (naming request text) = .ok e := by
  have here : (naming request text).context.get? "endpoint" = some (.string text) :=
    KeyTable.value?_put_self _ _ _
  have filled : text ≠ "" := by
    rintro rfl
    cases read
  rw [endpointOf, Context.text?, here]
  simp [filled, read]

theorem naming_alike {request : Request} {text : String}
    (same : Endpoint.parse text = endpointOf request) {e : Endpoint}
    (asked : endpointOf request = .ok e) : Alike request (naming request text) where
  action := rfl
  requestId := rfl
  payload := rfl
  url := by rw [Context.url?, Context.url?, Context.text?, Context.text?, get?_naming (by decide)]
  endpoint := by rw [endpointOf_naming request (same.trans asked), asked]
  direction := by
    rw [directionOf, directionOf, Context.text?, Context.text?, get?_naming (by decide)]
  messageWait default := by
    rw [messageWait, messageWait, Context.number?, Context.number?, get?_naming (by decide)]

namespace Alike

open Session

variable {request request' : Request} (alike : Alike request request')

include alike

theorem keyOf_eq : keyOf request' = keyOf request := by
  rw [keyOf, keyOf, alike.endpoint, alike.direction]

theorem connectPlan_eq : connectPlan request' = connectPlan request := by
  rw [connectPlan, connectPlan, alike.url, alike.endpoint, alike.direction, alike.messageWait]

theorem sendPlan_eq (s : Session) : s.sendPlan request' = s.sendPlan request := by
  rw [sendPlan, sendPlan, alike.endpoint, payloadBytes, payloadBytes, alike.payload]

theorem receivePlan_eq (s : Session) : s.receivePlan request' = s.receivePlan request := by
  simp only [receivePlan, ensureNoPayload, alike.endpoint, alike.payload, alike.messageWait]

theorem action_eq {name : String} {action : Action Session}
    (found : actions.get? name = some action) (moment : Moment) (s : Session) :
    action moment request' s = action moment request s := by
  have member := ActionTable.mem_of_get?_ofList found
  simp only [List.mem_cons, Prod.mk.injEq, List.not_mem_nil, or_false] at member
  rcases member with ⟨-, rfl⟩ | ⟨-, rfl⟩ | ⟨-, rfl⟩ | ⟨-, rfl⟩ | ⟨-, rfl⟩
  · rfl
  · rw [connect, connect, alike.connectPlan_eq]
  · rw [disconnect, disconnect, alike.keyOf_eq]
  · rw [send, send, alike.sendPlan_eq, alike.payload]
  · rw [receive, receive, alike.receivePlan_eq]

theorem handle_eq (moment : Moment) (s : Session) :
    Service.handle moment request' s = Service.handle moment request s := by
  change respond actions s.worker moment request' s = respond actions s.worker moment request s
  unfold respond finished
  rw [alike.action, alike.requestId]
  split
  · rfl
  · next action found => rw [alike.action_eq found]

end Alike

/-- What an endpoint is shown as is read as that endpoint, so that it tells endpoints apart, and a
request that names its endpoint in this way is handled as it is: with the same link and the same
destination. A text is read just in case that it lists names of kinds that denote an endpoint. -/
theorem shown_endpoint_read_back :
    (∀ (raw : String) (e : Endpoint), Endpoint.parse raw = .ok e → Endpoint.parse e.text = .ok e) ∧
    (∀ (raw raw' : String) (e e' : Endpoint), Endpoint.parse raw = .ok e →
      Endpoint.parse raw' = .ok e' → (e.text = e'.text ↔ e = e')) ∧
    (∀ (raw : String) (e : Endpoint) (request : Request), Endpoint.parse raw = .ok e →
      request.context.text? "endpoint" = some raw →
        Session.keyOf (naming request e.text) = Session.keyOf request ∧
        connectPlan (naming request e.text) = connectPlan request ∧
        ∀ (moment : Moment) (s : Session),
          Service.handle moment (naming request e.text) s = Service.handle moment request s) ∧
    ∀ (raw : String) (e : Endpoint),
      Endpoint.parse raw = .ok e ↔
        ∃ named, Endpoint.Lists raw named ∧ Endpoint.Denotes named e := by
  refine ⟨?_, ?_, ?_, ?_⟩
  · intro raw e read
    exact Endpoint.parse_text read
  · intro raw raw' e e' read read'
    constructor
    · intro same
      have again := Endpoint.parse_text read
      rw [same, Endpoint.parse_text read'] at again
      exact (Except.ok.inj again).symm
    · rintro rfl
      rfl
  · intro raw e request read names
    have asked : endpointOf request = .ok e := by
      rw [endpointOf, names]
      exact read
    have alike := naming_alike ((Endpoint.parse_text read).trans asked.symm) asked
    exact ⟨alike.keyOf_eq, alike.connectPlan_eq, alike.handle_eq⟩
  · intro raw e
    exact Endpoint.parse_eq_ok

/-- An endpoint with blanks where a text may hold them, and with a topic that is given again. -/
def blanked : String := " subscription :\u2003a b\t,topic:x, topic : t:u "

/-- A request that names its endpoint so. -/
def blankedRequest : Request :=
  Request.new "RECEIVE" ⟨[("connection", .string "receiver"), ("endpoint", .string blanked)]⟩

theorem blanked_endpoint_read_back :
    Endpoint.parse blanked = .ok (.topic "t:u" (some "a b")) ∧
    Endpoint.parse "topic:t:u, subscription:a b" = .ok (.topic "t:u" (some "a b")) ∧
    Endpoint.text (.topic "t:u" (some "a b")) ≠ Endpoint.text (.topic "t:u" none) ∧
    ∀ (moment : Moment) (s : Session),
      Service.handle moment (naming blankedRequest "topic:t:u, subscription:a b") s =
        Service.handle moment blankedRequest s := by
  have read : Endpoint.parse blanked = .ok (.topic "t:u" (some "a b")) := by
    decide
  have bare : Endpoint.parse "topic:t:u" = .ok (.topic "t:u" none) := by decide
  refine ⟨read, shown_endpoint_read_back.1 _ _ read, ?_, ?_⟩
  · simp [shown_endpoint_read_back.2.1 _ _ _ _ read bare]
  · exact (shown_endpoint_read_back.2.2.1 _ _ blankedRequest read rfl).2.2

end SessionRelay.ServiceBus
