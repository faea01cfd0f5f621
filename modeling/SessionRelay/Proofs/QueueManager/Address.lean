import SessionRelay.Proofs.Number.Integer
import SessionRelay.Proofs.Text.Split
import SessionRelay.QueueManager.Url

/-!
Addresses of queue managers, written and read. Each mark of an address is looked for only where the
parts before it or behind it cannot hold it: the first slash ends the authority, the last `@` in it
ends the user, the last colon behind that the host, and the first question mark the path. So parts
may hold the marks that are not looked for where they stand, and are read as they were written.
-/

namespace SessionRelay.QueueManager.Url

open Integration
open Text (Gives LastGives GivesOnce)

/-- An address in its parts. The parts of the query are whatever stands between its ampersands. -/
structure Parts where
  secure : Bool
  username : Option String
  host : String
  port : Option Nat
  path : String
  query : List String

namespace Parts

def schemeText (p : Parts) : String := if p.secure then "mqs" else "mq"

def userText (p : Parts) : String :=
  match p.username with
  | some name => name ++ "@"
  | none => ""

def portText (p : Parts) : String :=
  match p.port with
  | some n => ":" ++ Integer.natText n
  | none => ""

/-- The address as it is written. -/
def text (p : Parts) : String :=
  p.schemeText ++ "://" ++ p.userText ++ p.host ++ p.portText ++ "/" ++ p.path ++ "?" ++
    "&".intercalate p.query

/-- What the parts must not hold. A user may hold `@` and colons, a host with a port colons, and a
part of the query anything but ampersands. -/
structure Sound (p : Parts) : Prop where
  username : ∀ name ∈ p.username, name ≠ "" ∧ '/' ∉ name.toList
  host : p.host ≠ "" ∧ '/' ∉ p.host.toList ∧ '@' ∉ p.host.toList
  port : ∀ n ∈ p.port, n < 65536
  portless : p.port = none → ':' ∉ p.host.toList
  path : '?' ∉ p.path.toList
  query : ∀ part ∈ p.query, '&' ∉ part.toList

/-- The parts of the query as they are looked through. -/
def settings (p : Parts) : List (List Char) := p.query.map String.toList

/-- What the parts mean with the queue manager and the channel that the query names. -/
def url (p : Parts) (queueManager channel : String) : Url :=
  ⟨p.secure, p.username, p.host, p.port.getD 1414, queueManager, channel⟩

end Parts

/-- The parts of an address that tells its port and no more than it must. -/
def parts (u : Url) : Parts :=
  ⟨u.secure, u.username, u.host, some u.port, "",
    ["QueueManager=" ++ u.queueManager, "Channel=" ++ u.channel]⟩

/-! ### Cuts -/

theorem splitOrAll_append {mark : Char} {before : List Char} (free : mark ∉ before)
    (rest : List Char) : splitOrAll mark (before ++ mark :: rest) = (before, rest) := by
  rw [splitOrAll, Text.cut?_append free, Option.getD_some]

theorem not_mem_splitOrAll (mark : Char) (cs : List Char) : mark ∉ (splitOrAll mark cs).1 := by
  unfold splitOrAll
  cases cut : Text.cut? [mark] cs with
  | none => simpa using Text.cut?_eq_none.mp cut
  | some found => simpa using (Text.cut?_eq_some.mp cut).2

theorem splitUser_append {name : String} (named : name ≠ "") {address : List Char}
    (free : '@' ∉ address) :
    splitUser (name.toList ++ '@' :: address) = (some name, address) := by
  rw [splitUser, Text.cutLast?_append free]
  cases chars : name.toList with
  | nil => simp at chars; contradiction
  | cons c cs => simp [← chars]

theorem splitUser_of_not_mem {address : List Char} (free : '@' ∉ address) :
    splitUser address = (none, address) := by
  rw [splitUser, Text.cutLast?_eq_none.mpr free]

/-- What a split of an authority gives stood in the authority, and nothing is left to split. -/
structure SplitsUser (authority : List Char) (username : Option String) (address : List Char) :
    Prop where
  named : ∀ name ∈ username, name ≠ "" ∧ name.toList ⊆ authority
  inside : address ⊆ authority
  bare : '@' ∉ address

theorem splitUser_splits (authority : List Char) :
    SplitsUser authority (splitUser authority).1 (splitUser authority).2 := by
  unfold splitUser
  split
  · next rest cut =>
    obtain ⟨rfl, free⟩ := Text.cutLast?_eq_some.mp cut
    exact ⟨by simp, by simp, free⟩
  · next user rest filled cut =>
    obtain ⟨rfl, free⟩ := Text.cutLast?_eq_some.mp cut
    exact ⟨by simpa using filled, by simp, free⟩
  · next uncut => exact ⟨by simp, by simp, Text.cutLast?_eq_none.mp uncut⟩

theorem splitPort?_digits (host : List Char) {n : Nat} (small : n < 65536) :
    splitPort? (host ++ ':' :: Integer.digits n) = some (host, n) := by
  rw [splitPort?, Text.cutLast?_append (Integer.not_mem_digits rfl n)]
  simp [small]

theorem splitPort?_of_not_mem {host : List Char} (free : ':' ∉ host) :
    splitPort? host = some (host, 1414) := by
  rw [splitPort?, Text.cutLast?_eq_none.mpr free]
  rfl

theorem of_splitPort? {cs host : List Char} {n : Nat} (split : splitPort? cs = some (host, n)) :
    host ⊆ cs ∧ n < 65536 := by
  unfold splitPort? at split
  split at split
  · next before port cut =>
    obtain ⟨rfl, -⟩ := Text.cutLast?_eq_some.mp cut
    split at split
    · split at split
      · next small =>
        cases split
        exact ⟨by simp, small⟩
      · cases split
    · cases split
  · cases split
    exact ⟨List.Subset.refl _, by decide⟩

/-! ### Writing and reading -/

namespace Parts

variable {p : Parts}

theorem toList_text (p : Parts) :
    p.text.toList = p.schemeText.toList ++ ':' :: (['/', '/'] ++
      (p.userText.toList ++ (p.host.toList ++ p.portText.toList) ++
        '/' :: (p.path.toList ++ '?' :: ['&'].intercalate p.settings))) := by
  simp [text, settings, String.toList_intercalate]

theorem not_mem_userText {c : Char} (other : c ≠ '@')
    (free : ∀ name ∈ p.username, c ∉ name.toList) : c ∉ p.userText.toList := by
  unfold userText
  cases username : p.username with
  | none => simp
  | some name => simpa [other] using free name username

theorem not_mem_portText {c : Char} (other : c ≠ ':') (noDigit : c.isDigit = false) :
    c ∉ p.portText.toList := by
  unfold portText
  cases p.port with
  | none => simp
  | some n => simpa [Integer.natText, other] using Integer.not_mem_digits noDigit n

/-- What stands in front of the path holds no slash. -/
theorem Sound.authority (sound : p.Sound) :
    '/' ∉ p.userText.toList ++ (p.host.toList ++ p.portText.toList) := by
  have user : '/' ∉ p.userText.toList :=
    not_mem_userText (by decide) fun name named => (sound.username name named).2
  have port : '/' ∉ p.portText.toList := not_mem_portText (by decide) rfl
  simp [user, port, sound.host.2.1]

theorem Sound.splitUser_eq (sound : p.Sound) :
    splitUser (p.userText.toList ++ (p.host.toList ++ p.portText.toList)) =
      (p.username, p.host.toList ++ p.portText.toList) := by
  have free : '@' ∉ p.host.toList ++ p.portText.toList := by
    have port : '@' ∉ p.portText.toList := not_mem_portText (by decide) rfl
    simp [port, sound.host.2.2]
  unfold userText
  cases username : p.username with
  | none => simpa using splitUser_of_not_mem free
  | some name => simpa using splitUser_append (sound.username name username).1 free

theorem Sound.splitPort?_eq (sound : p.Sound) :
    splitPort? (p.host.toList ++ p.portText.toList) = some (p.host.toList, p.port.getD 1414) := by
  unfold portText
  cases port : p.port with
  | none => simpa using splitPort?_of_not_mem (sound.portless port)
  | some n => simpa [Integer.natText] using splitPort?_digits p.host.toList (sound.port n port)

theorem Sound.pieces_eq (sound : p.Sound) {name value : String}
    (gives : LastGives name value p.settings) :
    Text.pieces '&' (['&'].intercalate p.settings) = p.settings := by
  obtain ⟨before, part, after, split, -⟩ := gives
  apply Text.pieces_intercalate
  · simp [split]
  · simpa [settings] using sound.query

theorem Sound.check_eq (sound : p.Sound) {queueManager channel : String}
    (manager : LastGives "QueueManager" queueManager p.settings)
    (line : LastGives "Channel" channel p.settings) :
    check p.text.toList = .ok (p.url queueManager channel) := by
  have noColon : ':' ∉ p.schemeText.toList := by
    unfold schemeText
    split <;> decide
  have known : schemes.contains p.schemeText = true := by
    unfold schemeText
    split <;> rfl
  have secure : decide (p.schemeText = "mqs") = p.secure := by
    unfold schemeText
    cases p.secure <;> rfl
  have hosted : p.host.toList.isEmpty = false := by simpa using sound.host.1
  rw [toList_text, check, Text.cut?_append_of_head noColon]
  simp only [String.ofList_toList, known, splitOrAll_append sound.authority,
    sound.splitUser_eq, sound.splitPort?_eq, hosted, splitOrAll_append sound.path,
    sound.pieces_eq manager, (Text.lastValue?_eq_some (by decide)).mpr manager,
    (Text.lastValue?_eq_some (by decide)).mpr line, secure]
  rfl

theorem Sound.parse_eq (sound : p.Sound) {queueManager channel : String}
    (manager : LastGives "QueueManager" queueManager p.settings)
    (line : LastGives "Channel" channel p.settings) :
    parse p.text = .ok (p.url queueManager channel) := by
  rw [parse, sound.check_eq manager line]

end Parts

/-- What holds of every address that was read: its parts can be written. -/
structure Legible (u : Url) : Prop where
  username : ∀ name ∈ u.username, name ≠ "" ∧ '/' ∉ name.toList
  host : u.host ≠ "" ∧ '/' ∉ u.host.toList ∧ '@' ∉ u.host.toList
  port : u.port < 65536
  queueManager : u.queueManager ≠ "" ∧ '&' ∉ u.queueManager.toList
  channel : u.channel ≠ "" ∧ '&' ∉ u.channel.toList

theorem of_lastValue? {name value : String} (plain : '=' ∉ name.toList) {cs : List Char}
    (found : Text.lastValue? name (Text.pieces '&' cs) = some value) :
    value ≠ "" ∧ '&' ∉ value.toList := by
  obtain ⟨before, part, after, split, ⟨rfl, filled⟩, -⟩ := (Text.lastValue?_eq_some plain).mp found
  have member : name.toList ++ '=' :: value.toList ∈ Text.pieces '&' cs := by simp [split]
  have free := Text.not_mem_of_mem_pieces member
  simp only [List.mem_append, List.mem_cons, not_or] at free
  exact ⟨filled, free.2.2⟩

/-- The splits that an address went through that was read. -/
theorem exists_splits_of_check {cs : List Char} {u : Url} (read : check cs = .ok u) :
    ∃ rest host query, u.username = (splitUser (splitOrAll '/' rest).1).1 ∧
      splitPort? (splitUser (splitOrAll '/' rest).1).2 = some (host, u.port) ∧
      u.host = String.ofList host ∧ host ≠ [] ∧
      Text.lastValue? "QueueManager" (Text.pieces '&' query) = some u.queueManager ∧
      Text.lastValue? "Channel" (Text.pieces '&' query) = some u.channel := by
  unfold check at read
  split at read
  · cases read
  · next scheme rest cut =>
    split at read
    · cases read
    · dsimp only at read
      split at read
      · cases read
      · next host port ported =>
        split at read
        · cases read
        · next filled =>
          split at read
          · cases read
          · cases read
          · next queueManager channel manager line =>
            cases read
            exact ⟨rest, host, _, rfl, ported, rfl, by simpa using filled, manager, line⟩

theorem legible_of_check {cs : List Char} {u : Url} (read : check cs = .ok u) : u.Legible := by
  obtain ⟨rest, host, query, username, ported, hosted, filled, manager, line⟩ :=
    exists_splits_of_check read
  have user := splitUser_splits (splitOrAll '/' rest).1
  have noSlash := not_mem_splitOrAll '/' rest
  obtain ⟨inside, small⟩ := of_splitPort? ported
  constructor
  case username =>
    intro name named
    rw [username] at named
    obtain ⟨some, subset⟩ := user.named name named
    exact ⟨some, fun member => noSlash (subset member)⟩
  case host =>
    rw [hosted, String.toList_ofList]
    refine ⟨?_, ?_, ?_⟩
    · simpa using filled
    · exact fun member => noSlash (user.inside (inside member))
    · exact fun member => user.bare (inside member)
  case port => exact small
  case queueManager => exact of_lastValue? (by decide) manager
  case channel => exact of_lastValue? (by decide) line

theorem Legible.sound {u : Url} (legible : u.Legible) : u.parts.Sound where
  username := legible.username
  host := legible.host
  port := by simpa [parts] using legible.port
  portless := by simp [parts]
  path := by simp [parts]
  query := by simp [parts, legible.queueManager.2, legible.channel.2]

theorem Legible.parse_eq {u : Url} (legible : u.Legible) : parse u.parts.text = .ok u := by
  have manager : LastGives "QueueManager" u.queueManager u.parts.settings := by
    refine ⟨[], _, [("Channel=" ++ u.channel).toList], rfl, ⟨by simp, legible.queueManager.1⟩, ?_⟩
    simp [Gives]
  have line : LastGives "Channel" u.channel u.parts.settings :=
    ⟨[_], _, [], rfl, ⟨by simp, legible.channel.1⟩, by simp⟩
  exact legible.sound.parse_eq manager line

/-- An address is read as its parts were written, with the last queue manager and the last channel
that its query gives; if it gives one of each, they may stand in any order. What was read of any
text is read again where it is written with its port. -/
theorem parts_read_back :
    (∀ (p : Parts) (queueManager channel : String), p.Sound →
      LastGives "QueueManager" queueManager p.settings →
      LastGives "Channel" channel p.settings → parse p.text = .ok (p.url queueManager channel)) ∧
    (∀ (p : Parts) (queueManager channel : String), p.Sound →
      GivesOnce "QueueManager" queueManager p.settings →
      GivesOnce "Channel" channel p.settings → ∀ query : List String, query.Perm p.query →
        parse { p with query }.text = .ok (p.url queueManager channel)) ∧
    ∀ (address : String) (u : Url), parse address = .ok u → parse u.parts.text = .ok u := by
  refine ⟨?_, ?_, ?_⟩
  · intro p queueManager channel sound manager line
    exact sound.parse_eq manager line
  · intro p queueManager channel sound manager line query same
    have sound' : Parts.Sound { p with query } :=
      { sound with query := fun part member => sound.query part (same.mem_iff.mp member) }
    exact sound'.parse_eq (manager.perm (same.map _)).lastGives (line.perm (same.map _)).lastGives
  · intro address u read
    apply Legible.parse_eq
    unfold parse at read
    split at read
    · next read' =>
      cases read
      exact legible_of_check read'
    · cases read

/-- An address with marks wherever a part may hold them, and with settings that are given again. -/
def markedParts : Parts :=
  ⟨true, some "us@er:1", "host:a", some 0, "p/@:",
    ["Channel=A", "x", "QueueManager=Q=/?@:", "Channel=C", "QueueManager="]⟩

/-- The address with the least in it, its two settings in the usual order. -/
def bareParts : Parts := ⟨false, none, "h", none, "", ["QueueManager=Q", "Channel=C"]⟩

theorem marked_parts_read_back :
    parse
      "mqs://us@er:1@host:a:0/p/@:?Channel=A&x&QueueManager=Q=/?@:&Channel=C&QueueManager=" =
        .ok ⟨true, some "us@er:1", "host:a", 0, "Q=/?@:", "C"⟩ ∧
    parse "mq://h/?Channel=C&QueueManager=Q" = .ok ⟨false, none, "h", 1414, "Q", "C"⟩ ∧
    parse "mq://h:1414/?QueueManager=Q&Channel=C" = .ok ⟨false, none, "h", 1414, "Q", "C"⟩ := by
  have marked := parts_read_back.1 markedParts "Q=/?@:" "C"
    (by constructor <;> simp [markedParts])
    ⟨["Channel=A", "x"].map String.toList, _, ["Channel=C", "QueueManager="].map String.toList, rfl,
      ⟨rfl, by decide⟩, by simp [Gives]⟩
    ⟨["Channel=A", "x", "QueueManager=Q=/?@:"].map String.toList, _,
      ["QueueManager=".toList], rfl, ⟨rfl, by decide⟩, by simp [Gives]⟩
  have reordered := parts_read_back.2.1 bareParts "Q" "C"
    (by constructor <;> simp [bareParts])
    ⟨[], _, ["Channel=C".toList], rfl, ⟨rfl, by decide⟩, by simp [Gives]⟩
    ⟨["QueueManager=Q".toList], _, [], rfl, ⟨rfl, by decide⟩, by simp [Gives]⟩
    ["Channel=C", "QueueManager=Q"] (List.Perm.swap _ _ _)
  exact ⟨marked, reordered, parts_read_back.2.2 _ _ reordered⟩

end SessionRelay.QueueManager.Url
