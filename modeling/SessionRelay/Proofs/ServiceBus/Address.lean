import SessionRelay.Proofs.Text.Split
import SessionRelay.ServiceBus.Url

/-!
Addresses of service buses, written and read. Behind the namespace an address is a list of settings
between semicolons, in any order and number. Only a semicolon ends a setting and only the first
equals sign its name, so names and keys may hold slashes, colons and further equals signs.
-/

namespace SessionRelay.ServiceBus.Url

open Integration
open Text (Gives LastGives)

/-- An address in its parts. The settings are whatever stands behind the semicolons. -/
structure Parts where
  space : String
  slashes : Nat
  settings : List String

namespace Parts

/-- What stands in front of the first semicolon. -/
def head (p : Parts) : String := p.space ++ String.ofList (List.replicate p.slashes '/')

/-- The address as it is written. -/
def text (p : Parts) : String := "sb://" ++ ";".intercalate (p.head :: p.settings)

/-- What the parts must not hold. Slashes at the end of a namespace are no part of it. -/
structure Sound (p : Parts) : Prop where
  space : p.space ≠ "" ∧ ';' ∉ p.space.toList ∧ p.space.toList.getLast? ≠ some '/'
  settings : ∀ setting ∈ p.settings, ';' ∉ setting.toList

end Parts

/-- The address in its usual form. -/
def text (u : Url) : String :=
  "sb://" ++ u.space ++ "/;SharedAccessKeyName=" ++ u.keyName ++ ";SharedAccessKey=" ++ u.key

/-- Behind the scheme, the semicolons divide the address into a head and settings. -/
def Divides (address : List Char) (head : List Char) (settings : List (List Char)) : Prop :=
  address = "sb://".toList ++ [';'].intercalate (head :: settings) ∧
    ∀ part ∈ head :: settings, ';' ∉ part

/-- What an address can lack: its scheme, its namespace, or one of its two settings. -/
inductive Lacks (address : List Char) : Prop
  | scheme (other : ¬ "sb://".toList <+: address)
  | space {head : List Char} {settings : List (List Char)} (divides : Divides address head settings)
      (blank : ∀ c ∈ head, c = '/')
  | keyName {head : List Char} {settings : List (List Char)}
      (divides : Divides address head settings)
      (unnamed : ∀ part ∈ settings, ∀ value, ¬ Gives "SharedAccessKeyName" value part)
  | key {head : List Char} {settings : List (List Char)} (divides : Divides address head settings)
      (keyless : ∀ part ∈ settings, ∀ value, ¬ Gives "SharedAccessKey" value part)

/-! ### Reading -/

theorem Divides.pieces_eq {rest head : List Char} {settings : List (List Char)}
    (divides : Divides ("sb://".toList ++ rest) head settings) :
    Text.pieces ';' rest = head :: settings := by
  rw [List.append_cancel_left divides.1]
  exact Text.pieces_intercalate (List.cons_ne_nil head settings) divides.2

/-- An address is divided in one way only. -/
theorem Divides.unique {address head head' : List Char} {settings settings' : List (List Char)}
    (divides : Divides address head settings) (divides' : Divides address head' settings') :
    head = head' ∧ settings = settings' := by
  obtain ⟨rfl, -⟩ := id divides
  exact List.cons.inj (divides.pieces_eq.symm.trans divides'.pieces_eq)

theorem exists_divides (rest : List Char) :
    ∃ head settings, Divides ("sb://".toList ++ rest) head settings := by
  cases pieces : Text.pieces ';' rest with
  | nil => exact absurd pieces (Text.pieces_ne_nil ';' rest)
  | cons head settings =>
    refine ⟨head, settings, ?_, ?_⟩
    · rw [← pieces, Text.intercalate_pieces]
    · intro part member
      exact Text.not_mem_of_mem_pieces (pieces ▸ member)

/-- What an address is read as, by what its semicolons divide. -/
def readParts (head : List Char) (settings : List (List Char)) : Except String Url :=
  if (Text.dropTrailing (· == '/') head).isEmpty then .error "no namespace"
  else
    match Text.lastValue? "SharedAccessKeyName" settings,
      Text.lastValue? "SharedAccessKey" settings with
    | none, _ => .error "SharedAccessKeyName must be in the url"
    | _, none => .error "SharedAccessKey must be in the url"
    | some keyName, some key =>
      .ok ⟨String.ofList (Text.dropTrailing (· == '/') head), keyName, key⟩

theorem Divides.check_eq {address head : List Char} {settings : List (List Char)}
    (divides : Divides address head settings) : check address = readParts head settings := by
  obtain ⟨rfl, -⟩ := id divides
  have front : ['s', 'b', ':', '/', '/'] = "sb://".toList := rfl
  rw [check, front, Text.after?_append]
  dsimp only
  rw [divides.pieces_eq]
  rfl

theorem readParts_eq_ok {head : List Char} {settings : List (List Char)} {u : Url} :
    readParts head settings = .ok u ↔
      Text.dropTrailing (· == '/') head = u.space.toList ∧ u.space ≠ "" ∧
      LastGives "SharedAccessKeyName" u.keyName settings ∧
      LastGives "SharedAccessKey" u.key settings := by
  rw [← Text.lastValue?_eq_some (by decide), ← Text.lastValue?_eq_some (by decide)]
  constructor
  · intro read
    unfold readParts at read
    split at read
    · cases read
    · next some =>
      split at read
      · cases read
      · cases read
      · next keyName key named keyed =>
        cases read
        exact ⟨by simp, by simpa using some, named, keyed⟩
  · rintro ⟨space, some, named, keyed⟩
    simp [readParts, space, some, named, keyed]

theorem check_eq_ok {address : List Char} {u : Url} :
    check address = .ok u ↔ ∃ head settings, Divides address head settings ∧
      Text.dropTrailing (· == '/') head = u.space.toList ∧ u.space ≠ "" ∧
      LastGives "SharedAccessKeyName" u.keyName settings ∧
      LastGives "SharedAccessKey" u.key settings := by
  constructor
  · intro read
    cases scheme : Text.after? "sb://".toList address with
    | none =>
      have read' : check address = .error "scheme must be sb" := by
        unfold check
        rw [show ['s', 'b', ':', '/', '/'] = "sb://".toList from rfl, scheme]
      rw [read'] at read
      cases read
    | some rest =>
      obtain rfl := Text.after?_eq_some.mp scheme
      obtain ⟨head, settings, divides⟩ := exists_divides rest
      rw [divides.check_eq, readParts_eq_ok] at read
      exact ⟨head, settings, divides, read⟩
  · rintro ⟨head, settings, divides, read⟩
    rw [divides.check_eq, readParts_eq_ok]
    exact read

theorem parse_eq_ok {address : String} {u : Url} :
    parse address = .ok u ↔ check address.toList = .ok u := by
  unfold parse
  cases check address.toList <;> simp

theorem Lacks.not_read {address : List Char} (lacks : Lacks address) (u : Url) :
    check address ≠ .ok u := by
  intro read
  rw [check_eq_ok] at read
  obtain ⟨head, settings, divides, space, some, named, keyed⟩ := read
  cases lacks with
  | scheme other => exact other ⟨_, divides.1.symm⟩
  | space divides' blank =>
    obtain ⟨rfl, rfl⟩ := divides.unique divides'
    rw [Text.dropTrailing_eq_rdropWhile, List.rdropWhile_eq_nil_iff.mpr (by simpa using blank)]
      at space
    exact some (String.toList_inj.mp space.symm)
  | keyName divides' unnamed =>
    obtain ⟨rfl, rfl⟩ := divides.unique divides'
    obtain ⟨before, part, after, rfl, gives, -⟩ := named
    exact unnamed part (by simp) _ gives
  | key divides' keyless =>
    obtain ⟨rfl, rfl⟩ := divides.unique divides'
    obtain ⟨before, part, after, rfl, gives, -⟩ := keyed
    exact keyless part (by simp) _ gives

theorem lacks_or_read (address : List Char) : Lacks address ∨ ∃ u, check address = .ok u := by
  by_cases scheme : "sb://".toList <+: address
  case neg => exact Or.inl (.scheme scheme)
  case pos =>
    obtain ⟨rest, rfl⟩ := scheme
    obtain ⟨head, settings, divides⟩ := exists_divides rest
    cases named : Text.lastValue? "SharedAccessKeyName" settings with
    | none => exact Or.inl (.keyName divides ((Text.lastValue?_eq_none (by decide)).mp named))
    | some keyName =>
      cases keyed : Text.lastValue? "SharedAccessKey" settings with
      | none => exact Or.inl (.key divides ((Text.lastValue?_eq_none (by decide)).mp keyed))
      | some key =>
        by_cases blank : ∀ c ∈ head, c = '/'
        · exact Or.inl (.space divides blank)
        · refine Or.inr ⟨⟨String.ofList (Text.dropTrailing (· == '/') head), keyName, key⟩, ?_⟩
          rw [check_eq_ok]
          refine ⟨head, settings, divides, by simp, ?_,
            (Text.lastValue?_eq_some (by decide)).mp named,
            (Text.lastValue?_eq_some (by decide)).mp keyed⟩
          simpa [Text.dropTrailing_eq_rdropWhile, List.rdropWhile_eq_nil_iff] using blank

theorem exists_error_iff {address : String} :
    (∃ e, parse address = .error e) ↔ Lacks address.toList := by
  constructor
  · rintro ⟨e, failed⟩
    rcases lacks_or_read address.toList with lacks | ⟨u, read⟩
    · exact lacks
    · rw [parse_eq_ok.mpr read] at failed
      cases failed
  · intro lacks
    cases read : parse address with
    | error e => exact ⟨e, rfl⟩
    | ok u => exact absurd (parse_eq_ok.mp read) (lacks.not_read u)

/-! ### Writing -/

theorem Parts.Sound.divides {p : Parts} (sound : p.Sound) :
    Divides p.text.toList p.head.toList (p.settings.map String.toList) := by
  constructor
  · simp [text, String.toList_intercalate]
  · have slashes : ';' ∉ List.replicate p.slashes '/' := by simp [List.mem_replicate]
    simpa [head, sound.space.2.1, slashes] using sound.settings

theorem Parts.Sound.space_eq {p : Parts} (sound : p.Sound) :
    Text.dropTrailing (· == '/') p.head.toList = p.space.toList := by
  have slashes : ∀ c ∈ List.replicate p.slashes '/', (c == '/') = true := by simp
  rw [head, String.toList_append, String.toList_ofList, Text.dropTrailing_append slashes]
  exact Text.dropTrailing_beq_eq_self.mpr sound.space.2.2

theorem Parts.Sound.parse_eq {p : Parts} (sound : p.Sound) {keyName key : String}
    (named : LastGives "SharedAccessKeyName" keyName (p.settings.map String.toList))
    (keyed : LastGives "SharedAccessKey" key (p.settings.map String.toList)) :
    parse p.text = .ok ⟨p.space, keyName, key⟩ := by
  rw [parse_eq_ok, check_eq_ok]
  exact ⟨_, _, sound.divides, sound.space_eq, sound.space.1, named, keyed⟩

/-- The parts of an address in its usual form. -/
def parts (u : Url) : Parts :=
  ⟨u.space, 1, ["SharedAccessKeyName=" ++ u.keyName, "SharedAccessKey=" ++ u.key]⟩

theorem text_parts (u : Url) : u.parts.text = u.text := by
  apply String.toList_inj.mp
  simp [Parts.text, Parts.head, parts, text]

/-- What was read of an address can be written. -/
theorem sound_of_check {address : List Char} {u : Url} (read : check address = .ok u) :
    u.parts.Sound ∧ u.keyName ≠ "" ∧ u.key ≠ "" := by
  rw [check_eq_ok] at read
  obtain ⟨head, settings, ⟨-, free⟩, space, some, named, keyed⟩ := read
  have given {name value : String} (gives : LastGives name value settings) :
      value ≠ "" ∧ ';' ∉ value.toList := by
    obtain ⟨before, part, after, rfl, ⟨rfl, filled⟩, -⟩ := gives
    have free' := free (name.toList ++ '=' :: value.toList) (by simp)
    simp only [List.mem_append, List.mem_cons, not_or] at free'
    exact ⟨filled, free'.2.2⟩
  have inside : u.space.toList ⊆ head := by
    rw [← space]
    exact (List.rdropWhile_prefix _ _).subset
  refine ⟨⟨⟨some, ?_, ?_⟩, ?_⟩, (given named).1, (given keyed).1⟩
  · exact fun member => free head List.mem_cons_self (inside member)
  · apply Text.dropTrailing_beq_eq_self.mp
    rw [show u.parts.space.toList = _ from space.symm]
    exact List.rdropWhile_idempotent _ head
  · simp [parts, (given named).2, (given keyed).2]

/-- An address is read as its parts were written, with the last name and the last key that it
gives. What was read of any address is read again in the usual form. And nothing is read just in
case that the scheme, the namespace or one of the two settings is lacking. -/
theorem settings_read_back :
    (∀ (p : Parts) (keyName key : String), p.Sound →
      LastGives "SharedAccessKeyName" keyName (p.settings.map String.toList) →
      LastGives "SharedAccessKey" key (p.settings.map String.toList) →
        parse p.text = .ok ⟨p.space, keyName, key⟩) ∧
    (∀ (address : String) (u : Url), parse address = .ok u → parse u.text = .ok u) ∧
    ∀ address : String, (∃ e, parse address = .error e) ↔ Lacks address.toList := by
  refine ⟨?_, ?_, ?_⟩
  · intro p keyName key sound named keyed
    exact sound.parse_eq named keyed
  · intro address u read
    obtain ⟨sound, named, keyed⟩ := sound_of_check (parse_eq_ok.mp read)
    rw [← text_parts]
    apply sound.parse_eq
    · refine ⟨[], _, [("SharedAccessKey=" ++ u.key).toList], rfl, ⟨by simp, named⟩, ?_⟩
      simp [Gives]
    · exact ⟨[_], _, [], rfl, ⟨by simp, keyed⟩, by simp⟩
  · intro address
    exact exists_error_iff

/-- An address with marks wherever a part may hold them, and with a key that is given again. -/
def markedParts : Parts :=
  ⟨"a/b", 2, ["SharedAccessKey=k", "SharedAccessKeyName=R=/:", "", "SharedAccessKey=c2==",
    "SharedAccessKey="]⟩

theorem marked_settings_read_back :
    parse
      "sb://a/b//;SharedAccessKey=k;SharedAccessKeyName=R=/:;;SharedAccessKey=c2==;SharedAccessKey="
        = .ok ⟨"a/b", "R=/:", "c2=="⟩ ∧
    parse "sb://a/b/;SharedAccessKeyName=R=/:;SharedAccessKey=c2==" =
      .ok ⟨"a/b", "R=/:", "c2=="⟩ ∧
    ∃ e, parse "sb:////;SharedAccessKeyName=R;SharedAccessKey=k" = .error e := by
  have marked := settings_read_back.1 markedParts "R=/:" "c2=="
    (by constructor <;> simp [markedParts])
    ⟨["SharedAccessKey=k".toList], _,
      ["", "SharedAccessKey=c2==", "SharedAccessKey="].map String.toList, rfl,
      ⟨rfl, by decide⟩, by simp [Gives]⟩
    ⟨["SharedAccessKey=k", "SharedAccessKeyName=R=/:", ""].map String.toList, _,
      ["SharedAccessKey="].map String.toList, rfl, ⟨rfl, by decide⟩, by simp [Gives]⟩
  have divides : Divides "sb:////;SharedAccessKeyName=R;SharedAccessKey=k".toList ['/', '/']
      ["SharedAccessKeyName=R".toList, "SharedAccessKey=k".toList] := ⟨rfl, by simp⟩
  exact ⟨marked, settings_read_back.2.1 _ _ marked,
    (settings_read_back.2.2 _).mpr (.space divides (by simp))⟩

end SessionRelay.ServiceBus.Url
