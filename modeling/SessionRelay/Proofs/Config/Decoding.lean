import SessionRelay.Config.Decode
import SessionRelay.Proofs.Toml.Merging

/-!
Settings read from a document. A record is seen as the table of what it shows, and reading a part of
it puts one entry into that table. So the settings show what the document says about each of them,
and for the others what they were before.
-/

namespace SessionRelay

namespace Toml.Value

/-- A value as settings hold it: a date-time is its text. -/
def spelled : Value → Value
  | .datetime text => .string text
  | v => v

/-- Where `default` has a value that is no table, `shown` has what `v` says there, and that value if
`v` says nothing. What stands below a value of `v` that is no table is left open. -/
def Fills (v default shown : Value) : Prop :=
  ∀ path d, default.at? path = some d → d.kind ≠ .table → ¬ v.Cuts path →
    shown.at? path = some (((v.at? path).map spelled).getD d)

theorem fills_spelled {default : Value} (leaf : default.kind ≠ .table) (v : Value) :
    Fills v default v.spelled := by
  intro path d found _ _
  cases path with
  | nil => rfl
  | cons key path =>
    rw [at?_cons_of_ne_table leaf] at found
    cases found

end Toml.Value

namespace Config

open Toml (Value)
open Toml.Value (Fills)

namespace Part

variable {ρ σ : Type} {shown : ρ → KeyTable Value} {default : Value} {name : String}

/-- Reading the part changes nothing but its entry in what the record shows, and fills that. -/
def Shows (p : Part ρ) (shown : ρ → KeyTable Value) (default : Value) : Prop :=
  ∀ r v r', v.Ordered → p.read r v = .ok r' →
    ∃ w, Fills v default w ∧ shown r' = KeyTable.put p.name w (shown r)

theorem text_shows {set : ρ → String → ρ} (leaf : default.kind ≠ .table)
    (sets : ∀ r s, shown (set r s) = KeyTable.put name (.string s) (shown r)) :
    (text name set).Shows shown default := by
  intro r v r' _ read
  cases v with
  | string s =>
    cases read
    exact ⟨_, Value.fills_spelled leaf _, sets r s⟩
  | datetime s =>
    cases read
    exact ⟨_, Value.fills_spelled leaf _, sets r s⟩
  | integer | float | boolean | array | table => cases read

theorem natural_shows {kind : String} {limit : Nat} {set : ρ → Nat → ρ}
    (leaf : default.kind ≠ .table)
    (sets : ∀ r (n : Nat), shown (set r n) = KeyTable.put name (.integer n) (shown r)) :
    (natural name kind limit set).Shows shown default := by
  intro r v r' _ read
  cases v with
  | integer n =>
    simp only [natural] at read
    split at read
    · next within =>
      cases read
      refine ⟨_, Value.fills_spelled leaf _, ?_⟩
      rw [sets, Int.toNat_of_nonneg within.1]
      rfl
    · cases read
  | string | float | boolean | datetime | array | table => cases read

theorem flag_shows {set : ρ → Bool → ρ} (leaf : default.kind ≠ .table)
    (sets : ∀ r b, shown (set r b) = KeyTable.put name (.boolean b) (shown r)) :
    (flag name set).Shows shown default := by
  intro r v r' _ read
  cases v with
  | boolean b =>
    cases read
    exact ⟨_, Value.fills_spelled leaf _, sets r b⟩
  | string | integer | float | datetime | array | table => cases read

/-- The parts are those of what the record shows. -/
structure Cover (parts : List (Part ρ)) (shown : ρ → KeyTable Value) (blank : ρ) : Prop where
  shows : ∀ p ∈ parts, ∃ default, KeyTable.value? p.name (shown blank) = some default ∧
    p.Shows shown default
  named : ∀ key ∈ KeyTable.names (shown blank), ∃ p ∈ parts, p.name = key

namespace Cover

variable {parts : List (Part ρ)} {blank r r' : ρ} {entries : KeyTable Value} {key : String}
  {v : Value}

/-- Reading the first entry fills what the record shows under its name, and nothing else. -/
theorem first_read (cover : Cover parts shown blank) (ordered : v.Ordered)
    (read : readEntries parts r ((name, v) :: entries) = .ok r') :
    ∃ r₁, readEntries parts r₁ entries = .ok r' ∧
      (∀ key, key ≠ name → KeyTable.value? key (shown r₁) = KeyTable.value? key (shown r)) ∧
      ∀ default, KeyTable.value? name (shown blank) = some default →
        ∃ w, Fills v default w ∧ KeyTable.value? name (shown r₁) = some w := by
  rw [readEntries] at read
  split at read
  · next unnamed =>
    refine ⟨r, read, fun _ _ => rfl, ?_⟩
    intro default found
    have known : name ∈ KeyTable.names (shown blank) :=
      List.mem_map_of_mem (f := Prod.fst) (KeyTable.mem_of_value? found)
    obtain ⟨p, member, named⟩ := cover.named name known
    exact absurd (by simpa using named) (List.find?_eq_none.mp unnamed p member)
  · next p here =>
    have named : p.name = name := by simpa using List.find?_some here
    obtain ⟨default, found, shows⟩ := cover.shows p (List.mem_of_find?_eq_some here)
    split at read
    · cases read
    · next r₁ first =>
      obtain ⟨w, fills, put⟩ := shows r v r₁ ordered first
      rw [named] at found put
      refine ⟨r₁, read, ?_, ?_⟩
      · intro key other
        rw [put, KeyTable.value?_put_ne other]
      · intro default' found'
        rw [found] at found'
        cases found'
        exact ⟨w, fills, by rw [put, KeyTable.value?_put_self]⟩

theorem value?_of_absent (cover : Cover parts shown blank)
    (ordered : ∀ entry ∈ entries, entry.2.Ordered) (absent : KeyTable.value? key entries = none)
    (read : readEntries parts r entries = .ok r') :
    KeyTable.value? key (shown r') = KeyTable.value? key (shown r) := by
  induction entries generalizing r with
  | nil =>
    cases read
    rfl
  | cons first rest ih =>
    obtain ⟨name, v⟩ := first
    obtain ⟨here, later⟩ := List.forall_mem_cons.mp ordered
    obtain ⟨r₁, readRest, others, -⟩ := cover.first_read here read
    rw [KeyTable.value?] at absent
    split at absent
    · cases absent
    · next other => rw [ih later absent readRest, others key other]

theorem value?_of_found (cover : Cover parts shown blank)
    (ascending : KeyTable.Ascending entries) (ordered : ∀ entry ∈ entries, entry.2.Ordered)
    (found : KeyTable.value? key entries = some v) (read : readEntries parts r entries = .ok r')
    (known : KeyTable.value? key (shown blank) = some default) :
    ∃ w, Fills v default w ∧ KeyTable.value? key (shown r') = some w := by
  induction entries generalizing r with
  | nil => cases found
  | cons first rest ih =>
    obtain ⟨name, v'⟩ := first
    obtain ⟨here, later⟩ := List.forall_mem_cons.mp ordered
    obtain ⟨r₁, readRest, -, changed⟩ := cover.first_read here read
    rw [KeyTable.value?] at found
    split at found
    · next same =>
      subst same
      cases found
      obtain ⟨w, fills, put⟩ := changed default known
      -- the name is given once, so the entries behind this one leave what it filled
      have once := KeyTable.value?_eq_none_iff.mpr ascending.head_not_mem
      exact ⟨w, fills, by rw [cover.value?_of_absent later once readRest, put]⟩
    · exact ih ascending.tail later found readRest

theorem fills (cover : Cover parts shown blank) (ordered : v.Ordered) {title : String}
    (read : readAll title parts blank v = .ok r') :
    Fills v (.table (shown blank)) (.table (shown r')) := by
  intro path d found leaf uncut
  cases path with
  | nil =>
    cases found
    exact absurd rfl leaf
  | cons key path =>
    rw [Value.cuts_cons, not_or, ne_eq, Decidable.not_not] at uncut
    obtain ⟨table, below⟩ := uncut
    cases v with
    | string | integer | float | boolean | datetime | array => cases table
    | table entries =>
      rw [readAll] at read
      rw [Value.at?_cons, Value.entries_table] at found
      obtain ⟨default, known, inside⟩ := Option.bind_eq_some_iff.mp found
      rw [Value.at?_cons, Value.at?_cons, Value.entries_table, Value.entries_table]
      cases given : KeyTable.value? key entries with
      | none =>
        rw [cover.value?_of_absent ordered.inside given read, known, Option.bind_some, inside]
        rfl
      | some v' =>
        obtain ⟨w, fills, put⟩ :=
          cover.value?_of_found ordered.ascending ordered.inside given read known
        rw [put, Option.bind_some, Option.bind_some]
        exact fills path d inside leaf fun cut => below ⟨v', given, cut⟩

end Cover

/-- A part that is a record shows as a table, which starts from its defaults. -/
theorem record_shows {title : String} {parts : List (Part σ)} {blank : σ} {set : ρ → σ → ρ}
    {inner : σ → KeyTable Value} (cover : Cover parts inner blank)
    (sets : ∀ r x, shown (set r x) = KeyTable.put name (.table (inner x)) (shown r)) :
    (record name title parts blank set).Shows shown (.table (inner blank)) := by
  intro r v r' ordered read
  simp only [record] at read
  cases inside : readAll title parts blank v with
  | error e => simp [inside, Except.map] at read
  | ok x =>
    simp only [inside, Except.map, Except.ok.injEq] at read
    subst read
    exact ⟨_, cover.fills ordered inside, sets r x⟩

end Part

namespace Settings

open Config.Part

/-! ### What the sections show -/

def shownLogging (s : LoggingSettings) : KeyTable Value :=
  [("human_friendly", .boolean s.humanFriendly), ("level", .string s.level)]

def shownServer (s : ServerSettings) : KeyTable Value :=
  [("host", .string s.host), ("port", .integer s.port)]

def shownBroker (s : BrokerSettings) : KeyTable Value :=
  [("drain_timeout_ms", .integer s.drainTimeoutMs), ("poll_interval_ms", .integer s.pollIntervalMs)]

def shownWire (s : WireSettings) : KeyTable Value :=
  [("max_frame_size_bytes", .integer s.maxFrameSizeBytes)]

def shownBackend (s : BackendSettings) : KeyTable Value := [("engine", .string s.engine)]

theorem loggingParts_cover : Cover loggingParts shownLogging standard.logging where
  shows := by
    simp only [loggingParts, List.forall_mem_cons]
    refine ⟨⟨_, rfl, text_shows nofun ?_⟩, ⟨_, rfl, flag_shows nofun ?_⟩, nofun⟩
    · exact fun r s => rfl
    · exact fun r b => rfl
  named := by decide

theorem serverParts_cover : Cover serverParts shownServer standard.server where
  shows := by
    simp only [serverParts, List.forall_mem_cons]
    refine ⟨⟨_, rfl, text_shows nofun ?_⟩, ⟨_, rfl, natural_shows nofun ?_⟩, nofun⟩
    · exact fun r s => rfl
    · exact fun r n => rfl
  named := by decide

theorem brokerParts_cover : Cover brokerParts shownBroker standard.broker where
  shows := by
    simp only [brokerParts, List.forall_mem_cons]
    refine ⟨⟨_, rfl, natural_shows nofun ?_⟩, ⟨_, rfl, natural_shows nofun ?_⟩, nofun⟩
    · exact fun r n => rfl
    · exact fun r n => rfl
  named := by decide

theorem wireParts_cover : Cover wireParts shownWire standard.wire where
  shows := by
    simp only [wireParts, List.forall_mem_cons]
    refine ⟨⟨_, rfl, natural_shows nofun ?_⟩, nofun⟩
    exact fun r n => rfl
  named := by decide

theorem backendParts_cover : Cover backendParts shownBackend standard.backend where
  shows := by
    simp only [backendParts, List.forall_mem_cons]
    refine ⟨⟨_, rfl, text_shows nofun ?_⟩, nofun⟩
    exact fun r s => rfl
  named := by decide

theorem parts_cover : Cover parts (fun s => s.toToml.entries) standard where
  shows := by
    simp only [parts, List.forall_mem_cons]
    refine ⟨⟨_, rfl, record_shows loggingParts_cover ?_⟩,
      ⟨_, rfl, record_shows serverParts_cover ?_⟩, ⟨_, rfl, record_shows brokerParts_cover ?_⟩,
      ⟨_, rfl, record_shows wireParts_cover ?_⟩, ⟨_, rfl, record_shows backendParts_cover ?_⟩,
      nofun⟩
    all_goals exact fun s section' => rfl
  named := by decide

theorem fills_ofToml {v : Value} {s : Settings} (ordered : v.Ordered) (read : ofToml v = .ok s) :
    Fills v standard.toToml s.toToml := by
  unfold ofToml at read
  split at read
  · next inside =>
    cases read
    exact parts_cover.fills ordered inside
  · cases read

end Settings

end Config

end SessionRelay
