import SessionRelay.Config.Settings

/-!
Settings from a document. A section is a table of its settings, of which each may be missing, or an
array of their values in order. Entries are visited in the order of their names; names that mean
nothing here are passed over.
-/

namespace SessionRelay.Config

open Toml (Value)

/-- A named part of a record and how a value is read into it. On failure the path leads from here
to the value at fault. -/
structure Part (ρ : Type) where
  name : String
  read : ρ → Value → Except (Fault × List String) ρ

namespace Part

variable {ρ : Type}

/-- A record from the entries of a table. -/
def readEntries (parts : List (Part ρ)) : ρ → List (String × Value) →
    Except (Fault × List String) ρ
  | r, [] => .ok r
  | r, (name, v) :: rest =>
    match parts.find? fun p => p.name == name with
    | none => readEntries parts r rest
    | some p =>
      match p.read r v with
      | .error (fault, path) => .error (fault, name :: path)
      | .ok r => readEntries parts r rest

/-- A record from the items of an array; `count` is how many there are. -/
def readItems (count : Nat) : List (Part ρ) → ρ → List Value → Except (Fault × List String) ρ
  | _, r, [] => .ok r
  | [], _, _ :: _ => .error (.tooMany count, [])
  | p :: parts, r, v :: rest =>
    match p.read r v with
    | .error e => .error e
    | .ok r => readItems count parts r rest

/-- A record with the title that messages give it. Parts that a value leaves out are as in `r`. -/
def readAll (title : String) (parts : List (Part ρ)) (r : ρ) :
    Value → Except (Fault × List String) ρ
  | .table entries => readEntries parts r entries
  | .array items => readItems items.length parts r items
  | v => .error (.wrongType v title, [])

/-- A part that holds text. -/
def text (name : String) (set : ρ → String → ρ) : Part ρ where
  name := name
  read r
    | .string s => .ok (set r s)
    | .datetime s => .ok (set r s)
    | v => .error (.wrongType v "a string", [])

/-- A part that holds a whole number up to `limit`, of the kind that messages name. -/
def natural (name kind : String) (limit : Nat) (set : ρ → Nat → ρ) : Part ρ where
  name := name
  read r
    | .integer n =>
      if 0 ≤ n ∧ n ≤ limit then .ok (set r n.toNat) else .error (.outOfRange n kind, [])
    | v => .error (.wrongType v kind, [])

/-- A part that is on or off. -/
def flag (name : String) (set : ρ → Bool → ρ) : Part ρ where
  name := name
  read r
    | .boolean b => .ok (set r b)
    | v => .error (.wrongType v "a boolean", [])

/-- A part that is a record itself. One that is written starts from its defaults. -/
def record {σ : Type} (name title : String) (parts : List (Part σ)) (blank : σ)
    (set : ρ → σ → ρ) : Part ρ where
  name := name
  read r v := (readAll title parts blank v).map (set r)

end Part

namespace Settings

open Config.Part

def loggingParts : List (Part LoggingSettings) := [
  text "level" fun r v => { r with level := v },
  flag "human_friendly" fun r v => { r with humanFriendly := v }]

def serverParts : List (Part ServerSettings) := [
  text "host" fun r v => { r with host := v },
  natural "port" "u16" 65535 fun r v => { r with port := v }]

def brokerParts : List (Part BrokerSettings) := [
  natural "poll_interval_ms" "u64" Integer.maxUnsigned fun r v => { r with pollIntervalMs := v },
  natural "drain_timeout_ms" "u64" Integer.maxUnsigned fun r v => { r with drainTimeoutMs := v }]

def wireParts : List (Part WireSettings) := [
  natural "max_frame_size_bytes" "usize" Integer.maxUnsigned fun r v =>
    { r with maxFrameSizeBytes := v }]

def backendParts : List (Part BackendSettings) := [
  text "engine" fun r v => { r with engine := v }]

def parts : List (Part Settings) := [
  record "logging" "struct LoggingConfig" loggingParts standard.logging fun s v =>
    { s with logging := v },
  record "server" "struct ServerConfig" serverParts standard.server fun s v =>
    { s with server := v },
  record "broker" "struct BrokerConfig" brokerParts standard.broker fun s v =>
    { s with broker := v },
  record "wire" "struct WireConfig" wireParts standard.wire fun s v => { s with wire := v },
  record "backend" "struct BackendConfig" backendParts standard.backend fun s v =>
    { s with backend := v }]

def ofToml (v : Value) : Except Error Settings :=
  match readAll "struct AppConfig" parts standard v with
  | .ok s => .ok s
  | .error (fault, path) => .error (.unfit fault path)

end Settings

end SessionRelay.Config
