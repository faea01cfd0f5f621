import SessionRelay.Backend.Engine
import SessionRelay.Config.Error
import SessionRelay.Logging
import SessionRelay.Wire.Frame

/-!
The settings of the daemon, their defaults and their limits.
-/

namespace SessionRelay.Config

structure LoggingSettings where
  level : String
  humanFriendly : Bool
  deriving DecidableEq, Repr

structure ServerSettings where
  host : String
  port : Nat
  deriving DecidableEq, Repr

structure BrokerSettings where
  pollIntervalMs : Nat
  drainTimeoutMs : Nat
  deriving DecidableEq, Repr

structure WireSettings where
  maxFrameSizeBytes : Nat
  deriving DecidableEq, Repr

structure BackendSettings where
  engine : String
  deriving DecidableEq, Repr

structure Settings where
  logging : LoggingSettings
  server : ServerSettings
  broker : BrokerSettings
  wire : WireSettings
  backend : BackendSettings
  deriving DecidableEq, Repr

/-- The least and the greatest time between two looks at a silent connection. -/
def minPollIntervalMs : Nat := 10

def maxPollIntervalMs : Nat := 1000

namespace Settings

def standard : Settings where
  logging := ⟨"info", false⟩
  server := ⟨"127.0.0.1", 5554⟩
  broker := ⟨maxPollIntervalMs, 3000⟩
  wire := ⟨Wire.defaultLimit⟩
  backend := ⟨Backend.Engine.memory.name⟩

def toToml (s : Settings) : Toml.Value :=
  .table [
    ("backend", .table [("engine", .string s.backend.engine)]),
    ("broker", .table [
      ("drain_timeout_ms", .integer s.broker.drainTimeoutMs),
      ("poll_interval_ms", .integer s.broker.pollIntervalMs)]),
    ("logging", .table [
      ("human_friendly", .boolean s.logging.humanFriendly),
      ("level", .string s.logging.level)]),
    ("server", .table [
      ("host", .string s.server.host),
      ("port", .integer s.server.port)]),
    ("wire", .table [("max_frame_size_bytes", .integer s.wire.maxFrameSizeBytes)])]

def logLevel (s : Settings) : Logging.Level :=
  (Logging.Level.read? s.logging.level).getD .info

def codec (s : Settings) : Wire.Codec := ⟨s.wire.maxFrameSizeBytes⟩

/-- Settings that the daemon can run with. -/
def checked (s : Settings) : Except Error Settings :=
  if (Logging.Level.read? s.logging.level).isNone then
    .error (.invalidSetting "logging.level"
      s!"'{s.logging.level}' is not one of: {Logging.Level.allowed}")
  else if s.broker.pollIntervalMs < minPollIntervalMs ∨
      maxPollIntervalMs < s.broker.pollIntervalMs then
    .error (.invalidSetting "broker.poll_interval_ms"
      (s!"must be between {minPollIntervalMs} and {maxPollIntervalMs}, " ++
        s!"got {s.broker.pollIntervalMs}"))
  else if s.wire.maxFrameSizeBytes = 0 then
    .error (.invalidSetting "wire.max_frame_size_bytes" "must be greater than zero")
  else if (Backend.Engine.read? s.backend.engine).isNone then
    .error (.invalidSetting "backend.engine" s!"unsupported engine '{s.backend.engine}'")
  else .ok s

end Settings

end SessionRelay.Config
