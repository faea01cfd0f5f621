import SessionRelay.Broker.Relay
import SessionRelay.Broker.Schedule
import SessionRelay.Calendar
import SessionRelay.Config.Load
import SessionRelay.Text.Uuid
import Std.Time.DateTime.Timestamp

/-!
The daemon as a program: settings from the command line, then one client on the standard streams.
Frames come and go on standard input and output, and the log goes to standard error.
-/

open SessionRelay

namespace SessionRelay.Main

/-- The milliseconds since 1970. -/
def wallClock : IO Int := do
  let now ← Std.Time.Timestamp.now
  return now.toMillisecondsSinceUnixEpoch.val

/-- The text of a file, or why it cannot be had. -/
def readText (path : String) : IO (Except String String) := do
  match ← (IO.FS.readBinFile path).toBaseIO with
  | .error e => return .error (toString e)
  | .ok content =>
    match Utf8.decode? content.toList with
    | some text => return .ok text
    | none => return .error "stream did not contain valid UTF-8"

def isThere (path : String) : IO Bool := do
  match ← (IO.FS.readBinFile path).toBaseIO with
  | .error (.noFileOrDirectory _ _ _) => return false
  | _ => return true

def settingsFor (arguments : List String) : IO (Except Config.Error Config.Settings) := do
  let launch : Config.Launch :=
    ⟨arguments, ← IO.getEnv Config.fileVariable, ← isThere Config.usualFile⟩
  match launch.plan with
  | .error e => return .error e
  | .ok plan =>
    let content ← match plan.file with
      | some path => readText path
      | none => pure (.ok "")
    return Config.Settings.load (fun _ => content) plan

/-- A broker at work: its log, when it began, and how much of its journal has been carried out. -/
structure Session where
  log : Logging.Settings
  began : Nat
  daemon : Broker.Daemon Integration.Family
  shown : Nat

/-- The greatest number of moves between two looks at the clock. -/
def fuel : Nat := 100000

/-- Carries out what the journal has gained. -/
def Session.carryOut (s : Session) : IO Session := do
  let journal := s.daemon.router.journal
  let output ← IO.getStdout
  for effect in (journal.take (journal.length - s.shown)).reverse do
    match effect with
    | .log entry =>
      if let some line := s.log.line? entry then
        IO.eprintln s!"{Calendar.stamp (← wallClock)} {line}"
    | .sent _ frame =>
      output.write ⟨frame.toArray⟩
      output.flush
    | _ => pure ()
  return { s with shown := journal.length }

/-- Makes a move and all that follow from it at once. -/
def Session.make (s : Session) (m : Broker.Move) : IO Session := do
  let now := (← IO.monoNanosNow) - s.began
  let daemon := { s.daemon with now := max s.daemon.now now }
  { s with daemon := ((daemon.step? m).getD daemon).settle fuel }.carryOut

/-- Waits as long as jobs are under way. -/
partial def Session.finishJobs (s : Session) : IO Session := do
  if s.daemon.router.inFlight = 0 then return s
  match s.daemon.wake? with
  | none => return s
  | some time =>
    IO.sleep (((time - s.daemon.now) / Broker.Daemon.nanosPerMilli + 1).toUInt32)
    (← s.make (.pass time)).finishJobs

partial def Session.serve (s : Session) (input : IO.FS.Stream) : IO Session := do
  let chunk ← input.read 8192
  if chunk.isEmpty then s.make (.read 1 .finished)
  else (← (← s.make (.read 1 (.bytes chunk.toList))).finishJobs).serve input

end SessionRelay.Main

/-- Runs the daemon. Settings that cannot be had end it with status 2. -/
def main (arguments : List String) : IO UInt32 := do
  match ← Main.settingsFor arguments with
  | .error e =>
    IO.eprintln s!"configuration error: {e.message}"
    return 2
  | .ok settings =>
    let seed := (← IO.getRandomBytes 16).toList.foldl (fun n b => n * 256 + b.toNat) 0
    let setup := Broker.Setup.relay "stdio" settings.wire.maxFrameSizeBytes
      (fun n => .ok (Uuid.text (seed + n))) settings.broker.pollIntervalMs
      settings.broker.drainTimeoutMs
    let session : Main.Session :=
      { log := ⟨settings.logLevel, settings.logging.humanFriendly⟩
        began := ← IO.monoNanosNow
        daemon := .start setup .empty (← Main.wallClock)
        shown := 0 }
    let session ← session.make (.connect "stdio")
    let session ← session.serve (← IO.getStdin)
    let session ← session.make .requestShutdown
    discard session.finishJobs
    return 0
