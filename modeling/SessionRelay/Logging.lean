import SessionRelay.Json.Writer
import SessionRelay.Text.Blank

/-!
Log lines: a level, the part of the program that speaks, a message and an optional payload.
-/

namespace SessionRelay.Logging

/-- How much a line matters; a log shows the lines up to its own level. -/
inductive Level where
  | error
  | warn
  | info
  | debug
  | verbose
  deriving DecidableEq, Repr, Inhabited

namespace Level

def rank : Level → Nat
  | .error => 1
  | .warn => 2
  | .info => 3
  | .debug => 4
  | .verbose => 5

def name : Level → String
  | .error => "Error"
  | .warn => "Warn"
  | .info => "Info"
  | .debug => "Debug"
  | .verbose => "Verbose"

def label : Level → String
  | .error => "ERROR"
  | .warn => "WARN"
  | .info => "INFO"
  | .debug => "DEBUG"
  | .verbose => "VERBOSE"

/-- The digits of the terminal colour in which people see the label. -/
def colour : Level → String
  | .error => "31"
  | .warn => "33"
  | .info => "32"
  | .debug => "36"
  | .verbose => "35"

/-- Reads a level from a setting: its name or a common synonym, in any case of ASCII letters. -/
def read? (raw : String) : Option Level :=
  match String.ofList ((Text.trimBlank raw.toList).map Char.toLower) with
  | "error" => some .error
  | "warn" => some .warn
  | "warning" => some .warn
  | "info" => some .info
  | "debug" => some .debug
  | "verbose" => some .verbose
  | "trace" => some .verbose
  | _ => none

/-- The names that a message about a wrong level lists. -/
def allowed : String := "error, warn, info, debug, verbose"

end Level

/-- What is said, before it is filtered. -/
structure Entry where
  level : Level
  context : String
  message : String
  payload : Option Json.Value
  deriving Repr, BEq, Inhabited

/-- Which lines a log shows, and whether for people. -/
structure Settings where
  minLevel : Level
  humanFriendly : Bool
  deriving DecidableEq, Repr, Inhabited

namespace Settings

def standard : Settings := ⟨.info, false⟩

def enabled (s : Settings) (level : Level) : Bool := level.rank ≤ s.minLevel.rank

end Settings

namespace Entry

/-- The label between brackets, with colour switched on and off around it for people. -/
def labelText (humanFriendly : Bool) (level : Level) : String :=
  if humanFriendly then s!"\x1b[{level.colour}m{level.label}\x1b[0m" else level.label

/-- The line without its time. -/
def text (humanFriendly : Bool) (e : Entry) : String :=
  let label := labelText humanFriendly e.level
  let context := if e.context.isEmpty then "" else s!" [{e.context}]"
  let payload :=
    match e.payload with
    | some p => s!" payload={p.text}"
    | none => ""
  s!"[{label}]{context} {e.message}{payload}"

end Entry

/-- The line for an entry, if the log shows it. -/
def Settings.line? (s : Settings) (e : Entry) : Option String :=
  if s.enabled e.level then some (e.text s.humanFriendly) else none

def Settings.lines (s : Settings) (entries : List Entry) : List String :=
  entries.filterMap s.line?

end SessionRelay.Logging
