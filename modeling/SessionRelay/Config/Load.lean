import SessionRelay.Config.Decode
import SessionRelay.Config.Merge
import SessionRelay.Config.Override
import SessionRelay.Toml.Document

/-!
Where settings come from: the defaults, then a file, then the command line. The command line may
name the file, and only in front of all else; else a variable of the environment may; else the file
is the one with the usual name, if it is there.
-/

namespace SessionRelay.Config

/-- The variable of the environment that names the file. -/
def fileVariable : String := "ASYNC_MESSAGED_CONFIG"

def usualFile : String := "async-messaged.toml"

/-- What a start of the daemon finds: its command line, the variable that names the file, and
whether the usual file is there. -/
structure Launch where
  arguments : List String
  namedFile : Option String
  hasUsualFile : Bool
  deriving DecidableEq, Repr

/-- The file to read, if any, and the arguments that are overrides. -/
structure Plan where
  file : Option String
  overrides : List String
  deriving DecidableEq, Repr

def Launch.plan (l : Launch) : Except Error Plan :=
  match l.arguments with
  | "--config" :: path :: rest => .ok ⟨some path, rest⟩
  | ["--config"] => .error (.missingValue "config")
  | arguments =>
    .ok ⟨l.namedFile.orElse fun _ => if l.hasUsualFile then some usualFile else none, arguments⟩

namespace Settings

/-- Settings from a document, after the overrides of a command line. -/
def finish (root : Toml.Value) (arguments : List String) : Except Error Settings :=
  match Override.readAll arguments with
  | .error e => .error e
  | .ok overrides =>
    match Override.applyAll overrides root with
    | .error e => .error e
    | .ok root =>
      match ofToml root with
      | .error e => .error e
      | .ok s => s.checked

/-- The defaults with the text of a file over them. -/
def documentOver (path content : String) : Except Error Toml.Value :=
  match Toml.Value.ofDocument? content with
  | none => .error (.notToml path "not a TOML document")
  | some document => .ok (standard.toToml.merged document)

/-- The settings of a plan. `read` gives the text of the file at a path, or why it cannot be had. -/
def load (read : String → Except String String) (plan : Plan) : Except Error Settings :=
  match plan.file with
  | none => finish standard.toToml plan.overrides
  | some path =>
    match read path with
    | .error reason => .error (.unreadable path reason)
    | .ok content =>
      match documentOver path content with
      | .error e => .error e
      | .ok root => finish root plan.overrides

end Settings

end SessionRelay.Config
