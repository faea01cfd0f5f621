import SessionRelay.Toml.Value

/-!
Why settings cannot be had.
-/

namespace SessionRelay.Config

/-- What is wrong with a value in a document that is well formed. -/
inductive Fault where
  | wrongType (found : Toml.Value) (expected : String)
  | outOfRange (found : Int) (expected : String)
  | tooMany (count : Nat)
  deriving Repr, BEq

def Fault.text : Fault → String
  | .wrongType found expected => s!"invalid type: {found.described}, expected {expected}"
  | .outOfRange found expected =>
    s!"invalid value: {(Toml.Value.integer found).described}, expected {expected}"
  | .tooMany count => s!"invalid length {count}, expected fewer elements in array"

inductive Error where
  | unreadable (path reason : String)
  | notToml (path reason : String)
  | unwritable (reason : String)
  | unfit (fault : Fault) (path : List String)
  | missingValue (key : String)
  | invalidArgument (argument : String)
  | invalidPath (key : String)
  | unknownPath (key : String)
  | unsupportedOverride (key : String)
  | invalidValue (key expected value : String)
  | invalidSetting (key reason : String)
  deriving Repr, BEq

def Error.message : Error → String
  | .unreadable path reason => s!"failed to read config file '{path}': {reason}"
  | .notToml path reason => s!"failed to parse TOML config '{path}': {reason}"
  | .unwritable reason => s!"failed to render default config: {reason}"
  | .unfit fault path =>
    let names := ".".intercalate path
    let place := if path.isEmpty then "" else s!"\nin `{names}`"
    s!"failed to deserialize config: {fault.text}{place}"
  | .missingValue key => s!"missing value for CLI argument '--{key}'"
  | .invalidArgument argument =>
    s!"invalid CLI argument format '{argument}', expected '--section.key value'"
  | .invalidPath key => s!"invalid override key path '{key}'"
  | .unknownPath key => s!"unknown override key path '{key}'"
  | .unsupportedOverride key => s!"override not supported for complex TOML type at '{key}'"
  | .invalidValue key expected value =>
    s!"invalid value '{value}' for '{key}', expected type {expected}"
  | .invalidSetting key reason => s!"invalid '{key}': {reason}"

end SessionRelay.Config
